import Mathlib.Algebra.Group.Nat.Defs
import WordMachine.Numeral.Literal
import WordMachine.Proofs.Text.Glyph

/-!
# Numbers written and read again

The digits of a number can be read back in the same base, with any number of zeros before them. The
bases are those that have digits: from two to thirty-six.
-/

namespace WordMachine

/-- A decimal digit is a plain byte, and it is none of the bytes with a meaning of their own. -/
theorem Text.isPlain_of_isDecimalDigit {b : UInt8} (h : Numeral.isDecimalDigit b) :
    isPlain b ∧ b ≠ lineFeed ∧ b ≠ carriageReturn ∧ b ≠ plus ∧ b ≠ minus := by
  simp only [Numeral.isDecimalDigit, Bool.and_eq_true, decide_eq_true_eq,
    UInt8.le_iff_toNat_le] at h
  simp only [isPlain, isNarrowBlank, lineFeed, carriageReturn, plus, minus, Bool.and_eq_true,
    decide_eq_true_eq, Bool.not_eq_true', Bool.or_eq_false_iff, beq_eq_false_iff_ne,
    Bool.and_eq_false_iff, decide_eq_false_iff_not, UInt8.le_iff_toNat_le, UInt8.lt_iff_toNat_lt,
    ne_eq, ← UInt8.toNat_inj]
  simp only [UInt8.reduceToNat] at h ⊢
  omega

namespace Numeral

variable {base : Nat}

theorem digitValue?_digitByte {d : Nat} (h : d < 36) : digitValue? (digitByte d) = some d := by
  have hall : ∀ d : Fin 36, digitValue? (digitByte d) = some (d : Nat) := by decide
  exact hall ⟨d, h⟩

theorem readDigits_append (greatest value : Nat) (s t : Text) :
    readDigits base greatest value (s ++ t) =
      readDigits base greatest value s >>= fun v => readDigits base greatest v t := by
  induction s generalizing value with
  | nil => rfl
  | cons b s ih =>
      simp only [List.cons_append, readDigits]
      cases digitValue? b with
      | none => rfl
      | some d =>
          simp only
          split
          · rfl
          · split
            · rfl
            · exact ih _

theorem readDigits_digitByte {greatest value d : Nat} (hd : d < base) (hbase : base ≤ 36)
    (h : value * base + d ≤ greatest) :
    readDigits base greatest value [digitByte d] = .ok (value * base + d) := by
  simp only [readDigits, digitValue?_digitByte (Nat.lt_of_lt_of_le hd hbase)]
  rw [if_neg (by omega), if_neg (by omega)]

theorem readDigits_digitsWithin (hbase : 2 ≤ base) (hbase' : base ≤ 36) {greatest fuel n : Nat}
    (hfuel : n < fuel) (hn : n ≤ greatest) :
    readDigits base greatest 0 (digitsWithin base fuel n) = .ok n := by
  induction fuel generalizing n with
  | zero => omega
  | succ fuel ih =>
      rw [digitsWithin]
      split
      · next hlt =>
          have hread : readDigits base greatest 0 [digitByte n] = .ok (0 * base + n) :=
            readDigits_digitByte hlt hbase' (by omega)
          simpa using hread
      · next hge =>
          have hquotient : n / base < n := Nat.div_lt_self (by omega) (by omega)
          have hvalue : n / base * base + n % base = n := Nat.div_add_mod' n base
          rw [readDigits_append, ih (by omega) (by omega)]
          have hread := readDigits_digitByte (Nat.mod_lt n (by omega)) hbase'
            (by omega : n / base * base + n % base ≤ greatest)
          rwa [hvalue] at hread

theorem readDigits_replicate_zero (hbase : 2 ≤ base) (greatest count : Nat) (t : Text) :
    readDigits base greatest 0 (List.replicate count zeroByte ++ t) =
      readDigits base greatest 0 t := by
  induction count with
  | zero => rfl
  | succ count ih =>
      have hzero : digitValue? zeroByte = some 0 := by decide
      rw [List.replicate_succ, List.cons_append, readDigits, hzero]
      simp only
      rw [if_neg (by omega), if_neg (by omega)]
      simpa using ih

/-- Digits filled up with zeros read as the number that they were written for, if it is not too
great. -/
theorem readDigits_padLeft_digits (hbase : 2 ≤ base) (hbase' : base ≤ 36) {greatest n : Nat}
    (width : Nat) (hn : n ≤ greatest) :
    readDigits base greatest 0 (Text.padLeft width zeroByte (digits base n)) = .ok n := by
  rw [Text.padLeft, readDigits_replicate_zero hbase, digits]
  exact readDigits_digitsWithin hbase hbase' (Nat.lt_succ_self n) hn

theorem readDigits_digitByte_of_lt {greatest value d : Nat} (hd : d < base) (hbase : base ≤ 36)
    (h : greatest < value * base + d) :
    readDigits base greatest value [digitByte d] = .error .outOfRange := by
  simp only [readDigits, digitValue?_digitByte (Nat.lt_of_lt_of_le hd hbase)]
  rw [if_neg (by omega), if_pos h]

/-- A number that is too great is found out at one of its digits: the first of them may be a number
that is too great already. -/
theorem readDigits_digitsWithin_of_lt (hbase : 2 ≤ base) (hbase' : base ≤ 36)
    {greatest fuel n : Nat} (hfuel : n < fuel) (hn : greatest < n) :
    readDigits base greatest 0 (digitsWithin base fuel n) = .error .outOfRange := by
  induction fuel generalizing n with
  | zero => omega
  | succ fuel ih =>
      rw [digitsWithin]
      split
      · next hlt => exact readDigits_digitByte_of_lt hlt hbase' (by omega)
      · next hge =>
          have hquotient : n / base < n := Nat.div_lt_self (by omega) (by omega)
          have hvalue : n / base * base + n % base = n := Nat.div_add_mod' n base
          rw [readDigits_append]
          rcases Nat.lt_or_ge greatest (n / base) with hfirst | hfirst
          · rw [ih (by omega) hfirst]
            rfl
          · rw [readDigits_digitsWithin hbase hbase' (by omega) hfirst]
            exact readDigits_digitByte_of_lt (Nat.mod_lt n (by omega)) hbase' (by omega)

theorem readDigits_padLeft_digits_of_lt (hbase : 2 ≤ base) (hbase' : base ≤ 36) {greatest n : Nat}
    (width : Nat) (hn : greatest < n) :
    readDigits base greatest 0 (Text.padLeft width zeroByte (digits base n)) =
      .error .outOfRange := by
  rw [Text.padLeft, readDigits_replicate_zero hbase, digits]
  exact readDigits_digitsWithin_of_lt hbase hbase' (Nat.lt_succ_self n) hn

/-! ## The form of a numeral -/

theorem digits_ne_nil (base n : Nat) : digits base n ≠ [] := by
  rw [digits, digitsWithin]
  split <;> simp

theorem padded_ne_nil (base width : Nat) (value : Int) : padded base width value ≠ [] := by
  unfold padded
  split
  · simp
  · simp [Text.padLeft, digits_ne_nil]

theorem length_digitsWithin_le {fuel n width : Nat} (hwidth : 0 < width)
    (h : n < base ^ width) : (digitsWithin base fuel n).length ≤ width := by
  induction fuel generalizing n width with
  | zero => simp [digitsWithin]
  | succ fuel ih =>
      rw [digitsWithin]
      split
      · exact hwidth
      · next hge =>
          obtain ⟨width, rfl⟩ := Nat.exists_eq_add_of_lt hwidth
          rw [Nat.zero_add, Nat.pow_succ] at h
          have hwidth' : 0 < width := by
            rcases Nat.eq_zero_or_pos width with rfl | hpos
            · rw [Nat.pow_zero, Nat.one_mul] at h
              omega
            · exact hpos
          have hquotient : n / base < base ^ width := Nat.div_lt_of_lt_mul (by rwa [Nat.mul_comm])
          have hlength := ih hwidth' hquotient
          simp only [List.length_append, List.length_singleton]
          omega

theorem length_digits_le {n width : Nat} (hwidth : 0 < width) (h : n < base ^ width) :
    (digits base n).length ≤ width :=
  length_digitsWithin_le hwidth h

theorem length_padded_le {width least : Nat} {value : Int} (hwidth : 0 < width)
    (h : value.natAbs < base ^ width) (hleast : least ≤ width) :
    (padded base least value).length ≤ width + 1 := by
  have hlength : (digits base value.natAbs).length ≤ width := length_digits_le hwidth h
  unfold padded
  split
  · simp only [Text.padLeft, List.length_cons, List.length_append, List.length_replicate]
    omega
  · simp only [Text.padLeft, List.length_append, List.length_replicate]
    omega

theorem exists_digit_of_mem_digits (hbase : 0 < base) {n : Nat} {b : UInt8}
    (h : b ∈ digits base n) : ∃ d < base, b = digitByte d := by
  have hwithin (fuel : Nat) : ∀ n, b ∈ digitsWithin base fuel n → ∃ d < base, b = digitByte d := by
    induction fuel with
    | zero =>
        intro n h
        simp [digitsWithin] at h
    | succ fuel ih =>
        intro n h
        rw [digitsWithin] at h
        split at h
        · next hlt => exact ⟨n, hlt, List.mem_singleton.mp h⟩
        · rcases List.mem_append.mp h with h | h
          · exact ih _ h
          · exact ⟨n % base, Nat.mod_lt n hbase, List.mem_singleton.mp h⟩
  exact hwithin _ n h

/-- In a base up to ten every digit is one of the decimal digits. -/
theorem isDecimalDigit_of_mem_digits (hbase : 0 < base) (hbase' : base ≤ 10) {n : Nat} {b : UInt8}
    (h : b ∈ digits base n) : isDecimalDigit b := by
  have hall : ∀ d : Fin 10, isDecimalDigit (digitByte d) := by decide
  obtain ⟨d, hd, rfl⟩ := exists_digit_of_mem_digits hbase h
  exact hall ⟨d, by omega⟩

/-- A number in a base up to ten is written with decimal digits and a minus. -/
theorem isDecimalDigit_of_mem_padded (hbase : 0 < base) (hbase' : base ≤ 10) {width : Nat}
    {value : Int} {b : UInt8} (h : b ∈ padded base width value) :
    isDecimalDigit b ∨ b = Text.minus := by
  have hfilled {width : Nat} (h : b ∈ Text.padLeft width zeroByte (digits base value.natAbs)) :
      isDecimalDigit b := by
    rcases List.mem_append.mp h with h | h
    · rw [List.eq_of_mem_replicate h]
      decide
    · exact isDecimalDigit_of_mem_digits hbase hbase' h
  unfold padded at h
  split at h
  · rcases List.mem_cons.mp h with h | h
    · exact .inr h
    · exact .inl (hfilled h)
  · exact .inl (hfilled h)

theorem isPlain_of_mem_padded {base width : Nat} {value : Int} (hbase : 0 < base)
    (hbase' : base ≤ 10) {b : UInt8} (h : b ∈ padded base width value) :
    Text.isPlain b ∧ b ≠ Text.lineFeed := by
  rcases isDecimalDigit_of_mem_padded hbase hbase' h with hdigit | rfl
  · obtain ⟨hplain, hfeed, -⟩ := Text.isPlain_of_isDecimalDigit hdigit
    exact ⟨hplain, hfeed⟩
  · decide

/-! ## Decimal numbers as literals -/

theorem decimal_natCast (n : Nat) : decimal n = digits 10 n := by
  simp [decimal, padded, Text.padLeft]

/-- Digits begin with a byte that is no sign. -/
theorem exists_digits_eq_cons (n : Nat) :
    ∃ b rest, digits 10 n = b :: rest ∧ b ≠ Text.plus ∧ b ≠ Text.minus := by
  obtain ⟨b, rest, hcons⟩ := List.exists_cons_of_ne_nil (digits_ne_nil 10 n)
  have hdigit : isDecimalDigit b :=
    isDecimalDigit_of_mem_digits (by decide) (by decide) (hcons ▸ List.mem_cons_self)
  obtain ⟨-, -, -, hplus, hminus⟩ := Text.isPlain_of_isDecimalDigit hdigit
  exact ⟨b, rest, hcons, hplus, hminus⟩

theorem isDecimal_decimal (n : Nat) : isDecimal (decimal n) = true := by
  obtain ⟨b, rest, hcons, -, hminus⟩ := exists_digits_eq_cons n
  have hhead : (digits 10 n).head? ≠ some Text.minus := by simpa [hcons] using hminus
  have hdigit : ∀ b ∈ digits 10 n, isDecimalDigit b := fun _ hb =>
    isDecimalDigit_of_mem_digits (by decide) (by decide) hb
  rw [decimal_natCast]
  simpa [isDecimal, hhead, digits_ne_nil] using hdigit

/-- A number without sign that is written in base ten is read as a decimal literal. -/
theorem readDecimal_decimal {n : Nat} (h : n < 2147483648) : readDecimal (decimal n) = .ok n := by
  have hread : readNat 10 literalBits (digits 10 n) = .ok n := by
    have hfits : n ≤ Nat.pow 2 literalBits - 1 := by
      rw [literalBits, Nat.pow_eq]
      omega
    rw [readNat, if_neg (by simp [digits_ne_nil])]
    exact readDigits_digitsWithin (by decide) (by decide) (Nat.lt_succ_self n) hfits
  have hsplit : splitSign (digits 10 n) = (false, digits 10 n) := by
    obtain ⟨b, rest, hcons, hplus, hminus⟩ := exists_digits_eq_cons n
    simp [hcons, splitSign, hplus, hminus]
  have hsigned : signed literalBits false n = .ok (n : Int) := by
    have hlt : n < Nat.pow 2 (literalBits - 1) := h
    rw [signed, if_neg (by decide), if_pos hlt]
  have hint : readInt 10 literalBits (digits 10 n) = .ok (n : Int) := by
    simp only [readInt, hsplit, hread]
    exact hsigned
  rw [readDecimal, if_pos (isDecimal_decimal n), decimal_natCast, readLiteral, hint]

theorem readNumber_decimal {n : Nat} (h : n < 2147483648) : readNumber (decimal n) = .ok n := by
  rw [readNumber, if_pos (isDecimal_decimal n), readDecimal_decimal h]

end Numeral

end WordMachine
