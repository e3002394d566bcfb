import Mathlib.Data.Nat.Digits.Defs
import WordMachine.Numeral.Literal

/-!
# The grammar of number literals

What a literal is, and which number it stands for, is said here by a grammar that reads nothing:
digits are letters of an alphabet, and a run of digits has its positional value. The readers of
literals then accept exactly the grammar, as far as the numbers have 32 bits.

## Implementation notes

The readers look at a text from left to right and give up at the first number that is too great.
Since a further digit never makes a number smaller, nothing is given up that would fit in the end.
-/

namespace WordMachine.Numeral

/-! ## Digits -/

/-- The digits of the bases up to sixteen. -/
def upperAlphabet : Text := Text.ascii "0123456789ABCDEF"

/-- The digits of the bases up to sixteen, with small letters. -/
def lowerAlphabet : Text := Text.ascii "0123456789abcdef"

/-- A byte is the digit of a base with the value `d`. -/
structure IsDigit (base : Nat) (b : UInt8) (d : Nat) : Prop where
  lt_base : d < base
  writes : upperAlphabet[d]? = some b ∨ lowerAlphabet[d]? = some b

/-- A text is a run of digits, most significant first, and stands for the number `n`. -/
structure Writes (base : Nat) (t : Text) (n : Nat) : Prop where
  ne_nil : t ≠ []
  digits : ∃ ds, List.Forall₂ (IsDigit base) t ds ∧ n = Nat.ofDigits base ds.reverse

/-- A run of digits with an optional sign before it. -/
inductive WritesSigned (base : Nat) : Text → Int → Prop
  | bare {t : Text} {n : Nat} (h : Writes base t n) : WritesSigned base t n
  | plus {t : Text} {n : Nat} (h : Writes base t n) : WritesSigned base (Text.plus :: t) n
  | minus {t : Text} {n : Nat} (h : Writes base t n) : WritesSigned base (Text.minus :: t) (-n)

/-! ## Literals -/

/-- Decimal digits with an optional minus before them. -/
inductive DecimalLiteral : Text → Int → Prop
  | bare {t : Text} {n : Nat} (h : Writes 10 t n) : DecimalLiteral t n
  | minus {t : Text} {n : Nat} (h : Writes 10 t n) : DecimalLiteral (Text.minus :: t) (-n)

/-- The literals and their values. Only a hexadecimal literal has its sign after the mark, and an
octal one has none. -/
inductive Literal : Text → Int → Prop
  | decimal {t : Text} {v : Int} (h : DecimalLiteral t v) : Literal t v
  | hex {letter : UInt8} {t : Text} {v : Int} (hmark : letter ∈ Text.ascii "xX")
      (h : WritesSigned 16 t v) : Literal (zeroByte :: letter :: t) v
  | octal {letter : UInt8} {t : Text} {n : Nat} (hmark : letter ∈ Text.ascii "oO")
      (h : Writes 8 t n) : Literal (zeroByte :: letter :: t) n

/-- A number is a signed number of 32 bits. -/
def FitsLiteral (v : Int) : Prop := -2147483648 ≤ v ∧ v ≤ 2147483647

/-! ## Reading digits -/

variable {base : Nat}

theorem isDigit_iff (hbase : base ≤ 16) {b : UInt8} {d : Nat} :
    IsDigit base b d ↔ digitValue? b = some d ∧ d < base := by
  have hall : ∀ code : Fin 256, ∀ d : Fin 16,
      (upperAlphabet[d.val]? = some (UInt8.ofNat code) ∨
        lowerAlphabet[d.val]? = some (UInt8.ofNat code)) ↔
      digitValue? (UInt8.ofNat code) = some d.val := by
    decide +kernel
  have hbyte (hd : d < 16) : (upperAlphabet[d]? = some b ∨ lowerAlphabet[d]? = some b) ↔
      digitValue? b = some d := by
    simpa using hall ⟨b.toNat, b.toNat_lt⟩ ⟨d, hd⟩
  constructor
  · rintro ⟨hlt, hwrites⟩
    exact ⟨(hbyte (by omega)).mp hwrites, hlt⟩
  · rintro ⟨hvalue, hlt⟩
    exact ⟨hlt, (hbyte (by omega)).mpr hvalue⟩

theorem ofDigits_after (value d : Nat) (ds : List Nat) :
    value * base ^ (ds.length + 1) + Nat.ofDigits base (d :: ds).reverse =
      (value * base + d) * base ^ ds.length + Nat.ofDigits base ds.reverse := by
  rw [Nat.ofDigits_reverse_cons, Nat.pow_succ]
  ring

/-- Reading goes on to the end of a run of digits exactly if the number of all of them is not too
great. -/
theorem readDigits_eq_ok_iff (hbase : base ≤ 16) {greatest value n : Nat} {t : Text}
    (hvalue : value ≤ greatest) :
    readDigits base greatest value t = .ok n ↔
      ∃ ds, List.Forall₂ (IsDigit base) t ds ∧
        n = value * base ^ ds.length + Nat.ofDigits base ds.reverse ∧ n ≤ greatest := by
  induction t generalizing value with
  | nil =>
      constructor
      · intro h
        cases h
        exact ⟨[], .nil, by simp, hvalue⟩
      · rintro ⟨ds, hds, rfl, -⟩
        cases hds
        simp [readDigits]
  | cons b rest ih =>
      constructor
      · intro h
        rw [readDigits] at h
        cases hdigit : digitValue? b with
        | none =>
            rw [hdigit] at h
            cases h
        | some d =>
            simp only [hdigit] at h
            split at h
            · cases h
            · next hd =>
                split at h
                · cases h
                · next hfits =>
                    obtain ⟨ds, hds, rfl, hle⟩ := (ih (by omega)).mp h
                    have hfirst : IsDigit base b d := (isDigit_iff hbase).mpr ⟨hdigit, by omega⟩
                    exact ⟨d :: ds, .cons hfirst hds, (ofDigits_after value d ds).symm, hle⟩
      · rintro ⟨ds, hds, hn, hle⟩
        cases hds with
        | @cons _ d _ ds hfirst hds =>
            obtain ⟨hdigit, hlt⟩ := (isDigit_iff hbase).mp hfirst
            rw [List.length_cons, ofDigits_after] at hn
            -- The number read so far is no greater than the whole number.
            have hpower : 0 < base ^ ds.length := Nat.pow_pos (by omega)
            have hsofar : value * base + d ≤ greatest := by
              have hmul := Nat.le_mul_of_pos_right (value * base + d) hpower
              omega
            simp only [readDigits, hdigit]
            rw [if_neg (by omega), if_neg (by omega)]
            exact (ih hsofar).mpr ⟨ds, hds, hn, hle⟩

theorem readNat_eq_ok_iff (hbase : base ≤ 16) {bits n : Nat} {t : Text} :
    readNat base bits t = .ok n ↔ Writes base t n ∧ n ≤ Nat.pow 2 bits - 1 := by
  unfold readNat
  split
  · next hempty =>
      constructor
      · intro h
        cases h
      · rintro ⟨hwrites, -⟩
        exact absurd (List.isEmpty_iff.mp hempty) hwrites.ne_nil
  · next hempty =>
      rw [readDigits_eq_ok_iff hbase (Nat.zero_le _)]
      constructor
      · rintro ⟨ds, hds, hn, hle⟩
        rw [Nat.zero_mul, Nat.zero_add] at hn
        exact ⟨⟨fun h => hempty (List.isEmpty_iff.mpr h), ds, hds, hn⟩, hle⟩
      · rintro ⟨⟨-, ds, hds, hn⟩, hle⟩
        exact ⟨ds, hds, by rw [Nat.zero_mul, Nat.zero_add, hn], hle⟩

/-! ## Signs -/

theorem Writes.head_ne_sign (hbase : base ≤ 16) {b : UInt8} {t : Text} {n : Nat}
    (h : Writes base (b :: t) n) : b ≠ Text.plus ∧ b ≠ Text.minus := by
  obtain ⟨ds, hds, -⟩ := h.digits
  cases hds with
  | cons hfirst _ =>
      obtain ⟨hdigit, -⟩ := (isDigit_iff hbase).mp hfirst
      constructor
      · rintro rfl
        cases hdigit
      · rintro rfl
        cases hdigit

theorem Writes.splitSign_eq (hbase : base ≤ 16) {t : Text} {n : Nat} (h : Writes base t n) :
    splitSign t = (false, t) := by
  obtain ⟨b, rest, rfl⟩ := List.exists_cons_of_ne_nil h.ne_nil
  obtain ⟨hplus, hminus⟩ := h.head_ne_sign hbase
  rw [splitSign, if_neg hminus, if_neg hplus]

theorem writesSigned_iff (hbase : base ≤ 16) {t : Text} {v : Int} :
    WritesSigned base t v ↔
      ∃ n : Nat, Writes base (splitSign t).2 n ∧ v = if (splitSign t).1 then -(n : Int) else n := by
  constructor
  · intro h
    cases h with
    | @bare _ n h => exact ⟨n, by rwa [h.splitSign_eq hbase], by rw [h.splitSign_eq hbase]; rfl⟩
    | @plus _ n h => exact ⟨n, h, rfl⟩
    | @minus _ n h => exact ⟨n, h, rfl⟩
  · rintro ⟨n, hwrites, rfl⟩
    cases t with
    | nil => exact absurd rfl hwrites.ne_nil
    | cons b rest =>
        by_cases hminus : b = Text.minus
        · simp only [splitSign, hminus, if_true] at hwrites ⊢
          exact .minus hwrites
        · by_cases hplus : b = Text.plus
          · subst hplus
            exact .plus hwrites
          · simp only [splitSign, hminus, hplus, if_false] at hwrites ⊢
            exact .bare hwrites

theorem signed_eq_ok_iff {negative : Bool} {n : Nat} {v : Int} :
    signed literalBits negative n = .ok v ↔
      v = (if negative then -(n : Int) else n) ∧ FitsLiteral v := by
  have hhalf : Nat.pow 2 (literalBits - 1) = 2147483648 := rfl
  unfold signed FitsLiteral
  rw [hhalf]
  cases negative with
  | true =>
      simp only [if_true]
      split
      · rw [Except.ok.injEq]
        omega
      · constructor
        · intro h
          cases h
        · omega
  | false =>
      simp only [Bool.false_eq_true, if_false]
      split
      · rw [Except.ok.injEq]
        omega
      · constructor
        · intro h
          cases h
        · omega

theorem readInt_eq_ok_iff (hbase : base ≤ 16) {t : Text} {v : Int} :
    readInt base literalBits t = .ok v ↔ WritesSigned base t v ∧ FitsLiteral v := by
  have hread : readInt base literalBits t = .ok v ↔
      ∃ n, readNat base literalBits (splitSign t).2 = .ok n ∧
        signed literalBits (splitSign t).1 n = .ok v := by
    have hbind : readInt base literalBits t =
        readNat base literalBits (splitSign t).2 >>= signed literalBits (splitSign t).1 := rfl
    rw [hbind]
    cases readNat base literalBits (splitSign t).2 with
    | error fault => simp [bind, Except.bind]
    | ok n => simp [bind, Except.bind]
  rw [hread, writesSigned_iff hbase]
  constructor
  · rintro ⟨n, hnat, hsigned⟩
    obtain ⟨hwrites, -⟩ := (readNat_eq_ok_iff hbase).mp hnat
    obtain ⟨hv, hfits⟩ := signed_eq_ok_iff.mp hsigned
    exact ⟨⟨n, hwrites, hv⟩, hfits⟩
  · rintro ⟨⟨n, hwrites, hv⟩, hfits⟩
    -- A number whose signed value fits has a magnitude of 32 bits.
    have hmagnitude : n ≤ Nat.pow 2 literalBits - 1 := by
      have hall : Nat.pow 2 literalBits - 1 = 4294967295 := rfl
      rw [hall]
      obtain ⟨hleast, hgreatest⟩ := hfits
      split at hv <;> omega
    exact ⟨n, (readNat_eq_ok_iff hbase).mpr ⟨hwrites, hmagnitude⟩, signed_eq_ok_iff.mpr ⟨hv, hfits⟩⟩

theorem readLiteral_eq_ok_iff (hbase : base ≤ 16) {t : Text} {v : Int} :
    readLiteral base t = .ok v ↔ WritesSigned base t v ∧ FitsLiteral v := by
  rw [← readInt_eq_ok_iff hbase, readLiteral]
  cases readInt base literalBits t <;> simp

/-! ## Decimal literals -/

theorem exists_isDigit_ten_iff {b : UInt8} : (∃ d, IsDigit 10 b d) ↔ isDecimalDigit b = true := by
  simp only [isDigit_iff (by decide : 10 ≤ 16), digitValue?, isDecimalDigit, Bool.and_eq_true,
    decide_eq_true_eq, UInt8.le_iff_toNat_le, UInt8.reduceToNat]
  constructor
  · rintro ⟨d, hvalue, hlt⟩
    split at hvalue
    · assumption
    · -- The value of a letter is ten or more.
      split at hvalue
      · cases hvalue
        omega
      · split at hvalue
        · cases hvalue
          omega
        · cases hvalue
  · rintro hrange
    exact ⟨b.toNat - 0x30, by rw [if_pos hrange], by omega⟩

theorem exists_writes_iff {t : Text} :
    (∃ n, Writes base t n) ↔ t ≠ [] ∧ ∀ b ∈ t, ∃ d, IsDigit base b d := by
  have hdigits : (∃ ds, List.Forall₂ (IsDigit base) t ds) ↔ ∀ b ∈ t, ∃ d, IsDigit base b d := by
    induction t with
    | nil => exact iff_of_true ⟨[], .nil⟩ (List.forall_mem_nil _)
    | cons b rest ih =>
        rw [List.forall_mem_cons, ← ih]
        constructor
        · rintro ⟨ds, hds⟩
          cases hds with
          | cons hfirst hds => exact ⟨⟨_, hfirst⟩, _, hds⟩
        · rintro ⟨⟨d, hfirst⟩, ds, hds⟩
          exact ⟨d :: ds, .cons hfirst hds⟩
  rw [← hdigits]
  constructor
  · rintro ⟨n, hne, ds, hds, -⟩
    exact ⟨hne, ds, hds⟩
  · rintro ⟨hne, ds, hds⟩
    exact ⟨_, hne, ds, hds, rfl⟩

theorem isDecimal_iff {t : Text} : isDecimal t = true ↔ ∃ v, DecimalLiteral t v := by
  have hbody {body : Text} : (!body.isEmpty && body.all isDecimalDigit) = true ↔
      ∃ n, Writes 10 body n := by
    simp [exists_writes_iff, exists_isDigit_ten_iff]
  simp only [isDecimal, hbody]
  constructor
  · rintro ⟨n, h⟩
    split at h
    · next hhead =>
        obtain ⟨rest, rfl⟩ : ∃ rest, t = Text.minus :: rest := by
          cases t with
          | nil => cases hhead
          | cons b rest => exact ⟨rest, by rw [Option.some.inj hhead]⟩
        exact ⟨_, .minus h⟩
    · exact ⟨_, .bare h⟩
  · rintro ⟨v, h⟩
    cases h with
    | @bare _ n h =>
        have hhead : t.head? ≠ some Text.minus := by
          obtain ⟨b, rest, rfl⟩ := List.exists_cons_of_ne_nil h.ne_nil
          simpa using (h.head_ne_sign (by decide)).2
        exact ⟨n, by rwa [if_neg hhead]⟩
    | @minus _ n h => exact ⟨n, h⟩

theorem decimalLiteral_iff {t : Text} {v : Int} :
    DecimalLiteral t v ↔ isDecimal t = true ∧ WritesSigned 10 t v := by
  constructor
  · intro h
    refine ⟨isDecimal_iff.mpr ⟨v, h⟩, ?_⟩
    cases h with
    | bare h => exact .bare h
    | minus h => exact .minus h
  · rintro ⟨hdecimal, h⟩
    cases h with
    | bare h => exact .bare h
    | minus h => exact .minus h
    | plus h => simp [isDecimal, isDecimalDigit, Text.plus, Text.minus] at hdecimal

theorem readDecimal_eq_ok_iff {t : Text} {v : Int} :
    readDecimal t = .ok v ↔ DecimalLiteral t v ∧ FitsLiteral v := by
  rw [decimalLiteral_iff, and_assoc, ← readLiteral_eq_ok_iff (by decide), readDecimal]
  split
  · next hdecimal => simp [hdecimal]
  · next hdecimal => simp [hdecimal]

/-! ## Literals of every base -/

theorem hasHexMark_iff {t : Text} :
    hasHexMark t = true ↔ ∃ letter ∈ Text.ascii "xX", ∃ rest, t = zeroByte :: letter :: rest := by
  have hmarks : Text.ascii "xX" = [0x78, 0x58] := rfl
  simp only [hmarks, List.mem_cons, List.not_mem_nil, or_false]
  unfold hasHexMark
  split
  · next letter rest =>
      rw [Bool.or_eq_true, beq_iff_eq, beq_iff_eq]
      constructor
      · intro hletter
        exact ⟨letter, hletter, rest, rfl⟩
      · rintro ⟨_, hletter, _, heq⟩
        cases heq
        exact hletter
  · next hother =>
      constructor
      · intro h
        cases h
      · rintro ⟨letter, -, rest, rfl⟩
        exact absurd rfl (hother letter rest)

theorem hasZero_iff {t : Text} : hasZero t = true ↔ t.head? = some zeroByte := by
  cases t <;> simp [hasZero]

/-- A letter after the zero keeps a literal from being decimal. -/
theorem isDecimal_marked {letter : UInt8} (hmark : letter ∈ Text.ascii "xX" ++ Text.ascii "oO")
    (rest : Text) : isDecimal (zeroByte :: letter :: rest) = false := by
  have hletter : isDecimalDigit letter = false := by
    have hall : (Text.ascii "xX" ++ Text.ascii "oO").all (!isDecimalDigit ·) = true := by decide
    simpa using List.all_eq_true.mp hall letter hmark
  simp [isDecimal, hletter, zeroByte, Text.minus]

theorem Writes.hasSign_eq_false (hbase : base ≤ 16) {t : Text} {n : Nat} (h : Writes base t n) :
    hasSign t = false := by
  obtain ⟨-, hdigits⟩ := exists_writes_iff.mp ⟨n, h⟩
  rw [hasSign, List.any_eq_false]
  intro b hb
  obtain ⟨d, hd⟩ := hdigits b hb
  have hone : Writes base [b] (Nat.ofDigits base [d]) :=
    ⟨List.cons_ne_nil b [], [d], .cons hd .nil, rfl⟩
  simpa using hone.head_ne_sign hbase

theorem writesSigned_of_hasSign_eq_false {t : Text} {v : Int} (hsign : hasSign t = false) :
    WritesSigned base t v ↔ ∃ n : Nat, Writes base t n ∧ v = n := by
  constructor
  · intro h
    cases h with
    | @bare _ n h => exact ⟨n, h, rfl⟩
    | plus h => simp [hasSign] at hsign
    | minus h => simp [hasSign] at hsign
  · rintro ⟨n, h, rfl⟩
    exact .bare h

theorem readOctal_eq_ok_iff {t : Text} {v : Int} :
    readOctal t = .ok v ↔
      hasZero t = true ∧ (∃ n : Nat, Writes 8 (afterOctalMark t) n ∧ v = n) ∧ FitsLiteral v := by
  simp only [readOctal]
  split
  · next hrefused =>
      constructor
      · intro h
        cases h
      · rintro ⟨hzero, ⟨n, hwrites, -⟩, -⟩
        have hne := hwrites.ne_nil
        simp [hzero, hne, hwrites.hasSign_eq_false (by decide)] at hrefused
  · next haccepted =>
      simp only [Bool.or_eq_true, not_or, Bool.not_eq_true, Bool.not_eq_false'] at haccepted
      obtain ⟨⟨hzero, -⟩, hsign⟩ := haccepted
      rw [readLiteral_eq_ok_iff (by decide), writesSigned_of_hasSign_eq_false hsign]
      simp only [hzero, true_and]

/-- What follows a zero without a letter `o` are digits only if the whole text is decimal. -/
theorem isDecimal_of_writes_octal {rest : Text} {n : Nat} (h : Writes 8 rest n) :
    isDecimal (zeroByte :: rest) = true := by
  obtain ⟨-, hdigits⟩ := exists_writes_iff.mp ⟨n, h⟩
  have hwrites : ∃ n, Writes 10 (zeroByte :: rest) n := by
    refine exists_writes_iff.mpr ⟨List.cons_ne_nil _ _, List.forall_mem_cons.mpr ⟨?_, ?_⟩⟩
    · exact exists_isDigit_ten_iff.mpr (by decide)
    · intro b hb
      obtain ⟨d, hlt, hd⟩ := hdigits b hb
      exact ⟨d, by omega, hd⟩
  obtain ⟨m, hm⟩ := hwrites
  exact isDecimal_iff.mpr ⟨m, .bare hm⟩

theorem afterOctalMark_cases (b : UInt8) (rest : Text) :
    (∃ letter ∈ Text.ascii "oO", ∃ body, rest = letter :: body ∧
      afterOctalMark (b :: rest) = body) ∨ afterOctalMark (b :: rest) = rest := by
  unfold afterOctalMark
  split
  · next body heq =>
      cases heq
      exact .inl ⟨0x6F, by decide, body, rfl, rfl⟩
  · next body heq =>
      cases heq
      exact .inl ⟨0x4F, by decide, body, rfl, rfl⟩
  · next heq =>
      cases heq
      exact .inr rfl
  · next heq => cases heq

theorem afterOctalMark_marked {letter : UInt8} (hmark : letter ∈ Text.ascii "oO") (b : UInt8)
    (body : Text) : afterOctalMark (b :: letter :: body) = body := by
  have hmarks : Text.ascii "oO" = [0x6F, 0x4F] := rfl
  simp only [hmarks, List.mem_cons, List.not_mem_nil, or_false] at hmark
  rcases hmark with rfl | rfl <;> rfl

theorem literal_iff_of_isDecimal {t : Text} {v : Int} (hdecimal : isDecimal t = true) :
    Literal t v ↔ DecimalLiteral t v := by
  constructor
  · intro h
    cases h with
    | decimal h => exact h
    | hex hmark h =>
        rw [isDecimal_marked (List.mem_append_left _ hmark)] at hdecimal
        cases hdecimal
    | octal hmark h =>
        rw [isDecimal_marked (List.mem_append_right _ hmark)] at hdecimal
        cases hdecimal
  · exact .decimal

theorem literal_iff_of_hexMark {letter : UInt8} (hmark : letter ∈ Text.ascii "xX") {rest : Text}
    {v : Int} : Literal (zeroByte :: letter :: rest) v ↔ WritesSigned 16 rest v := by
  constructor
  · generalize ht : zeroByte :: letter :: rest = t
    intro h
    cases h with
    | decimal h =>
        have hdecimal := isDecimal_iff.mpr ⟨v, h⟩
        rw [← ht, isDecimal_marked (List.mem_append_left _ hmark)] at hdecimal
        cases hdecimal
    | hex _ h =>
        cases ht
        exact h
    | octal hmark' h =>
        cases ht
        have hdisjoint : (Text.ascii "xX").all (! (Text.ascii "oO").contains ·) = true := by decide
        have hnot := List.all_eq_true.mp hdisjoint letter hmark
        simp [hmark'] at hnot
  · exact .hex hmark

/-- A literal that is not decimal and has no hexadecimal mark is octal. -/
theorem literal_iff_of_unmarked {t : Text} {v : Int} (hdecimal : isDecimal t = false)
    (hhex : hasHexMark t = false) :
    Literal t v ↔ ∃ letter ∈ Text.ascii "oO", ∃ rest, ∃ n : Nat,
      t = zeroByte :: letter :: rest ∧ Writes 8 rest n ∧ v = n := by
  constructor
  · intro h
    cases h with
    | decimal h =>
        rw [isDecimal_iff.mpr ⟨v, h⟩] at hdecimal
        cases hdecimal
    | hex hmark h =>
        rw [hasHexMark_iff.mpr ⟨_, hmark, _, rfl⟩] at hhex
        cases hhex
    | octal hmark h => exact ⟨_, hmark, _, _, rfl, h, rfl⟩
  · rintro ⟨letter, hmark, rest, n, rfl, h, rfl⟩
    exact .octal hmark h

/-- The readers accept the literals whose values have 32 bits, and give them these values. -/
theorem readNumber_eq_ok_iff {t : Text} {v : Int} :
    readNumber t = .ok v ↔ Literal t v ∧ FitsLiteral v := by
  by_cases hdecimal : isDecimal t = true
  · rw [readNumber, if_pos hdecimal, readDecimal_eq_ok_iff, literal_iff_of_isDecimal hdecimal]
  by_cases hhex : hasHexMark t = true
  · rw [readNumber, if_neg hdecimal, if_pos hhex, readHex, if_pos hhex]
    obtain ⟨letter, hmark, rest, rfl⟩ := hasHexMark_iff.mp hhex
    rw [literal_iff_of_hexMark hmark]
    exact readLiteral_eq_ok_iff (by decide)
  rw [Bool.not_eq_true] at hdecimal hhex
  rw [literal_iff_of_unmarked hdecimal hhex]
  have hother : readNumber t = .ok v ↔ readOctal t = .ok v := by
    cases hzero : hasZero t with
    | true => simp [readNumber, hdecimal, hhex, hzero]
    | false => simp [readNumber, readOctal, hdecimal, hhex, hzero]
  rw [hother, readOctal_eq_ok_iff, hasZero_iff]
  constructor
  · rintro ⟨hzero, ⟨n, hwrites, rfl⟩, hfits⟩
    obtain ⟨rest, rfl⟩ : ∃ rest, t = zeroByte :: rest := List.head?_eq_some_iff.mp hzero
    rcases afterOctalMark_cases zeroByte rest with ⟨letter, hmark, body, rfl, hbody⟩ | hbody
    · rw [hbody] at hwrites
      exact ⟨⟨letter, hmark, body, n, rfl, hwrites, rfl⟩, hfits⟩
    · rw [hbody] at hwrites
      rw [isDecimal_of_writes_octal hwrites] at hdecimal
      cases hdecimal
  · rintro ⟨⟨letter, hmark, rest, n, rfl, hwrites, rfl⟩, hfits⟩
    exact ⟨rfl, ⟨n, by rwa [afterOctalMark_marked hmark], rfl⟩, hfits⟩

/-- Only a text that has neither the form of a decimal literal nor a zero at its head is taken for
something else than a number. -/
theorem readNumber_eq_notNumeric_iff {t : Text} :
    readNumber t = .error .notNumeric ↔
      (∀ v, ¬ DecimalLiteral t v) ∧ t.head? ≠ some zeroByte := by
  have hliteral (base : Nat) (body : Text) : readLiteral base body ≠ .error .notNumeric := by
    unfold readLiteral
    split <;> simp
  have hform : (∀ v, ¬ DecimalLiteral t v) ↔ isDecimal t = false := by
    rw [← Bool.not_eq_true, isDecimal_iff, not_exists]
  rw [hform, ne_eq, ← hasZero_iff, Bool.not_eq_true]
  unfold readNumber
  split
  · next hdecimal => simp [readDecimal, hdecimal, hliteral]
  · next hdecimal =>
      split
      · next hhex =>
          obtain ⟨letter, -, rest, rfl⟩ := hasHexMark_iff.mp hhex
          simp [readHex, hhex, hliteral, hasZero]
      · split
        · next hzero =>
            simp only [readOctal, hzero, Bool.true_eq_false, and_false, iff_false]
            split <;> simp [hliteral]
        · next hzero =>
            simp [Bool.eq_false_of_not_eq_true hdecimal, Bool.eq_false_of_not_eq_true hzero]

end WordMachine.Numeral
