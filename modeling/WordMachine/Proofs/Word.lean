import WordMachine.Proofs.Numeral.Digits
import WordMachine.Proofs.Text.Glyph
import WordMachine.Word

/-!
# Words as octal digits

A word is written as exactly six octal digits, which read as the same word again.
-/

namespace WordMachine

namespace Word

theorem toInt_ofInt {value : Int} (h : 0 ≤ value) (h' : value ≤ 65535) :
    (ofInt value).toInt = value := by
  rw [toInt, ofInt, UInt16.toNat_ofNat_of_lt' (by rw [UInt16.size]; omega)]
  omega

theorem ofInt_toInt (w : Word) : ofInt w.toInt = w := by
  have hlt : w.toNat < 65536 := w.toNat_lt
  have hvalue : (w.toInt % 65536).toNat = w.toNat := by
    rw [toInt]
    omega
  rw [ofInt, hvalue, UInt16.ofNat_toNat]

theorem toInt_nonneg (w : Word) : 0 ≤ w.toInt := Int.natCast_nonneg w.toNat

theorem octal_eq (w : Word) :
    w.octal = Text.padLeft 6 Numeral.zeroByte (Numeral.digits 8 w.toNat) := by
  have hnonneg := w.toInt_nonneg
  rw [octal, Numeral.padded, if_neg (by omega)]
  rfl

theorem length_octal (w : Word) : w.octal.length = 6 := by
  have hlt : w.toNat < 65536 := w.toNat_lt
  have hlength : (Numeral.digits 8 w.toNat).length ≤ 6 :=
    Numeral.length_digits_le (by decide) (by omega)
  rw [octal_eq, Text.padLeft, List.length_append, List.length_replicate]
  omega

theorem octal_ne_nil (w : Word) : w.octal ≠ [] := by
  intro h
  have hlength := w.length_octal
  rw [h] at hlength
  cases hlength

theorem isDecimalDigit_of_mem_octal {w : Word} {b : UInt8} (h : b ∈ w.octal) :
    Numeral.isDecimalDigit b := by
  rw [octal_eq, Text.padLeft, List.mem_append] at h
  rcases h with h | h
  · rw [List.eq_of_mem_replicate h]
    decide
  · exact Numeral.isDecimalDigit_of_mem_digits (by decide) (by decide) h

/-- The six digits of a word read as that word. -/
theorem readOctal_octal (w : Word) : readOctal w.octal = .ok w := by
  have hsign : Numeral.hasSign w.octal = false := by
    rw [Numeral.hasSign, List.any_eq_false]
    intro b hb
    obtain ⟨-, -, -, hplus, hminus⟩ :=
      Text.isPlain_of_isDecimalDigit (isDecimalDigit_of_mem_octal hb)
    simp [hplus, hminus]
  have hlt : w.toNat < 65536 := w.toNat_lt
  have hread : Numeral.readNat 8 bits w.octal = .ok w.toNat := by
    rw [Numeral.readNat, if_neg (by simp [octal_ne_nil]), octal_eq]
    have hfits : w.toNat ≤ Nat.pow 2 bits - 1 := by
      rw [bits, Nat.pow_eq]
      omega
    exact Numeral.readDigits_padLeft_digits (by decide) (by decide) 6 hfits
  simp only [readOctal, hsign, hread, List.isEmpty_eq_false_iff.mpr w.octal_ne_nil, Bool.or_self,
    Bool.false_eq_true, if_false, UInt16.ofNat_toNat]

/-- An octal number that is negative or too great is not read, however its digits are padded. -/
theorem readOctal_padded_of_outside {value : Int} (h : ¬ (0 ≤ value ∧ value ≤ 65535))
    (width : Nat) : ∃ e, readOctal (Numeral.padded 8 width value) = .error e := by
  rcases Int.lt_or_le value 0 with hneg | hnonneg
  · have hsign : Numeral.hasSign (Numeral.padded 8 width value) = true := by
      rw [Numeral.padded, if_pos hneg]
      rfl
    exact ⟨.notOctal, by rw [readOctal, hsign, Bool.or_true, if_pos rfl]⟩
  · have hgreat : Nat.pow 2 bits - 1 < value.natAbs := by
      rw [bits, Nat.pow_eq]
      omega
    have hpadded : Numeral.padded 8 width value =
        Text.padLeft width Numeral.zeroByte (Numeral.digits 8 value.natAbs) := by
      rw [Numeral.padded, if_neg (by omega)]
    have hread : Numeral.readNat 8 bits (Numeral.padded 8 width value) = .error .outOfRange := by
      rw [Numeral.readNat, if_neg (by simp [Numeral.padded_ne_nil]), hpadded]
      exact Numeral.readDigits_padLeft_digits_of_lt (by decide) (by decide) width hgreat
    unfold readOctal
    split
    · exact ⟨_, rfl⟩
    · rw [hread]
      exact ⟨_, rfl⟩

end Word

end WordMachine
