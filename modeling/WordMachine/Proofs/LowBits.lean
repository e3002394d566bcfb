import Mathlib.Algebra.Group.Int.Defs
import WordMachine.Proofs.Word

/-!
# Low bits as digits

The low bits of an integer are its remainder modulo a power of two, whatever its sign. Up to sixteen
of them make a word, which can be read back from its binary and from its octal digits. More than
sixteen binary digits are never read as a word, even if the first of them are zeros.
-/

namespace WordMachine

theorem Numeral.length_padLeft_digits {base width n : Nat} (hbase : 0 < base)
    (h : n < base ^ width) :
    (Text.padLeft width zeroByte (digits base n)).length = max width 1 := by
  rw [Text.padLeft, List.length_append, List.length_replicate]
  rcases Nat.eq_zero_or_pos width with rfl | hwidth
  · have hzero : n = 0 := by
      rw [Nat.pow_zero] at h
      omega
    rw [hzero, digits, digitsWithin, if_pos hbase]
    rfl
  · have hlength : (digits base n).length ≤ width := length_digits_le hwidth h
    omega

/-! ## The remainder -/

theorem lowBits_eq_emod (value : Int) {count : Nat} (h : count < 64) :
    lowBits value count = value % 2 ^ count := by
  rw [lowBits, if_pos h, Nat.pow_eq]
  push_cast
  rfl

/-- Low bits are a number without sign, which is less than the power of two. -/
theorem exists_lowBits_eq (value : Int) {count : Nat} (h : count < 64) :
    ∃ n : Nat, n < 2 ^ count ∧ lowBits value count = n := by
  have hpos : (0 : Int) < 2 ^ count := Int.pow_pos (by decide)
  have hnonneg : 0 ≤ lowBits value count := by
    rw [lowBits_eq_emod value h]
    exact Int.emod_nonneg value (Int.ne_of_gt hpos)
  have hlt : lowBits value count < 2 ^ count := by
    rw [lowBits_eq_emod value h]
    exact Int.emod_lt_of_pos value hpos
  refine ⟨(lowBits value count).toNat, ?_, (Int.toNat_of_nonneg hnonneg).symm⟩
  rw [Int.toNat_lt hnonneg]
  push_cast
  exact hlt

/-- The bits of a mask: the lowest `count` of sixty-four. -/
def lowMask (count : Nat) : BitVec 64 := 1#64 <<< count - 1#64

theorem toNat_lowMask {count : Nat} (h : count < 64) : (lowMask count).toNat = 2 ^ count - 1 := by
  have hpos : 0 < 2 ^ count := Nat.two_pow_pos count
  have hle : 2 ^ count < 2 ^ 64 := Nat.pow_lt_pow_right (by decide) h
  rw [lowMask, BitVec.toNat_sub, BitVec.toNat_shiftLeft, BitVec.toNat_ofNat, Nat.shiftLeft_eq]
  omega

/-- Masking an integer of sixty-four bits in two's complement leaves its low bits. -/
theorem toNat_and_lowMask (value : Int) {count : Nat} (h : count < 64) :
    ((BitVec.ofInt 64 value &&& lowMask count).toNat : Int) = lowBits value count := by
  have hdvd : ((2 ^ count : Nat) : Int) ∣ ((2 ^ 64 : Nat) : Int) :=
    Int.natCast_dvd_natCast.mpr (Nat.pow_dvd_pow 2 (Nat.le_of_lt h))
  have hnonneg : 0 ≤ value % ((2 ^ 64 : Nat) : Int) := by omega
  rw [BitVec.toNat_and, toNat_lowMask h, Nat.and_two_pow_sub_one_eq_mod, BitVec.toNat_ofInt,
    Int.natCast_emod, Int.toNat_of_nonneg hnonneg, lowBits, if_pos h]
  exact Int.emod_emod_of_dvd value hdvd

/-! ## Binary digits -/

theorem binary_eq {value : Int} {count n : Nat} (h : count < 64) (hn : lowBits value count = n) :
    binary value count = Text.padLeft count Numeral.zeroByte (Numeral.digits 2 n) := by
  have hwidth : count ≤ widestField := by
    rw [widestField]
    omega
  rw [binary, if_pos hwidth, hn, Numeral.padded, if_neg (by omega)]
  rfl

theorem length_binary (value : Int) {count : Nat} (h : count < 64) :
    (binary value count).length = max count 1 := by
  obtain ⟨n, hlt, hn⟩ := exists_lowBits_eq value h
  rw [binary_eq h hn]
  exact Numeral.length_padLeft_digits (by decide) hlt

theorem binary_ne_nil (value : Int) {count : Nat} (h : count < 64) : binary value count ≠ [] := by
  have hlength := length_binary value h
  apply List.ne_nil_of_length_pos
  omega

/-- Up to sixteen low bits are a word. -/
theorem toInt_lowWord (value : Int) {count : Nat} (h : count ≤ 16) :
    (lowWord value count).toInt = lowBits value count := by
  obtain ⟨n, hlt, hn⟩ := exists_lowBits_eq value (by omega : count < 64)
  have hle : 2 ^ count ≤ 2 ^ 16 := Nat.pow_le_pow_right (by decide) h
  rw [lowWord, hn]
  apply Word.toInt_ofInt
  · omega
  · omega

/-- Up to sixteen low bits are read back from their binary digits. -/
theorem readBinary_binary (value : Int) {count : Nat} (h : count ≤ 16) :
    Word.readBinary (binary value count) = .ok (lowWord value count) := by
  have hcount : count < 64 := by omega
  obtain ⟨n, hlt, hn⟩ := exists_lowBits_eq value hcount
  have hle : 2 ^ count ≤ 2 ^ 16 := Nat.pow_le_pow_right (by decide) h
  have hshort : ¬ Word.bits < (binary value count).length := by
    rw [length_binary value hcount, Word.bits]
    omega
  have hread : Numeral.readNat 2 Word.bits (binary value count) = .ok n := by
    rw [Numeral.readNat, if_neg (by simpa using binary_ne_nil value hcount), binary_eq hcount hn]
    have hfits : n ≤ Nat.pow 2 Word.bits - 1 := by
      rw [Word.bits, Nat.pow_eq]
      omega
    exact Numeral.readDigits_padLeft_digits (by decide) (by decide) count hfits
  have hword : lowWord value count = UInt16.ofNat n := by
    rw [lowWord, hn, Word.ofInt]
    congr 1
    omega
  rw [Word.readBinary, if_neg (by simpa [binary_ne_nil value hcount] using hshort), hread, hword]

theorem readBinary_binary_of_lt (value : Int) {count : Nat} (h : 16 < count) (h' : count < 64) :
    Word.readBinary (binary value count) = .error .notBinary := by
  have hlong : Word.bits < (binary value count).length := by
    rw [length_binary value h', Word.bits]
    omega
  rw [Word.readBinary, if_pos (by simp [hlong])]

theorem binaryToOctal_binary (value : Int) {count : Nat} (h : count ≤ 16) :
    Word.binaryToOctal (binary value count) = .ok (lowWord value count).octal := by
  rw [Word.binaryToOctal, readBinary_binary value h]
  rfl

/-- The renderings of the low bits of an integer agree: binary digits, octal digits, the remainder
and the masked bits all stand for the same word, as long as there are at most sixteen of them. -/
theorem renderings_of_low_bits_agree (value : Int) (count : Nat) :
    (count ≤ 16 →
      Word.readBinary (binary value count) = .ok (lowWord value count) ∧
      (lowWord value count).toInt = value % 2 ^ count ∧
      (lowWord value count).toNat = (BitVec.ofInt 64 value &&& lowMask count).toNat ∧
      (binary value count).length = max count 1 ∧
      Word.binaryToOctal (binary value count) = .ok (lowWord value count).octal ∧
      Word.readOctal (lowWord value count).octal = .ok (lowWord value count)) ∧
    (17 ≤ count → count ≤ 63 →
      Word.readBinary (binary value count) = .error .notBinary) := by
  constructor
  · intro h
    have hcount : count < 64 := by omega
    have hword := toInt_lowWord value h
    have hmask : (lowWord value count).toNat =
        (BitVec.ofInt 64 value &&& lowMask count).toNat := by
      have hbits := toNat_and_lowMask value hcount
      rw [← hword, Word.toInt] at hbits
      exact (Int.ofNat.inj hbits).symm
    rw [lowBits_eq_emod value hcount] at hword
    exact ⟨readBinary_binary value h, hword, hmask, length_binary value hcount,
      binaryToOctal_binary value h, Word.readOctal_octal _⟩
  · intro h h'
    exact readBinary_binary_of_lt value (by omega) (by omega)

/-- Sixteen low bits of a negative number are a word; none of them is written as one zero, and
seventeen are too many to be read. -/
theorem minusTwo_renderings :
    Word.readBinary (binary (-2) 16) = .ok 0xFFFE ∧
    Word.binaryToOctal (binary (-2) 16) = .ok (Text.ascii "177776") ∧
    Word.readBinary (binary (-2) 0) = .ok 0 ∧ (binary (-2) 0).length = 1 ∧
    Word.readBinary (binary (-2) 17) = .error .notBinary := by
  obtain ⟨hsixteen, -⟩ := renderings_of_low_bits_agree (-2) 16
  obtain ⟨hnone, -⟩ := renderings_of_low_bits_agree (-2) 0
  obtain ⟨-, hmore⟩ := renderings_of_low_bits_agree (-2) 17
  obtain ⟨hbinary, -, -, -, hoctal, -⟩ := hsixteen (by decide)
  obtain ⟨hzero, -, -, hlength, -⟩ := hnone (by decide)
  have hword : lowWord (-2) 16 = 0xFFFE := by decide
  have hdigits : Word.octal 0xFFFE = Text.ascii "177776" := by decide +kernel
  rw [hword] at hbinary hoctal
  rw [hdigits] at hoctal
  exact ⟨hbinary, hoctal, hzero, hlength, hmore (by decide) (by decide)⟩

end WordMachine
