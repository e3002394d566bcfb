import Mathlib.Data.Nat.Bitwise
import WordMachine.Assembly.Mnemonic

/-!
# Instruction words and their fields

The tables of the assembler and of the machine agree on every operation. The fields of an
instruction are shifted into its word and out of it again, which are sums of multiples and
remainders of quotients. They can be read back from the word as long as each of them fits in its
bits.
-/

namespace WordMachine

namespace Operation

/-! ## The two tables -/

/-- The assembler places the opcodes that the machine carries out. -/
theorem toNat_code (op : Operation) : op.code.toNat = op.opcode := by
  cases op <;> rfl

theorem ofNat_opcode (op : Operation) : UInt16.ofNat op.opcode = op.code := by
  rw [← op.toNat_code, UInt16.ofNat_toNat]

/-- The assembler reads the names that a disassembly gives. -/
theorem keyword_eq_mnemonic (op : Operation) : op.keyword = op.mnemonic := by
  cases op <;> rfl

theorem ofOpcode?_opcode (op : Operation) : ofOpcode? op.opcode = some op := by
  cases op <;> rfl

theorem ofKeyword?_keyword (op : Operation) : ofKeyword? op.keyword = some op := by
  cases op <;> rfl

theorem eq_keyword_of_ofKeyword? {word : Text} {op : Operation}
    (h : ofKeyword? word = some op) : word = op.keyword := by
  have hfound := List.find?_some h
  exact (eq_of_beq hfound).symm

theorem opcode_lt (op : Operation) : op.opcode < 64 := by
  cases op <;> decide

end Operation

/-! ## Shifts and masks -/

section Bits

variable {mask shift low : Word} {k : Nat}

theorem toNat_and_mask (hmask : mask.toNat = 2 ^ k - 1) (w : Word) :
    (w &&& mask).toNat = w.toNat % 2 ^ k := by
  rw [UInt16.toNat_and, hmask, Nat.and_two_pow_sub_one_eq_mod]

theorem toNat_shiftRight (hk : k < 16) (hshift : shift.toNat = k) (w : Word) :
    (w >>> shift).toNat = w.toNat / 2 ^ k := by
  rw [UInt16.toNat_shiftRight, hshift, Nat.mod_eq_of_lt hk, Nat.shiftRight_eq_div_pow]

/-- A shift makes room for a field of as many bits, and cuts off as many at the other end. -/
theorem toNat_shiftLeft_or (hk : k < 16) (hshift : shift.toNat = k) (hlow : low.toNat < 2 ^ k)
    (w : Word) :
    (w <<< shift ||| low).toNat = w.toNat % 2 ^ (16 - k) * 2 ^ k + low.toNat := by
  have hpow : 2 ^ 16 = 2 ^ (16 - k) * 2 ^ k := (Nat.pow_sub_mul_pow 2 (Nat.le_of_lt hk)).symm
  rw [UInt16.toNat_or, UInt16.toNat_shiftLeft, hshift, Nat.mod_eq_of_lt hk, Nat.shiftLeft_eq, hpow,
    Nat.mul_mod_mul_right, ← Nat.shiftLeft_eq, ← Nat.shiftLeft_add_eq_or_of_lt hlow]

/-- The bit of a flag is shifted in like a field. -/
theorem toNat_shiftLeft_flag (flag : Bool) (w : Word) :
    (if flag then w <<< 1 ||| 0x1 else w <<< 1).toNat =
      w.toNat % 32768 * 2 + if flag then 1 else 0 := by
  cases flag with
  | true => exact toNat_shiftLeft_or (k := 1) (by decide) rfl (by decide) w
  | false =>
      have hzero : w <<< 1 ||| (0 : Word) = w <<< 1 := UInt16.or_zero
      rw [if_neg Bool.false_ne_true, if_neg Bool.false_ne_true, ← hzero]
      exact toNat_shiftLeft_or (k := 1) (by decide) rfl (by decide) w

end Bits

/-- The word that is packed is the sum of its fields, each cut to its bits and moved to its
place. -/
theorem toNat_pack (opcode register index : Word) (indirect : Bool) (address : Word) :
    (pack opcode register index indirect address).toNat =
      opcode.toNat % 64 * 1024 + register.toNat % 4 * 256 + index.toNat % 4 * 64 +
        (if indirect then 32 else 0) + address.toNat % 32 := by
  have hregister : (register &&& 0x3).toNat = register.toNat % 4 :=
    toNat_and_mask (k := 2) rfl register
  have hindex : (index &&& 0x3).toNat = index.toNat % 4 := toNat_and_mask (k := 2) rfl index
  have haddress : (address &&& 0x1F).toNat = address.toNat % 32 :=
    toNat_and_mask (k := 5) rfl address
  simp only [pack]
  rw [toNat_shiftLeft_or (k := 5) (by decide) rfl (by rw [haddress]; omega), toNat_shiftLeft_flag,
    toNat_shiftLeft_or (k := 2) (by decide) rfl (by rw [hindex]; omega),
    toNat_shiftLeft_or (k := 2) (by decide) rfl (by rw [hregister]; omega),
    hregister, hindex, haddress]
  split <;> omega

namespace Fields

/-- The fields that are unpacked are remainders of quotients of the word. -/
theorem ofWord_eq (w : Word) :
    ofWord w =
      { opcode := w.toNat / 1024
        register := w.toNat / 256 % 4
        index := w.toNat / 64 % 4
        indirect := w.toNat / 32 % 2 == 1
        address := w.toNat % addressLimit } := by
  have hmask (shifted : Word) : (shifted &&& 0x3).toNat = shifted.toNat % 4 :=
    toNat_and_mask (k := 2) rfl shifted
  have hflag : ((w >>> 5 &&& 0x1) == 1) = (w.toNat / 32 % 2 == 1) := by
    have hbit : (w >>> 5 &&& 0x1).toNat = w.toNat / 32 % 2 := by
      rw [toNat_and_mask (k := 1) rfl, toNat_shiftRight (k := 5) (by decide) rfl]
      rfl
    rw [Bool.eq_iff_iff, beq_iff_eq, beq_iff_eq, ← UInt16.toNat_inj, hbit]
    rfl
  rw [ofWord, hmask, hmask, hflag, toNat_shiftRight (k := 10) (by decide) rfl,
    toNat_shiftRight (k := 8) (by decide) rfl, toNat_shiftRight (k := 6) (by decide) rfl,
    toNat_and_mask (k := 5) rfl]
  rfl

/-- The word with these fields. -/
def toWord (f : Fields) : Word :=
  pack (UInt16.ofNat f.opcode) (UInt16.ofNat f.register) (UInt16.ofNat f.index) f.indirect
    (UInt16.ofNat f.address)

/-- Each field fits in its bits. -/
structure Fits (f : Fields) : Prop where
  opcode : f.opcode < 64
  register : f.register < 4
  index : f.index < 4
  address : f.address < addressLimit

theorem Fits.toNat_toWord {f : Fields} (h : f.Fits) :
    f.toWord.toNat = f.opcode * 1024 + f.register * 256 + f.index * 64 +
      (if f.indirect then 32 else 0) + f.address := by
  obtain ⟨hopcode, hregister, hindex, haddress⟩ := h
  rw [addressLimit] at haddress
  have hsmall {n : Nat} (hn : n < 64) : (UInt16.ofNat n).toNat = n :=
    UInt16.toNat_ofNat_of_lt' (by rw [UInt16.size]; omega)
  rw [toWord, toNat_pack, hsmall hopcode, hsmall (by omega), hsmall (by omega), hsmall (by omega),
    Nat.mod_eq_of_lt hopcode, Nat.mod_eq_of_lt hregister, Nat.mod_eq_of_lt hindex,
    Nat.mod_eq_of_lt haddress]

/-- No field spills over into another. -/
theorem Fits.ofWord_toWord {f : Fields} (h : f.Fits) : ofWord f.toWord = f := by
  have hword := h.toNat_toWord
  obtain ⟨hopcode, hregister, hindex, haddress⟩ := h
  obtain ⟨opcode, register, index, indirect, address⟩ := f
  simp only [addressLimit] at hopcode hregister hindex haddress hword
  cases indirect with
  | false =>
      simp only [ofWord_eq, hword, addressLimit, Fields.mk.injEq, Bool.false_eq_true, if_false,
        beq_eq_false_iff_ne]
      omega
  | true =>
      simp only [ofWord_eq, hword, addressLimit, Fields.mk.injEq, if_true, beq_iff_eq]
      omega

end Fields

end WordMachine
