import WordMachine.Word

/-!
# Instructions

An instruction word has five fields, most significant first: an opcode of six bits, a register and
an index register of two bits each, one bit for indirect addressing, and an address of five bits.
Seven opcodes name operations.
-/

namespace WordMachine

/-- The operations of the machine. -/
inductive Operation where
  /-- Stop. -/
  | hlt
  /-- Load a register from memory. -/
  | ldr
  /-- Store a register to memory. -/
  | str
  /-- Load a register with an address. -/
  | lda
  /-- Jump if a register is zero. -/
  | jz
  /-- Store an index register to memory. -/
  | stx
  /-- Load an index register from memory. -/
  | ldx
  deriving DecidableEq, Repr

namespace Operation

/-- Every operation. -/
def all : List Operation := [hlt, ldr, str, lda, jz, stx, ldx]

/-- The opcode by which the machine knows an operation. -/
def opcode : Operation → Nat
  | hlt => 0b000000
  | ldr => 0b000001
  | str => 0b000010
  | lda => 0b000011
  | jz => 0b001000
  | stx => 0b010010
  | ldx => 0b100001

/-- The name that a disassembly gives to an operation. -/
def mnemonic : Operation → Text
  | hlt => Text.ascii "HLT"
  | ldr => Text.ascii "LDR"
  | str => Text.ascii "STR"
  | lda => Text.ascii "LDA"
  | jz => Text.ascii "JZ"
  | stx => Text.ascii "STX"
  | ldx => Text.ascii "LDX"

/-- The operation with an opcode. -/
def ofOpcode? (code : Nat) : Option Operation := all.find? fun op => op.opcode == code

/-- Whether the index field names the target of an operation instead of modifying its address. -/
def targetsIndex : Operation → Bool
  | stx => true
  | ldx => true
  | _ => false

end Operation

/-- The five fields of an instruction word, as numbers. -/
structure Fields where
  opcode : Nat
  register : Nat
  index : Nat
  indirect : Bool
  address : Nat
  deriving DecidableEq, Repr

namespace Fields

/-- The bits of the address field. -/
def addressBits : Nat := 5

/-- The number of addresses that fit in the address field. -/
def addressLimit : Nat := 32

/-- The fields of a word, each shifted down and cut to its bits. -/
def ofWord (w : Word) : Fields :=
  { opcode := (w >>> 10).toNat
    register := ((w >>> 8) &&& 0x3).toNat
    index := ((w >>> 6) &&& 0x3).toNat
    indirect := ((w >>> 5) &&& 0x1) == 1
    address := (w &&& 0x1F).toNat }

/-- The operands that the fields of an operation show. -/
def operands (op : Operation) (f : Fields) : Text :=
  let number := fun (n : Nat) => Numeral.decimal n
  let address := number f.address ++ if f.indirect then Text.ascii ",I" else []
  if op.targetsIndex then number f.index ++ [Text.comma] ++ address
  else number f.register ++ [Text.comma] ++ number f.index ++ [Text.comma] ++ address

/-- An instruction as source text; the opcode alone if it names no operation. -/
def render (f : Fields) : Text :=
  match Operation.ofOpcode? f.opcode with
  | none => Text.ascii "??? (" ++ binary f.opcode 6 ++ Text.ascii ")"
  | some .hlt => Operation.hlt.mnemonic
  | some op => op.mnemonic ++ [Text.space] ++ operands op f

end Fields

/-- The instruction that a word holds, as source text. -/
def Word.disassemble (w : Word) : Text := (Fields.ofWord w).render

end WordMachine
