import WordMachine.Instruction

/-!
# Mnemonics

The assembler has its own tables of the words that name operations in a source and of the opcodes
that it places for them, and puts the fields of an instruction together into a word.
-/

namespace WordMachine

namespace Operation

/-- The word that names an operation in a source. -/
def keyword : Operation → Text
  | ldr => Text.ascii "LDR"
  | str => Text.ascii "STR"
  | lda => Text.ascii "LDA"
  | ldx => Text.ascii "LDX"
  | stx => Text.ascii "STX"
  | jz => Text.ascii "JZ"
  | hlt => Text.ascii "HLT"

/-- The operation that a word of a source names. -/
def ofKeyword? (word : Text) : Option Operation := all.find? fun op => op.keyword == word

/-- The opcode that the assembler places for an operation. -/
def code : Operation → Word
  | hlt => 0b000000
  | ldr => 0b000001
  | str => 0b000010
  | lda => 0b000011
  | jz => 0b001000
  | stx => 0b010010
  | ldx => 0b100001

end Operation

/-- The word with the given fields. They are shifted in one after the other, and of a register, an
index register and an address only the bits of its field are taken. -/
def pack (opcode register index : Word) (indirect : Bool) (address : Word) : Word :=
  let scratch := opcode
  let scratch := (scratch <<< 2) ||| (register &&& 0x3)
  let scratch := (scratch <<< 2) ||| (index &&& 0x3)
  let scratch := scratch <<< 1
  let scratch := if indirect then scratch ||| 0x1 else scratch
  (scratch <<< 5) ||| (address &&& 0x1F)

end WordMachine
