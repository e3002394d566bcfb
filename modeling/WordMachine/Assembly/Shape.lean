import WordMachine.Assembly.Mnemonic
import WordMachine.Assembly.Operand

/-!
# Shapes of instructions

The *shape* of an instruction is everything but the value of its address: the operation, the
registers, and the operand that is to be resolved. What the assembler tells of resolving an operand
is told once the instruction has a shape.
-/

namespace WordMachine

/-- An instruction whose address operand has not been resolved. -/
structure Shape where
  operation : Operation
  register : Nat
  index : Nat
  indirect : Bool
  /-- The address operand, which only a stop lacks. -/
  target : Option Text
  deriving DecidableEq, Repr

namespace Shape

/-- The cause for a number of operands outside the bounds of a mnemonic. -/
def wrongCount (keyword : Text) (least most : Nat) (operands : List Text) : Cause :=
  if operands.length < least then .missingOperand keyword least operands.length
  else .extraOperand keyword most operands.length

/-- The number of a general register. -/
def general (token : Text) : Except Cause Nat := Operand.register .register 0 3 token

/-- The number of an index register that modifies an address; zero stands for none. -/
def modifier (token : Text) : Except Cause Nat := Operand.register .index 0 3 token

/-- The number of an index register that is loaded or stored. -/
def indexTarget (token : Text) : Except Cause Nat := Operand.register .index 1 3 token

/-- A shape with register, index register and address. -/
def full (op : Operation) (r x target : Text) (indirect : Bool) : Except Cause Shape := do
  let register ← general r
  let index ← modifier x
  .ok { operation := op, register, index, indirect, target := some target }

/-- A shape with register and address, whose index field is clear. -/
def unindexed (op : Operation) (r target : Text) : Except Cause Shape := do
  let register ← general r
  .ok { operation := op, register, index := 0, indirect := false, target := some target }

/-- A shape with the index register that it loads or stores, and an address. -/
def indexing (op : Operation) (x target : Text) (indirect : Bool) : Except Cause Shape := do
  let index ← indexTarget x
  .ok { operation := op, register := 0, index, indirect, target := some target }

/-- The shape of an operation with its operands. -/
def ofOperands (op : Operation) (operands : List Text) : Except Cause Shape :=
  match op with
  | .hlt =>
    match operands with
    | [] => .ok { operation := op, register := 0, index := 0, indirect := false, target := none }
    | _ => .error (wrongCount op.keyword 0 0 operands)
  | .str =>
    match operands with
    | [r, target] => unindexed op r target
    | [r, x, target] => full op r x target false
    | [r, x, target, _] => full op r x target true
    | _ => .error (wrongCount op.keyword 2 4 operands)
  | .ldr | .lda | .jz =>
    match operands with
    | [r, x, target] => full op r x target false
    | [r, x, target, _] => full op r x target true
    | _ => .error (wrongCount op.keyword 3 4 operands)
  | .ldx | .stx =>
    match operands with
    | [x, target] => indexing op x target false
    | [x, target, _] => indexing op x target true
    | _ => .error (wrongCount op.keyword 2 3 operands)

/-- The shape of a keyword with its operands. -/
def parse (keyword : Text) (operands : List Text) : Except Cause Shape :=
  match Operation.ofKeyword? keyword with
  | none => .error (.unknownMnemonic keyword)
  | some op => ofOperands op operands

/-- The word of a shape, once its address operand has been resolved. -/
def toWord (labels : Labels) (shape : Shape) : Except Cause Word :=
  match shape.target with
  | none => .ok shape.operation.code
  | some token => do
    let address ← Operand.address labels token
    .ok (pack shape.operation.code (UInt16.ofNat shape.register) (UInt16.ofNat shape.index)
      shape.indirect (UInt16.ofNat address))

end Shape

end WordMachine
