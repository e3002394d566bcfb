import WordMachine.Assembly.Diagnostic
import WordMachine.Assembly.Labels
import WordMachine.Instruction
import WordMachine.Text.Glyph

/-!
# Operands

An operand is a number literal or a label. A token that has the form of a literal is never looked
up as a label, whether or not it can be read.
-/

namespace WordMachine

namespace Operand

/-- The value of an operand: that of a literal, or the address of a label. -/
def resolve (labels : Labels) (token : Text) : Except Cause Int :=
  match Numeral.readNumber token with
  | .ok value => .ok value
  | .error .notNumeric =>
    match labels.lookup token with
    | some address => .ok address
    | none => .error (.unresolvedOperand token (!token.isEmpty))
  | .error _ => .error (.unresolvedOperand token false)

/-- A register number: a decimal literal within bounds. -/
def register (field : Field) (least greatest : Int) (token : Text) : Except Cause Nat :=
  match Numeral.readDecimal token with
  | .error _ => .error (.unresolvedOperand token false)
  | .ok value =>
    if value < least ∨ greatest < value then
      .error (.operandRange field least greatest value)
    else .ok value.toNat

/-- The content of an address field: the value of an operand that is not negative, cut to the bits
of the field. -/
def address (labels : Labels) (token : Text) : Except Cause Nat :=
  match resolve labels token with
  | .error cause => .error cause
  | .ok value =>
    if value < 0 then
      .error (.operandRange .address 0 (Fields.addressLimit - 1) value)
    else .ok (lowWord value Fields.addressBits).toNat

/-- The only field of a directive's operands. -/
def single (keyword operands : Text) : Except Cause Text :=
  match Text.fields operands with
  | [] => .error (.missingOperand keyword 1 0)
  | [token] => .ok token
  | tokens => .error (.extraOperand keyword 1 tokens.length)

/-- The target of a location directive: a literal that is an address of the memory. -/
def location (operands : Text) : Except Cause Int :=
  match single Keyword.loc operands with
  | .error cause => .error cause
  | .ok token =>
    match Numeral.readNumber token with
    | .error _ => .error (.invalidLocation token)
    | .ok value =>
      if value < 0 ∨ maxAddress < value then .error (.invalidLocation token) else .ok value

/-- The least value of a data directive. -/
def minData : Int := -32768

/-- The greatest value of a data directive. -/
def maxData : Int := 65535

/-- The word of a data directive. -/
def data (labels : Labels) (operands : Text) : Except Cause Word :=
  match single Keyword.data operands with
  | .error cause => .error cause
  | .ok token =>
    match resolve labels token with
    | .error cause => .error cause
    | .ok value =>
      if value < minData ∨ maxData < value then
        .error (.operandRange .data minData maxData value)
      else .ok (Word.ofInt value)

end Operand

end WordMachine
