import WordMachine.Assembly.Operand
import WordMachine.Symbols

/-!
# Arguments of shell commands

Addresses are given by any literal that the assembler reads, or by a label, which is searched in a
given order; values by a literal in the range of a data directive; counts by decimal digits.
-/

namespace WordMachine

/-- Why an argument is not accepted. -/
inductive ArgumentError where
  | addressOutOfRange (token : Text)
  | addressNotFound (token : Text)
  | invalidValue (token : Text)
  | valueOutOfRange (token : Text)
  | invalidCount (token : Text)
  deriving DecidableEq, Repr

/-- The message for an argument that is not accepted. -/
def ArgumentError.message : ArgumentError → Text
  | addressOutOfRange token =>
    Text.ascii "Address " ++ Text.inQuotes token ++ Text.ascii " out of range"
  | addressNotFound token => Text.ascii "Unable to find " ++ Text.inQuotes token
  | invalidValue token => Text.ascii "Invalid value " ++ Text.inQuotes token
  | valueOutOfRange token =>
    Text.ascii "Value " ++ Text.inQuotes token ++ Text.ascii " out of range"
  | invalidCount token => Text.ascii "Invalid count " ++ Text.inQuotes token

namespace Argument

/-- The address that a token names. -/
def address (order : List (Word × Text)) (token : Text) : Except ArgumentError Word :=
  match Numeral.readNumber token with
  | .ok value =>
    if value < 0 ∨ maxAddress < value then .error (.addressOutOfRange token)
    else .ok (Word.ofInt value)
  | .error _ =>
    match Symbols.addressAmong? order token with
    | some address => .ok address
    | none => .error (.addressNotFound token)

/-- The word that a token gives. -/
def value (token : Text) : Except ArgumentError Word :=
  match Numeral.readNumber token with
  | .error _ => .error (.invalidValue token)
  | .ok value =>
    if value < Operand.minData ∨ Operand.maxData < value then .error (.valueOutOfRange token)
    else .ok (Word.ofInt value)

/-- The count that a token gives. -/
def count (token : Text) : Except ArgumentError Nat :=
  match Numeral.readNat 10 Word.bits token with
  | .ok n => .ok n
  | .error _ => .error (.invalidCount token)

/-- The position that a token gives. -/
def position? (token : Text) : Option Int := (Numeral.readInt 10 64 token).toOption

end Argument

end WordMachine
