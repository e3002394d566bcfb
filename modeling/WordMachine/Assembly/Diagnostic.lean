import WordMachine.Numeral.Literal

/-!
# Diagnostics

A line that cannot be assembled gives a diagnostic: its cause and its position. The *reason* is the
short form that annotates a listing row, and the *message* is the long form that is reported.
-/

namespace WordMachine

/-- A place in the source. Lines and columns count from one. -/
structure Position where
  line : Int
  column : Int
  deriving DecidableEq, Repr

/-- What an operand stands for. -/
inductive Field where
  | register
  | index
  | address
  | data
  | unnamed
  deriving DecidableEq, Repr

/-- The name that messages give to a field. -/
def Field.name : Field → Text
  | register => Text.ascii "Register"
  | index => Text.ascii "Index register"
  | address => Text.ascii "Address"
  | data => Text.ascii "Data value"
  | unnamed => Text.ascii "<invalid>"

namespace Keyword

/-- The directive that moves the program counter. -/
def loc : Text := Text.ascii "LOC"

/-- The directive that places a value. -/
def data : Text := Text.ascii "Data"

end Keyword

/-- The highest address of the memory. -/
def maxAddress : Int := 0xFFFF

/-- Why a line cannot be assembled. -/
inductive Cause where
  | missingOperand (keyword : Text) (required received : Int)
  | extraOperand (keyword : Text) (allowed received : Int)
  | unresolvedOperand (token : Text) (asLabel : Bool)
  | operandRange (field : Field) (least greatest received : Int)
  | unknownMnemonic (name : Text)
  | invalidLocation (token : Text)
  | redeclaredLabel (name : Text)
  | addressOverflow (address : Int)
  deriving DecidableEq, Repr

namespace Cause

/-- The annotation of a listing row. -/
def reason : Cause → Text
  | missingOperand keyword required received =>
    if keyword = Keyword.data then Text.ascii "Missing value"
    else
      Text.ascii "Missing operand, " ++ keyword ++ Text.ascii " takes " ++
        Numeral.decimal required ++ Text.ascii ", have " ++ Numeral.decimal received
  | extraOperand keyword allowed received =>
    Text.ascii "Too many operands, " ++ keyword ++ Text.ascii " takes at most " ++
      Numeral.decimal allowed ++ Text.ascii ", have " ++ Numeral.decimal received
  | unresolvedOperand token true => Text.ascii "Undefined label " ++ Text.inQuotes token
  | unresolvedOperand token false => Text.ascii "Invalid value " ++ Text.inQuotes token
  | operandRange field least greatest received =>
    field.name ++ [Text.space] ++ Numeral.decimal received ++ Text.ascii " out of range " ++
      Numeral.decimal least ++ Text.ascii ".." ++ Numeral.decimal greatest
  | unknownMnemonic name => Text.ascii "Invalid instruction " ++ Text.inQuotes name
  | invalidLocation token => Text.ascii "Invalid location " ++ Text.inQuotes token
  | redeclaredLabel name => Text.ascii "Redeclaration of label " ++ Text.inQuotes name
  | addressOverflow _ => Text.ascii "Address exceeds memory"

/-- The two lines that compare what was wanted with what is there. -/
def comparison (want received : Text) : Text :=
  Text.ascii "\n\twant:" ++ want ++ Text.ascii "\n\thave:" ++ received

/-- The report of a cause, without its position. -/
def report : Cause → Text
  | missingOperand keyword required received =>
    Text.ascii "Missing operand for " ++ keyword ++
      comparison (Numeral.decimal required) (Numeral.decimal received)
  | extraOperand keyword allowed received =>
    Text.ascii "Too many operands for " ++ keyword ++
      comparison (Numeral.decimal allowed) (Numeral.decimal received)
  | unresolvedOperand token asLabel => reason (unresolvedOperand token asLabel)
  | operandRange field least greatest received =>
    field.name ++ Text.ascii " out of range" ++
      comparison (Numeral.decimal least ++ Text.ascii ".." ++ Numeral.decimal greatest)
        (Numeral.decimal received)
  | unknownMnemonic name => Text.ascii "Unknown instruction " ++ Text.inQuotes name
  | invalidLocation token =>
    Text.ascii "Invalid location " ++ Text.inQuotes token ++ Text.ascii "\n\twant:0.." ++
      Numeral.decimal maxAddress
  | redeclaredLabel name => reason (redeclaredLabel name)
  | addressOverflow address =>
    Text.ascii "Address exceeds memory" ++
      comparison (Numeral.markedOctal maxAddress) (Numeral.markedOctal address)

end Cause

/-- A cause and where it stands. -/
structure Diagnostic where
  position : Position
  cause : Cause
  deriving DecidableEq, Repr

namespace Diagnostic

/-- The annotation of a listing row. -/
def reason (d : Diagnostic) : Text := d.cause.reason

/-- The report of a diagnostic, with its line and column. -/
def message (d : Diagnostic) : Text :=
  Numeral.padded 10 2 d.position.line ++ Text.ascii ":" ++
    Numeral.padded 10 2 d.position.column ++ Text.ascii ": " ++ d.cause.report

end Diagnostic

end WordMachine
