import WordMachine.Numeral.Reading

/-!
# Number literals

A literal is decimal (`123`, `-123`), hexadecimal (`0x7B`, with an optional sign after the mark) or
octal (`0173`, `0o173`, without sign). Digits alone are always decimal, leading zeros or not.
Literals are signed numbers of 32 bits.
-/

namespace WordMachine.Numeral

/-- Why a text is no literal of the form that was asked for. -/
inductive LiteralError where
  | notDecimal
  | notHex
  | notOctal
  | notBinary
  | notNumeric
  | unreadable (cause : Unreadable)
  deriving DecidableEq, Repr

/-- The message for a text that is no literal. -/
def LiteralError.message : LiteralError → Text
  | notDecimal => Text.ascii "Invalid decimal string"
  | notHex => Text.ascii "Invalid hex string"
  | notOctal => Text.ascii "Invalid octal string"
  | notBinary => Text.ascii "Invalid binary string"
  | notNumeric => Text.ascii "Not a numeric literal"
  | unreadable cause => cause.message

/-- The bits of a literal's value. -/
def literalBits : Nat := 32

/-- Whether a byte is one of the ten decimal digits. -/
def isDecimalDigit (b : UInt8) : Bool := 0x30 ≤ b && b ≤ 0x39

/-- Whether a text is a run of decimal digits after an optional minus. -/
def isDecimal (t : Text) : Bool :=
  let body := if t.head? = some Text.minus then t.tail else t
  !body.isEmpty && body.all isDecimalDigit

/-- Whether a text starts with `0x`, in either case. -/
def hasHexMark : Text → Bool
  | 0x30 :: letter :: _ => letter == 0x78 || letter == 0x58
  | _ => false

/-- Whether a text starts with a zero. -/
def hasZero : Text → Bool
  | b :: _ => b == zeroByte
  | [] => false

/-- Reads a signed literal in a base. -/
def readLiteral (base : Nat) (t : Text) : Except LiteralError Int :=
  match readInt base literalBits t with
  | .ok value => .ok value
  | .error fault => .error (.unreadable ⟨.signed, t, fault⟩)

/-- Reads a decimal literal. -/
def readDecimal (t : Text) : Except LiteralError Int :=
  if isDecimal t then readLiteral 10 t else .error .notDecimal

/-- Reads a hexadecimal literal. -/
def readHex (t : Text) : Except LiteralError Int :=
  if hasHexMark t then readLiteral 16 (t.drop 2) else .error .notHex

/-- What follows the mark of an octal literal: a zero, and one letter `o` of either case. -/
def afterOctalMark : Text → Text
  | _ :: 0x6F :: rest => rest
  | _ :: 0x4F :: rest => rest
  | _ :: rest => rest
  | [] => []

/-- Whether a text holds a sign anywhere. -/
def hasSign (t : Text) : Bool := t.any fun b => b == Text.plus || b == Text.minus

/-- Reads an octal literal. -/
def readOctal (t : Text) : Except LiteralError Int :=
  let body := afterOctalMark t
  if !hasZero t || body.isEmpty || hasSign body then .error .notOctal else readLiteral 8 body

/-- Reads a literal, trying decimal, hexadecimal and octal in this order. -/
def readNumber (t : Text) : Except LiteralError Int :=
  if isDecimal t then readDecimal t
  else if hasHexMark t then readHex t
  else if hasZero t then readOctal t
  else .error .notNumeric

end WordMachine.Numeral
