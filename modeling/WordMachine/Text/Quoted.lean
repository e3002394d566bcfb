import WordMachine.Numeral.Digits
import WordMachine.Text.Utf8
import WordMachine.Text.Printable

/-!
# Quoted text

A quoted text stands between quotation marks and shows every byte: printable characters as they
are, the usual control characters by a letter after a backslash, and all else by its number. A byte
that belongs to no character is written `\\x` and two hexadecimal digits.
-/

namespace WordMachine.Text

/-- A number as hexadecimal digits in a field of a fixed width. -/
def hexField (width n : Nat) : Text := padLeft width Numeral.zeroByte (Numeral.digits 16 n)

/-- The backslash. -/
def backslash : UInt8 := 0x5C

/-- The double quotation mark. -/
def doubleQuote : UInt8 := 0x22

/-- The single quotation mark. -/
def singleQuote : UInt8 := 0x27

/-- The letter that names a control character after a backslash. -/
def escapeLetter? (value : Nat) : Option UInt8 :=
  match value with
  | 0x07 => some 0x61
  | 0x08 => some 0x62
  | 0x0C => some 0x66
  | 0x0A => some 0x6E
  | 0x0D => some 0x72
  | 0x09 => some 0x74
  | 0x0B => some 0x76
  | _ => none

/-- How a byte that belongs to no character is written. -/
def escapeByte (b : UInt8) : Text := ascii "\\x" ++ hexField 2 b.toNat

/-- How a character is written between quotation marks of the given kind. -/
def escapeScalar (mark : UInt8) (value : Nat) : Text :=
  if value = mark.toNat ∨ value = backslash.toNat then backslash :: ofScalar value
  else if isPrintable value then ofScalar value
  else
    match escapeLetter? value with
    | some letter => [backslash, letter]
    | none =>
      if value < 0x20 ∨ value = 0x7F then ascii "\\x" ++ hexField 2 value
      else if value < 0x10000 then ascii "\\u" ++ hexField 4 value
      else ascii "\\U" ++ hexField 8 value

/-- Escapes a text, collecting the result in reverse order. The first `skip` bytes belong to a
character that has already been written. -/
def escapeLoop (mark : UInt8) (skip : Nat) (written : Text) : Text → Text
  | [] => written.reverse
  | b :: rest =>
    match skip with
    | more + 1 => escapeLoop mark more written rest
    | 0 =>
      match scalar? (b :: rest) with
      | none => escapeLoop mark 0 ((escapeByte b).reverse ++ written) rest
      | some (value, width) =>
        escapeLoop mark (width - 1) ((escapeScalar mark value).reverse ++ written) rest

/-- A text in double quotation marks. -/
def quote (t : Text) : Text := [doubleQuote] ++ escapeLoop doubleQuote 0 [] t ++ [doubleQuote]

/-- The character of a scalar value in single quotation marks. -/
def quoteScalar (value : Nat) : Text :=
  [singleQuote] ++ escapeScalar singleQuote value ++ [singleQuote]

end WordMachine.Text
