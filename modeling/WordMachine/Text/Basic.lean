/-!
# Text as bytes

Everything that is read, measured or printed here is a sequence of bytes. Columns, lengths and
paddings count bytes, and nothing assumes that the bytes are valid UTF-8.

## Implementation notes

A line may be a million bytes long, so every loop over a text is tail recursive, either here or
in the list function that it calls.
-/

namespace WordMachine

/-- A sequence of bytes. -/
abbrev Text := List UInt8

namespace Text

/-- The bytes of a string of ASCII characters. -/
def ascii (s : String) : Text := s.toList.map Char.toUInt8

/-- The byte that ends a line. -/
def lineFeed : UInt8 := 0x0A

/-- The byte that may stand before a line feed. -/
def carriageReturn : UInt8 := 0x0D

/-- The byte that starts a comment. -/
def semicolon : UInt8 := 0x3B

/-- The byte that ends a label. -/
def colon : UInt8 := 0x3A

/-- The byte between two operands. -/
def comma : UInt8 := 0x2C

/-- The byte of a space. -/
def space : UInt8 := 0x20

/-- The minus sign. -/
def minus : UInt8 := 0x2D

/-- The plus sign. -/
def plus : UInt8 := 0x2B

/-- The byte between two parts of a file path. -/
def slash : UInt8 := 0x2F

/-- The byte before a file name's extension. -/
def dot : UInt8 := 0x2E

/-- The byte between a flag's name and its value. -/
def equals : UInt8 := 0x3D

/-- Cuts a text at every separator: `current` holds the piece being read and `done` the finished
pieces, both in reverse order. -/
def splitLoop (separator : UInt8) (current : Text) (done : List Text) : Text → List Text
  | [] => (current.reverse :: done).reverse
  | b :: rest =>
    if b = separator then splitLoop separator [] (current.reverse :: done) rest
    else splitLoop separator (b :: current) done rest

/-- The pieces between the separators of a text, one more than there are separators. -/
def split (separator : UInt8) (t : Text) : List Text := splitLoop separator [] [] t

/-- Fills a text on the left up to a width. A longer text is left as it is. -/
def padLeft (width : Nat) (fill : UInt8) (t : Text) : Text :=
  List.replicate (width - t.length) fill ++ t

/-- Removes one given byte from the end of a text, if it stands there. -/
def dropLastByte (byte : UInt8) (t : Text) : Text :=
  if t.getLast? = some byte then t.dropLast else t

/-- A text followed by a line feed. -/
def line (t : Text) : Text := t ++ [lineFeed]

/-- Each text on a line of its own. -/
def unlines (ts : List Text) : Text := ts.flatMap line

/-- ASCII lower case letters become upper case; every other byte stays. -/
def upper (t : Text) : Text :=
  t.map fun b => if 0x61 ≤ b ∧ b ≤ 0x7A then b - 0x20 else b

/-- A text within single quotation marks. -/
def inQuotes (t : Text) : Text := ascii "'" ++ t ++ ascii "'"

end Text

end WordMachine
