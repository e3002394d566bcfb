import WordMachine.Text.Basic

/-!
# Blanks and ink

A text is read as a sequence of glyphs: a *blank*, which is the UTF-8 encoding of one of the
white-space characters U+0009 to U+000D, U+0020, U+0085, U+00A0, U+1680, U+2000 to U+200A, U+2028,
U+2029, U+202F, U+205F and U+3000, or a single byte of *ink*. Trimming, cutting off a token and
splitting into fields are then list operations on glyphs.

## Implementation notes

No blank begins with a continuation byte, so a blank is recognised by its own bytes wherever it
stands: it does not matter from which end a text is read, or whether the bytes around the blank are
valid UTF-8.
-/

namespace WordMachine

/-- One blank with its encoding, or one byte that belongs to no blank. -/
inductive Glyph where
  | blank (encoding : Text)
  | ink (byte : UInt8)
  deriving DecidableEq, Repr

namespace Glyph

/-- The bytes of a glyph. -/
def bytes : Glyph → Text
  | blank encoding => encoding
  | ink byte => [byte]

/-- Whether a glyph is a blank. -/
def isBlank : Glyph → Bool
  | blank _ => true
  | ink _ => false

/-- Whether a glyph is a byte of ink. -/
def isInk (g : Glyph) : Bool := !g.isBlank

/-- The bytes of a sequence of glyphs. -/
def flatten (gs : List Glyph) : Text := gs.flatMap bytes

end Glyph

namespace Text

/-- The blanks that are one ASCII byte: tab, line feed, vertical tab, form feed, carriage return
and space. -/
def isNarrowBlank (b : UInt8) : Bool := b == 0x20 || (0x09 ≤ b && b ≤ 0x0D)

/-- The blanks that take three bytes. -/
def isWideBlank (b c d : UInt8) : Bool :=
  (b == 0xE1 && c == 0x9A && d == 0x80) ||
  (b == 0xE2 && c == 0x80 && ((0x80 ≤ d && d ≤ 0x8A) || d == 0xA8 || d == 0xA9 || d == 0xAF)) ||
  (b == 0xE2 && c == 0x81 && d == 0x9F) ||
  (b == 0xE3 && c == 0x80 && d == 0x80)

/-- The number of bytes of the blank at the head of a text, or zero. -/
def blankWidth : Text → Nat
  | [] => 0
  | [b] => if isNarrowBlank b then 1 else 0
  | [b, c] =>
    if isNarrowBlank b then 1
    else if b == 0xC2 && (c == 0x85 || c == 0xA0) then 2
    else 0
  | b :: c :: d :: _ =>
    if isNarrowBlank b then 1
    else if b == 0xC2 && (c == 0x85 || c == 0xA0) then 2
    else if isWideBlank b c d then 3
    else 0

/-- Reads glyphs, collecting them in reverse order. The first `skip` bytes belong to a blank that
has already been collected. -/
def glyphsLoop (skip : Nat) (found : List Glyph) : Text → List Glyph
  | [] => found.reverse
  | b :: rest =>
    match skip with
    | more + 1 => glyphsLoop more found rest
    | 0 =>
      match blankWidth (b :: rest) with
      | 0 => glyphsLoop 0 (.ink b :: found) rest
      | more + 1 => glyphsLoop more (.blank ((b :: rest).take (more + 1)) :: found) rest

/-- The glyphs of a text, in order. -/
def glyphs (t : Text) : List Glyph := glyphsLoop 0 [] t

end Text

namespace Glyph

/-- Removes the blanks at the head. -/
def trimStart (gs : List Glyph) : List Glyph := gs.dropWhile isBlank

/-- Removes the blanks at the end. -/
def trimEnd (gs : List Glyph) : List Glyph := (gs.reverse.dropWhile isBlank).reverse

/-- Removes the blanks at both ends. -/
def trim (gs : List Glyph) : List Glyph := trimEnd (trimStart gs)

/-- Collects the runs of ink: `current` holds the run being read and `done` the finished ones, both
in reverse order. -/
def fieldsLoop (current : Text) (done : List Text) : List Glyph → List Text
  | [] => (if current.isEmpty then done else current.reverse :: done).reverse
  | ink b :: rest => fieldsLoop (b :: current) done rest
  | blank _ :: rest =>
    fieldsLoop [] (if current.isEmpty then done else current.reverse :: done) rest

end Glyph

namespace Text

/-- A text without the blanks at its ends. -/
def trim (t : Text) : Text := Glyph.flatten (Glyph.trim (glyphs t))

/-- The maximal runs of ink of a text, in order. -/
def fields (t : Text) : List Text := Glyph.fieldsLoop [] [] (glyphs t)

end Text

end WordMachine
