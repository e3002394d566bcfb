import WordMachine.Text.Glyph

/-!
# Statements

A source line holds at most one statement before its comment. The first token is a label if it is
longer than one byte and ends in a colon; the next token is the keyword, and what follows the
keyword are the operands.
-/

namespace WordMachine

/-- The parts of a source line. -/
structure Statement where
  /-- The label, without its colon. -/
  label : Option Text
  /-- Everything after the label. -/
  body : Text
  /-- The keyword; empty on a line that holds a label only. -/
  keyword : Text
  /-- The text after the keyword. -/
  operands : Text
  /-- The column of the keyword, or of the label where there is no keyword, counted from one. -/
  column : Nat
  deriving DecidableEq, Repr

namespace Statement

/-- The part of a line before its comment. -/
def code (raw : Text) : Text := raw.takeWhile (· ≠ Text.semicolon)

/-- The token at the head of a sequence of glyphs. -/
def token (gs : List Glyph) : Text := Glyph.flatten (gs.takeWhile Glyph.isInk)

/-- What follows the token at the head and the blanks after it. -/
def afterToken (gs : List Glyph) : List Glyph := Glyph.trimStart (gs.dropWhile Glyph.isInk)

/-- The number of bytes of the token at the head and the blanks after it. -/
def tokenSkip (gs : List Glyph) : Nat :=
  (Glyph.flatten gs).length - (Glyph.flatten (afterToken gs)).length

/-- The name that a token declares, if it is a label. -/
def labelName? (head : Text) : Option Text :=
  if 1 < head.length ∧ head.getLast? = some Text.colon then some head.dropLast else none

/-- The statement of glyphs that begin with ink and whose first byte stands in `column`. -/
def ofGlyphs (column : Nat) (gs : List Glyph) : Statement :=
  let rest := afterToken gs
  match labelName? (token gs) with
  | none =>
    { label := none
      body := Glyph.flatten gs
      keyword := token gs
      operands := Glyph.flatten rest
      column }
  | some name =>
    if rest.isEmpty then
      { label := some name, body := [], keyword := [], operands := [], column }
    else
      { label := some name
        body := Glyph.flatten rest
        keyword := token rest
        operands := Glyph.flatten (afterToken rest)
        column := column + tokenSkip gs }

/-- The statement of a source line, if it holds more than blanks and a comment. -/
def parse (raw : Text) : Option Statement :=
  let gs := Glyph.trimEnd (Text.glyphs (code raw))
  let indent := gs.takeWhile Glyph.isBlank
  let trimmed := gs.dropWhile Glyph.isBlank
  if trimmed.isEmpty then none
  else some (ofGlyphs ((Glyph.flatten indent).length + 1) trimmed)

/-- Cuts the operands apart at their commas and trims each. A blank text has no operands. Empty
operands at the end are dropped, so that a trailing comma adds no operand. -/
def splitOperands (operands : Text) : List Text :=
  let trimmed := Text.trim operands
  if trimmed.isEmpty then []
  else
    let pieces := (Text.split Text.comma trimmed).map Text.trim
    (pieces.reverse.dropWhile List.isEmpty).reverse

end Statement

end WordMachine
