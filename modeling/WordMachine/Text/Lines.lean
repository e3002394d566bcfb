import WordMachine.Text.Basic

/-!
# Lines of bounded length

A text is cut into lines at its line feeds. A line feed at the very end opens no further line. A
reader holds at most `limit` bytes of a line together with its line feed: at the first line that is
longer, reading stops.
-/

namespace WordMachine.Text

/-- How the lines of a text end. -/
inductive Ending where
  /-- Every line was read. -/
  | complete
  /-- Reading stopped at a line that is too long, given here. -/
  | overlong (line : Text)
  deriving DecidableEq, Repr

/-- The lines that a reader delivers, and how it stopped. -/
structure Lines where
  lines : List Text
  ending : Ending
  deriving DecidableEq, Repr

/-- The text between the line feeds, without the empty piece after a final line feed. -/
def rawLines (t : Text) : List Text :=
  let pieces := split lineFeed t
  if pieces.getLast? = some [] then pieces.dropLast else pieces

/-- Reads lines of fewer than `limit` bytes, and drops one carriage return from the end of each. -/
def readLines (limit : Nat) (t : Text) : Lines :=
  let raw := rawLines t
  let short := fun (l : Text) => decide (l.length < limit)
  { lines := (raw.takeWhile short).map (dropLastByte carriageReturn)
    ending :=
      match raw.dropWhile short with
      | [] => .complete
      | l :: _ => .overlong l }

/-- The message for a line that is too long. -/
def overlongMessage : Text := ascii "bufio.Scanner: token too long"

end WordMachine.Text
