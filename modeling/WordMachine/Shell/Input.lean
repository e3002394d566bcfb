import WordMachine.Text.Lines

/-!
# What a shell reads

A shell reads its input line by line. After the last line every further reading finds the end. A
line that is too long cannot be read: what the reader holds of it is delivered as a line of its own
at the next reading, and after that no reading succeeds.
-/

namespace WordMachine.Shell

/-- What one reading finds. -/
inductive Reading where
  | line (text : Text)
  | overlong
  deriving DecidableEq, Repr

/-- What every reading finds after the last. -/
inductive Closing where
  | ended
  | overlong
  deriving DecidableEq, Repr

/-- What is left to read. -/
structure Input where
  pending : List Reading
  closing : Closing
  deriving DecidableEq, Repr

/-- The bytes of a line, with its line feed, that the reader can hold. -/
def lineLimit : Nat := 65536

/-- The readings of a text. -/
def Input.ofText (t : Text) : Input :=
  let read := Text.readLines lineLimit t
  let lines := read.lines.map Reading.line
  match read.ending with
  | .complete => ⟨lines, .ended⟩
  | .overlong rest =>
    let held := Text.dropLastByte Text.carriageReturn (rest.take lineLimit)
    ⟨lines ++ [.overlong, .line held], .overlong⟩

end WordMachine.Shell
