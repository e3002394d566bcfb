import WordMachine.Assembly.Emission
import WordMachine.Text.Lines

/-!
# Programs

A program is assembled in two readings: the first lays out the labels, and the second emits words
against them.
-/

namespace WordMachine

/-- An assembled program. -/
structure Program where
  labels : Labels
  image : Image
  listing : Listing
  diagnostics : List Diagnostic

namespace Program

/-- The program that a finished second reading leaves. -/
def ofEmission (labels : Labels) (e : Emission) : Program :=
  ⟨labels, e.image, e.listing, e.diagnostics.toList⟩

/-- Assembles source lines. -/
def assemble (rule : LabelRule) (lines : List Text) : Program :=
  let labels := layoutLabels rule lines
  ofEmission labels (Emission.run rule labels lines)

/-- The bytes of a source line, with its line feed, that a reader can hold. -/
def lineLimit : Nat := 1048576

/-- A line that is too long to be read. -/
inductive SourceError where
  | overlong
  deriving DecidableEq, Repr

/-- Cuts a source text into lines. Up to two carriage returns before a line feed are dropped. -/
def readSource (source : Text) : Except SourceError (List Text) :=
  let read := Text.readLines lineLimit source
  match read.ending with
  | .complete => .ok (read.lines.map (Text.dropLastByte Text.carriageReturn))
  | .overlong _ => .error .overlong

/-- Assembles a source text. -/
def assembleSource (rule : LabelRule) (source : Text) : Except SourceError Program :=
  (readSource source).map (assemble rule)

end Program

end WordMachine
