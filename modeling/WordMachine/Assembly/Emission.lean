import WordMachine.Assembly.Encoding
import WordMachine.Assembly.Image
import WordMachine.Assembly.Layout
import WordMachine.Assembly.Listing

/-!
# Emitting words

The second reading of a program assembles every line against a finished label table. A line that
fails is annotated in the listing and reported; it never stops the reading, and it takes up an
address like a line that succeeds.
-/

namespace WordMachine

/-- What a statement asks for. -/
inductive Demand where
  /-- Nothing: the line holds a label, and what follows it is not assembled. -/
  | nothing
  /-- A new address for the next word. -/
  | moveTo (address : Int)
  /-- A new address that is not valid. -/
  | badMove (cause : Cause)
  /-- A word at the present address. -/
  | emit (word : Word)
  /-- A word that cannot be assembled. -/
  | reject (cause : Cause)
  deriving DecidableEq, Repr

namespace Demand

/-- The demand for a word, or the cause why there is none. -/
def ofWord : Except Cause Word → Demand
  | .ok word => emit word
  | .error cause => reject cause

/-- The demand for an address, or the cause why there is none. -/
def ofLocation : Except Cause Int → Demand
  | .ok address => moveTo address
  | .error cause => badMove cause

/-- The demand of a keyword with its operands. -/
def ofKeyword (labels : Labels) (keyword operands : Text) : Demand :=
  if keyword = Keyword.loc then ofLocation (Operand.location operands)
  else if keyword = Keyword.data then ofWord (Operand.data labels operands)
  else ofWord (encode labels keyword (Statement.splitOperands operands))

/-- What a statement asks for under a label rule. -/
def ofStatement (rule : LabelRule) (labels : Labels) (statement : Statement) : Demand :=
  if statement.label.isSome then
    if statement.keyword.isEmpty then nothing
    else if rule = .legacy then
      if statement.body = Operation.hlt.keyword then emit Operation.hlt.code else nothing
    else ofKeyword labels statement.keyword statement.operands
  else ofKeyword labels statement.keyword statement.operands

end Demand

/-- How far the second reading has come. -/
structure Emission where
  /-- The address of the next word. -/
  counter : Int
  /-- The number of lines read. -/
  linesRead : Nat
  /-- The labels met so far. -/
  declared : List Text
  image : Image
  rows : Array Row
  diagnostics : Array Diagnostic

namespace Emission

/-- Before the first line. -/
def start : Emission := ⟨0, 0, [], .empty, #[], #[]⟩

/-- The number of the line that is read next. -/
def lineNumber (e : Emission) : Int := e.linesRead + 1

/-- A position in the line that is read next. -/
def position (e : Emission) (column : Int) : Position := ⟨e.lineNumber, column⟩

/-- The complaint about the label of a statement that an earlier line has declared. -/
def redeclaration (e : Emission) (statement : Statement) : Option Diagnostic :=
  match statement.label with
  | none => none
  | some name =>
    if e.declared.contains name then
      some ⟨e.position statement.column, .redeclaredLabel name⟩
    else none

/-- Remembers the label of a statement. -/
def remember (declared : List Text) (statement : Statement) : List Text :=
  match statement.label with
  | none => declared
  | some name => if declared.contains name then declared else name :: declared

/-- Adds the row of the line that is read next. -/
def addRow (e : Emission) (source : Text) (content : Content) (diagnostic : Option Diagnostic) :
    Emission :=
  { e with linesRead := e.linesRead + 1, rows := e.rows.push ⟨source, content, diagnostic⟩ }

/-- Reports a diagnostic. -/
def report (e : Emission) (diagnostic : Diagnostic) : Emission :=
  { e with diagnostics := e.diagnostics.push diagnostic }

/-- Reports a diagnostic, if there is one. -/
def reportIfAny (e : Emission) (diagnostic : Option Diagnostic) : Emission :=
  match diagnostic with
  | none => e
  | some d => e.report d

/-- Rejects a line, which takes up an address all the same. -/
def reject (e : Emission) (source : Text) (diagnostic : Diagnostic) : Emission :=
  let rejected := (e.report diagnostic).addRow source (.rejected e.counter) (some diagnostic)
  { rejected with counter := e.counter + 1 }

/-- The complaint about a word that has no place in memory. -/
def overflow (e : Emission) : Diagnostic := ⟨e.position 1, .addressOverflow e.counter⟩

/-- Places a word at the present address and moves past it. A label that is declared again is
noted in the row, and does not prevent the word. -/
def emit (e : Emission) (source : Text) (word : Word) (note : Option Diagnostic) : Emission :=
  if maxAddress < e.counter then e.reject source e.overflow
  else
    let emitted := e.addRow source (.word e.counter word) note
    { emitted with counter := e.counter + 1, image := e.image.insert e.counter word }

/-- Meets the demand of a statement whose column is known. -/
def meet (e : Emission) (source : Text) (column : Int) (note : Option Diagnostic) :
    Demand → Emission
  | .nothing => e.addRow source .label note
  | .moveTo address => { e.addRow source .location note with counter := address }
  | .badMove cause =>
    let diagnostic : Diagnostic := ⟨e.position column, cause⟩
    (e.report diagnostic).addRow source .location (some diagnostic)
  | .emit word => e.emit source word note
  | .reject cause => e.reject source ⟨e.position column, cause⟩

/-- Reads the label of a statement. -/
def readLabel (e : Emission) (statement : Statement) : Emission :=
  { e.reportIfAny (e.redeclaration statement) with
    declared := remember e.declared statement }

/-- Reads one line. -/
def step (rule : LabelRule) (labels : Labels) (e : Emission) (raw : Text) : Emission :=
  match Statement.parse raw with
  | none => e.addRow raw .blank none
  | some statement =>
    (e.readLabel statement).meet raw statement.column (e.redeclaration statement)
      (Demand.ofStatement rule labels statement)

/-- Reads all lines. -/
def run (rule : LabelRule) (labels : Labels) (lines : List Text) : Emission :=
  lines.foldl (step rule labels) start

/-- The listing of the lines read so far. -/
def listing (e : Emission) : Listing := e.rows.toList

end Emission

end WordMachine
