import WordMachine.Assembly.Operand
import WordMachine.Source.Statement

/-!
# Laying out labels

The first reading of a program gives every label the address at which its line will be assembled.
It counts one address for each statement, whether or not the statement can be assembled, and
follows location directives.
-/

namespace WordMachine

/-- How a statement that stands after a label is treated. -/
inductive LabelRule where
  /-- The statement is assembled like any other. -/
  | ordinary
  /-- Only a stop is assembled, and no address is counted for it in the first reading. -/
  | legacy
  deriving DecidableEq, Repr

/-- How far the first reading has come. -/
structure Layout where
  /-- The address of the next statement. -/
  counter : Int
  labels : Labels
  deriving DecidableEq, Repr

namespace Layout

/-- Before the first line. -/
def start : Layout := ⟨0, .empty⟩

/-- The address after a statement that stands at `counter`. -/
def advance (counter : Int) (statement : Statement) : Int :=
  if statement.keyword = Keyword.loc then
    match Operand.location statement.operands with
    | .ok address => address
    | .error _ => counter
  else counter + 1

/-- Whether the first reading counts no address for a statement because of its label. -/
def isPassedOver (rule : LabelRule) (statement : Statement) : Bool :=
  statement.label.isSome && (statement.keyword.isEmpty || rule == .legacy)

/-- The labels once those of a statement at `counter` have been added. -/
def declare (labels : Labels) (counter : Int) (statement : Statement) : Labels :=
  match statement.label with
  | some name => labels.declare name counter
  | none => labels

/-- Reads one statement. -/
def place (rule : LabelRule) (layout : Layout) (statement : Statement) : Layout :=
  { counter :=
      if isPassedOver rule statement then layout.counter
      else advance layout.counter statement
    labels := declare layout.labels layout.counter statement }

/-- Reads one line. -/
def step (rule : LabelRule) (layout : Layout) (raw : Text) : Layout :=
  match Statement.parse raw with
  | none => layout
  | some statement => layout.place rule statement

/-- Reads all lines. -/
def run (rule : LabelRule) (lines : List Text) : Layout := lines.foldl (step rule) start

end Layout

/-- The labels of a program. -/
def layoutLabels (rule : LabelRule) (lines : List Text) : Labels := (Layout.run rule lines).labels

end WordMachine
