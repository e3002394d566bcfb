import WordMachine.Assembly.Program

/-!
# Symbols

The symbols of a program tell for each address the source line that was assembled there and the
label that names it. Where several labels name an address the first declared one is kept, and a
label beyond the memory is left out.
-/

namespace WordMachine

/-- What a debugger knows of a program's source. -/
structure Symbols where
  /-- The name of the source. -/
  source : Text
  /-- The trimmed source line of each assembled address. -/
  lines : Std.ExtTreeMap Word Text compare
  /-- The label of each named address. -/
  labels : Std.ExtTreeMap Word Text compare

namespace Symbols

/-- Adds the source line of a row that was assembled. -/
def addRow (lines : Std.ExtTreeMap Word Text compare) (row : Row) :
    Std.ExtTreeMap Word Text compare :=
  match row.content with
  | .word address _ => lines.insert (Word.ofInt address) (Text.trim row.source)
  | _ => lines

/-- Adds a label, unless it lies beyond the memory or its address has a label already. -/
def addLabel (labels : Std.ExtTreeMap Word Text compare) (entry : Text × Int) :
    Std.ExtTreeMap Word Text compare :=
  if maxAddress < entry.2 then labels
  else labels.insertIfNew (Word.ofInt entry.2) entry.1

/-- The symbols of a program. -/
def ofProgram (source : Text) (program : Program) : Symbols :=
  { source
    lines := program.listing.foldl addRow ∅
    labels := program.labels.entries.foldl addLabel ∅ }

/-- The labels of symbols, if there are any, by ascending address. -/
def labelList : Option Symbols → List (Word × Text)
  | none => []
  | some symbols => symbols.labels.toList

/-- The address of the first label with a name, where labels are searched in an order. -/
def addressAmong? (order : List (Word × Text)) (name : Text) : Option Word :=
  (order.find? fun entry => entry.2 == name).map Prod.fst

end Symbols

end WordMachine
