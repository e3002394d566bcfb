import WordMachine.Text.Basic

/-!
# Label tables

A label table keeps the address of each label in the order of first declaration. A name that is
already there keeps its address.
-/

namespace WordMachine

/-- Labels and their addresses, in the order of their declaration. -/
structure Labels where
  entries : List (Text × Int)
  deriving DecidableEq, Repr

namespace Labels

/-- A table without labels. -/
def empty : Labels := ⟨[]⟩

/-- The address of a label. -/
def lookup (labels : Labels) (name : Text) : Option Int := labels.entries.lookup name

/-- Adds a label, unless it is already there. -/
def declare (labels : Labels) (name : Text) (address : Int) : Labels :=
  if (labels.lookup name).isSome then labels else ⟨labels.entries ++ [(name, address)]⟩

/-- The labels in the order of their declaration. -/
def names (labels : Labels) : List Text := labels.entries.map Prod.fst

/-- The number of labels. -/
def size (labels : Labels) : Nat := labels.entries.length

/-- The labels and their addresses, ordered by the bytes of their names. -/
def byName (labels : Labels) : List (Text × Int) :=
  labels.entries.mergeSort fun a b => decide (a.1 ≤ b.1)

end Labels

end WordMachine
