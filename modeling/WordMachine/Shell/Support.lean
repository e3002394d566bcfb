import WordMachine.Debugger.Display

/-!
# The support of a shell

A shell leaves two things to others: how the registers are displayed, and in which order the labels
are searched for a name. A name may stand at several addresses, and then the address that is found
depends on the order. It may be another one at every prompt.
-/

namespace WordMachine.Shell

/-- What a shell relies on. -/
structure Support where
  /-- Shows the registers and the state of a machine. -/
  registers : Machine → Text
  /-- The order in which labels are searched, after a number of prompts. -/
  order : Nat → List (Word × Text) → List (Word × Text)
  order_perm : ∀ prompts entries, (order prompts entries).Perm entries

namespace Support

/-- The labels that are searched after a number of prompts, in their order. -/
def search (support : Support) (prompts : Nat) (symbols : Option Symbols) : List (Word × Text) :=
  support.order prompts (Symbols.labelList symbols)

/-- Shows the registers in colours, and searches labels by ascending address. -/
def standard : Support :=
  { registers := Display.registers
    order := fun _ entries => entries
    order_perm := fun _ entries => .refl entries }

end Support

end WordMachine.Shell
