import WordMachine.Debugger.Points
import WordMachine.Machine.Step
import WordMachine.Symbols

/-!
# The debugger

A debugger watches the machine through its points. At the end of a step it stops when it has been
told to break, or when the program counter is at a breakpoint; at an access to memory it stops when
a watchpoint looks at that access. What happens at a stop is the business of its handlers. However
many points match, a stop is handled once, and a stop without a handler is none.
-/

namespace WordMachine

/-- What a debugger knows. -/
structure Debugger where
  /-- Whether to stop at the end of the next step. -/
  breaking : Bool
  points : Points
  symbols : Option Symbols

/-- A debugger without points and symbols. -/
def Debugger.idle : Debugger := ⟨false, .empty, none⟩

/-- What happens at the stops of a debugger that is kept within a state of type `σ`. -/
structure Handlers (σ : Type) where
  atBreak : Option (Machine × σ → Machine × σ)
  atRead : Option (Word → Machine × σ → Machine × σ)
  atWrite : Option (Word → Machine × σ → Machine × σ)

namespace Debugger

variable {σ : Type}

/-- Whether a debugger stops at the end of a step. -/
def stopsAfter (d : Debugger) (m : Machine) : Bool := d.breaking || d.points.breaksAt m.counter

/-- The monitor of a debugger. `debugger` finds it in the state, and `fetched` is told of fetched
instructions. -/
def monitor (debugger : σ → Debugger) (handlers : Handlers σ) (fetched : Word → Word → σ → σ) :
    Monitor σ :=
  { reading := fun address s =>
      match handlers.atRead with
      | none => s
      | some handle =>
        if (debugger s.2).points.watchesReading address then handle address s else s
    written := fun address s =>
      match handlers.atWrite with
      | none => s
      | some handle =>
        if (debugger s.2).points.watchesWriting address then handle address s else s
    fetched
    stepped := fun s =>
      match handlers.atBreak with
      | none => s
      | some handle => if (debugger s.2).stopsAfter s.1 then handle s else s }

end Debugger

end WordMachine
