import WordMachine.Debugger.Monitor

/-!
# Recording stops

A recorder keeps a list of the stops of its debugger. It can also clear the break request, or halt
the machine, whenever it is stopped at the end of a step.
-/

namespace WordMachine

/-- A stop, with the program counter at that time. An access to memory shows the address and the
word that is there at that time. -/
inductive Event where
  | break (counter : Word)
  | read (address word counter : Word)
  | write (address word counter : Word)
  deriving DecidableEq, Repr

/-- Which stops a recorder handles, and what it does at the end of a step. -/
structure Recording where
  breaks : Bool
  reads : Bool
  writes : Bool
  /-- Whether to take back the request to break. -/
  clearsBreak : Bool
  /-- Whether to halt the machine. -/
  halts : Bool
  deriving DecidableEq, Repr

/-- A recorder that handles no stop. -/
def Recording.off : Recording := ⟨false, false, false, false, false⟩

/-- A debugger and the stops recorded so far. -/
structure Recorder where
  debugger : Debugger
  events : Array Event

namespace Recorder

/-- Adds an event. -/
def record (r : Recorder) (event : Event) : Recorder := { r with events := r.events.push event }

/-- Records a stop at the end of a step. -/
def atBreak (recording : Recording) (s : Machine × Recorder) : Machine × Recorder :=
  let recorder := s.2.record (.break s.1.counter)
  let recorder :=
    if recording.clearsBreak then
      { recorder with debugger := { recorder.debugger with breaking := false } }
    else recorder
  let machine := if recording.halts then { s.1 with halted := true } else s.1
  (machine, recorder)

/-- Records a reading. -/
def atRead (address : Word) (s : Machine × Recorder) : Machine × Recorder :=
  (s.1, s.2.record (.read address (s.1.memory.read address) s.1.counter))

/-- Records a writing. -/
def atWrite (address : Word) (s : Machine × Recorder) : Machine × Recorder :=
  (s.1, s.2.record (.write address (s.1.memory.read address) s.1.counter))

/-- The handlers of a recorder. -/
def handlers (recording : Recording) : Handlers Recorder :=
  { atBreak := if recording.breaks then some (atBreak recording) else none
    atRead := if recording.reads then some atRead else none
    atWrite := if recording.writes then some atWrite else none }

/-- The monitor of a recorder. -/
def monitor (recording : Recording) : Monitor Recorder :=
  Debugger.monitor Recorder.debugger (handlers recording) fun _ _ recorder => recorder

end Recorder

end WordMachine
