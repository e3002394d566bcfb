import WordMachine.Debugger.Recorder
import WordMachine.Proofs.Machine.Observation

/-!
# Debuggers that only look on

A debugger whose handlers leave the machine alone makes no difference to it, whatever points it
has, whether or not it has been told to break, and whatever its handlers do to the debugger itself.
Recorders are such debuggers as long as they do not halt the machine.

## Implementation notes

A run without a limit is given `Machine.patience` steps, and if it is not over by then it ends with
the fault of a limit that has been reached. A machine would go on. What is said about such runs is
said about these steps of theirs.
-/

namespace WordMachine

/-- Handlers that leave the machine as it is. They may record what they see and change the
debugger. -/
structure Handlers.IsPassive {σ : Type} (handlers : Handlers σ) : Prop where
  atBreak : ∀ handle ∈ handlers.atBreak, ∀ s, (handle s).1 = s.1
  atRead : ∀ handle ∈ handlers.atRead, ∀ address s, (handle address s).1 = s.1
  atWrite : ∀ handle ∈ handlers.atWrite, ∀ address s, (handle address s).1 = s.1

namespace Debugger

variable {σ : Type} {debugger : σ → Debugger} {handlers : Handlers σ}
  {fetched : Word → Word → σ → σ}

/-- A debugger is as passive as its handlers: where it does not stop, it does nothing. -/
theorem monitor_isPassive (h : handlers.IsPassive) :
    (monitor debugger handlers fetched).IsPassive := by
  constructor
  · intro address s
    simp only [monitor]
    split
    · rfl
    · next handle hhandle =>
        split
        · exact h.atRead handle hhandle address s
        · rfl
  · intro address s
    simp only [monitor]
    split
    · rfl
    · next handle hhandle =>
        split
        · exact h.atWrite handle hhandle address s
        · rfl
  · intro s
    simp only [monitor]
    split
    · rfl
    · next handle hhandle =>
        split
        · exact h.atBreak handle hhandle s
        · rfl

end Debugger

/-- A recorder that does not halt the machine leaves it as it is. It may clear the request to
break. -/
theorem Recorder.handlers_isPassive {recording : Recording} (h : recording.halts = false) :
    (handlers recording).IsPassive := by
  constructor
  · intro handle hhandle s
    simp only [handlers, Option.mem_ite_none_right, Option.mem_some] at hhandle
    obtain ⟨-, rfl⟩ := hhandle
    simp [atBreak, h]
  · intro handle hhandle address s
    simp only [handlers, Option.mem_ite_none_right, Option.mem_some] at hhandle
    obtain ⟨-, rfl⟩ := hhandle
    rfl
  · intro handle hhandle address s
    simp only [handlers, Option.mem_ite_none_right, Option.mem_some] at hhandle
    obtain ⟨-, rfl⟩ := hhandle
    rfl

/-- A step and a run under a debugger whose handlers leave the machine alone fail with the same
fault, or do not fail, and leave the same machine as without a debugger. -/
theorem debugger_transparent {σ : Type} (debugger : σ → Debugger) {handlers : Handlers σ}
    (fetched : Word → Word → σ → σ) (h : handlers.IsPassive) (m : Machine) (host : σ) :
    (∃ after, Machine.stepWith (Debugger.monitor debugger handlers fetched) (m, host) =
      (m.step.1, m.step.2, after)) ∧
    ∀ limit, ∃ after,
      Machine.runWith (Debugger.monitor debugger handlers fetched) limit (m, host) =
        ((m.run limit).1, (m.run limit).2, after) := by
  have hmonitor : (Debugger.monitor debugger handlers fetched).IsPassive :=
    Debugger.monitor_isPassive h
  constructor
  · exact hmonitor.stepWith_eq m host
  · intro limit
    exact hmonitor.runWith_eq m host limit

/-- A recorder of every stop that takes back requests to break. -/
def Recording.full : Recording := ⟨true, true, true, true, false⟩

/-- A debugger that has been told to break, with a breakpoint and watchpoints of three kinds. -/
def busyRecorder : Recorder :=
  { debugger := ⟨true, ⟨[1], [⟨0, .read⟩, ⟨5, .write⟩, ⟨0, .other 7⟩]⟩, none⟩
    events := #[] }

/-- A machine that is about to store register zero at address five. -/
def storingMachine : Machine := Machine.initial.store 0 2053

/-- The recorder is stopped three times within one step, and the step is the same as without it. -/
theorem busyRecorder_transparent :
    (Recorder.handlers .full).IsPassive ∧
    (∃ after, Machine.stepWith (Recorder.monitor .full) (storingMachine, busyRecorder) =
      (storingMachine.step.1, storingMachine.step.2, after) ∧
      after.events = #[.read 0 2053 0, .write 5 0 1, .break 1]) ∧
    ∃ after, Machine.runWith (Recorder.monitor .full) 3 (storingMachine, busyRecorder) =
      ((storingMachine.run 3).1, (storingMachine.run 3).2, after) := by
  have hpassive : (Recorder.handlers .full).IsPassive := Recorder.handlers_isPassive rfl
  have hevents : (Machine.stepWith (Recorder.monitor .full)
      (storingMachine, busyRecorder)).2.2.events =
        #[.read 0 2053 0, .write 5 0 1, .break 1] := by decide +kernel
  obtain ⟨⟨after, hstep⟩, hrun⟩ := debugger_transparent Recorder.debugger
    (fun _ _ recorder => recorder) hpassive storingMachine busyRecorder
  refine ⟨hpassive, ⟨after, hstep, ?_⟩, hrun 3⟩
  rw [← hevents]
  exact congrArg (fun result => result.2.2.events) hstep.symm

end WordMachine
