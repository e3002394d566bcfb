import WordMachine.Machine.Step

/-!
# Monitors in corresponding states

Two runs of the same monitor, started on the same machine in corresponding states, can be compared
step by step. If the monitor does the same to the machine at every signal, and its states correspond
again afterwards, then the machine takes the same steps in both runs.
-/

namespace WordMachine

variable {σ : Type} {R : σ → σ → Prop}

/-- The same machine, with monitors in corresponding states. -/
structure Corresponds (R : σ → σ → Prop) (s s' : Machine × σ) : Prop where
  machine : s'.1 = s.1
  host : R s.2 s'.2

/-- A monitor that does the same in corresponding states. -/
structure Monitor.Respects (monitor : Monitor σ) (R : σ → σ → Prop) : Prop where
  reading : ∀ address s s', Corresponds R s s' →
    Corresponds R (monitor.reading address s) (monitor.reading address s')
  written : ∀ address s s', Corresponds R s s' →
    Corresponds R (monitor.written address s) (monitor.written address s')
  fetched : ∀ address word host host', R host host' →
    R (monitor.fetched address word host) (monitor.fetched address word host')
  stepped : ∀ s s', Corresponds R s s' → Corresponds R (monitor.stepped s) (monitor.stepped s')

namespace Corresponds

open Machine

variable {monitor : Monitor σ} {s s' : Machine × σ}

/-- Whatever is done to the machine alone. -/
theorem map (h : Corresponds R s s') (change : Machine → Machine) :
    Corresponds R (change s.1, s.2) (change s'.1, s'.2) :=
  ⟨congrArg change h.machine, h.host⟩

variable (hmonitor : monitor.Respects R) (h : Corresponds R s s')

include hmonitor h

theorem read (address : Word) :
    (read monitor address s').1 = (Machine.read monitor address s).1 ∧
      Corresponds R (Machine.read monitor address s).2 (Machine.read monitor address s').2 := by
  have hread := hmonitor.reading address s s' h
  exact ⟨congrArg (fun m => m.memory.read address) hread.machine, hread⟩

theorem write (address word : Word) :
    Corresponds R (write monitor address word s) (Machine.write monitor address word s') :=
  hmonitor.written address _ _ (h.map fun m => m.store address word)

theorem effectiveAddress (op : Operation) (f : Fields) :
    (effectiveAddress monitor op f s').1 = (Machine.effectiveAddress monitor op f s).1 ∧
      Corresponds R (Machine.effectiveAddress monitor op f s).2
        (Machine.effectiveAddress monitor op f s').2 := by
  have hbase : baseAddress op f s'.1 = baseAddress op f s.1 := by rw [h.machine]
  simp only [Machine.effectiveAddress, hbase]
  split
  · exact h.read hmonitor _
  · exact ⟨rfl, h⟩

/-- One operation, in whichever part of it the monitor is told of an access. -/
theorem execute (f : Fields) (op : Operation) :
    Corresponds R (execute monitor f op s) (Machine.execute monitor f op s') := by
  obtain ⟨haddress, hfound⟩ := h.effectiveAddress hmonitor op f
  cases op with
  | hlt => exact h.map fun m => { m with halted := true }
  | ldr =>
      obtain ⟨hword, hread⟩ := hfound.read hmonitor (Machine.effectiveAddress monitor .ldr f s).1
      simp only [Machine.execute, haddress, hword]
      exact hread.map fun m => m.setRegister (Fields.slot f.register) _
  | str =>
      simp only [Machine.execute, haddress, hfound.machine]
      exact hfound.write hmonitor _ _
  | lda =>
      simp only [Machine.execute, haddress]
      exact hfound.map fun m => m.setRegister (Fields.slot f.register) _
  | jz =>
      simp only [Machine.execute, haddress, h.machine]
      split
      · exact hfound.map fun m => { m with counter := _ }
      · exact h
  | ldx =>
      obtain ⟨hword, hread⟩ := hfound.read hmonitor (Machine.effectiveAddress monitor .ldx f s).1
      simp only [Machine.execute, haddress, hword]
      split
      · exact hfound
      · exact hread.map fun m => m.setIndex (Fields.slot f.index) _
  | stx =>
      simp only [Machine.execute, haddress, hfound.machine]
      exact hfound.write hmonitor _ _

/-- One step. -/
theorem stepWith :
    (stepWith monitor s').1 = (Machine.stepWith monitor s).1 ∧
      Corresponds R (Machine.stepWith monitor s).2 (Machine.stepWith monitor s').2 := by
  obtain ⟨hword, hread⟩ := h.read hmonitor s.1.counter
  cases hhalted : s.1.halted with
  | true => simpa only [Machine.stepWith, h.machine, hhalted, if_true, true_and] using h
  | false =>
      let word := (Machine.read monitor s.1.counter s).1
      have htold : Corresponds R
          ((Machine.read monitor s.1.counter s).2.1.latch word,
            monitor.fetched s.1.counter word (Machine.read monitor s.1.counter s).2.2)
          ((Machine.read monitor s.1.counter s').2.1.latch word,
            monitor.fetched s.1.counter word (Machine.read monitor s.1.counter s').2.2) :=
        ⟨congrArg (fun m => m.latch word) hread.machine,
          hmonitor.fetched s.1.counter word _ _ hread.host⟩
      simp only [Machine.stepWith, h.machine, hhalted, Bool.false_eq_true, if_false, hword]
      cases Operation.ofOpcode? (Fields.ofWord word).opcode with
      | none => exact ⟨rfl, htold.map fun m => { m with halted := true }⟩
      | some op =>
          have hexecuted := htold.execute hmonitor (Fields.ofWord word) op
          exact ⟨rfl, hmonitor.stepped _ _ hexecuted⟩

end Corresponds

end WordMachine
