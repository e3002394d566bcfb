import WordMachine.Proofs.Machine.Execution

/-!
# Runs, step by step

A run is its steps, together with what is reported at their end. For a machine that nobody looks on
at, both are given in terms of single steps of the machine.
-/

namespace WordMachine.Machine

/-- The machine after a number of steps. -/
def afterSteps : Nat → Machine → Machine
  | 0, m => m
  | n + 1, m => m.step.2.afterSteps n

/-- The fault that a run reports for the way in which its steps end. -/
def Ending.fault (limit : Int) : Ending → Option Fault
  | halted => none
  | failed fault => some fault
  | running => some (.stepLimit limit)

theorem runWith_eq_runSteps {σ : Type} (monitor : Monitor σ) (limit : Int) (s : Machine × σ) :
    runWith monitor limit s =
      ((runSteps monitor (budget limit) s).1.fault limit,
        (runSteps monitor (budget limit) s).2) := by
  unfold runWith
  rcases runSteps monitor (budget limit) s with ⟨ending, last⟩
  cases ending <;> rfl

theorem run_eq_runSteps (limit : Int) (m : Machine) :
    m.run limit =
      ((runSteps (Monitor.silent Unit) (budget limit) (m, ())).1.fault limit,
        (runSteps (Monitor.silent Unit) (budget limit) (m, ())).2.1) := by
  rw [run, runWith_eq_runSteps]

theorem runSteps_of_halted {m : Machine} (hm : m.halted = true) (budget : Nat) :
    runSteps (Monitor.silent Unit) budget (m, ()) = (.halted, (m, ())) := by
  unfold runSteps
  rw [if_pos hm]

theorem runSteps_zero {m : Machine} (hm : m.halted = false) :
    runSteps (Monitor.silent Unit) 0 (m, ()) = (.running, (m, ())) := by
  simp [runSteps, hm]

theorem runSteps_of_fault {m : Machine} {fault : Fault} (hm : m.halted = false)
    (hfault : m.step.1 = some fault) (budget : Nat) :
    runSteps (Monitor.silent Unit) (budget + 1) (m, ()) = (.failed fault, (m.step.2, ())) := by
  have hstep : stepWith (Monitor.silent Unit) (m, ()) = (m.step.1, m.step.2, ()) := rfl
  simp [runSteps, hm, hstep, hfault]

theorem runSteps_of_step {m : Machine} (hm : m.halted = false) (hfault : m.step.1 = none)
    (budget : Nat) :
    runSteps (Monitor.silent Unit) (budget + 1) (m, ()) =
      runSteps (Monitor.silent Unit) budget (m.step.2, ()) := by
  have hstep : stepWith (Monitor.silent Unit) (m, ()) = (m.step.1, m.step.2, ()) := rfl
  rw [runSteps.eq_def]
  simp [hm, hstep, hfault]

end WordMachine.Machine
