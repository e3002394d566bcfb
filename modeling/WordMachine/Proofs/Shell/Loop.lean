import WordMachine.Proofs.Shell.Quitting

/-!
# The loop of a session

Before each step a session looks whether the shell has quit, whether the machine has halted, and
whether its budget is used up. Each way to go on from there gives one equation, for the loop and for
the list of its steps alike.
-/

namespace WordMachine.Shell

variable {tracing : Bool} {limit : Int} {budget : Nat} {s next : Machine × Shell} {fault : Fault}

/-- The session goes on only if the shell has not quit and the machine has not halted. -/
def GoesOn (s : Machine × Shell) : Prop := s.2.quit = false ∧ s.1.halted = false

theorem goesOn_iff : GoesOn s ↔ (s.2.quit || s.1.halted) = false := Bool.or_eq_false_iff.symm

theorem stop_of_not_goesOn (h : ¬ GoesOn s) : (s.2.quit || s.1.halted) = true := by
  rw [goesOn_iff, Bool.not_eq_false] at h
  exact h

theorem proceed_of_stop (h : ¬ GoesOn s) : proceed tracing limit budget s = (none, s) := by
  rw [proceed.eq_def]
  simp only [stop_of_not_goesOn h, if_true]

theorem proceed_zero (h : GoesOn s) :
    proceed tracing limit 0 s = (some (.stepLimit limit), s) := by
  simp [proceed, goesOn_iff.mp h]

theorem proceed_of_fault (h : GoesOn s)
    (hstep : Machine.stepWith (monitor tracing) s = (some fault, next)) :
    proceed tracing limit (budget + 1) s =
      (some fault, (next.1, next.2.showRegisters next.1)) := by
  rw [proceed.eq_def]
  simp only [goesOn_iff.mp h, hstep, Bool.false_eq_true, if_false]

theorem proceed_of_step (h : GoesOn s)
    (hstep : Machine.stepWith (monitor tracing) s = (none, next)) :
    proceed tracing limit (budget + 1) s = proceed tracing limit budget next := by
  rw [proceed.eq_def]
  simp only [goesOn_iff.mp h, hstep, Bool.false_eq_true, if_false]

theorem stepStarts_of_stop (h : ¬ GoesOn s) : stepStarts tracing budget s = [] := by
  rw [stepStarts.eq_def]
  simp only [stop_of_not_goesOn h, if_true]

theorem stepStarts_zero (s : Machine × Shell) : stepStarts tracing 0 s = [] := by
  simp [stepStarts]

theorem stepStarts_of_fault (h : GoesOn s)
    (hstep : Machine.stepWith (monitor tracing) s = (some fault, next)) :
    stepStarts tracing (budget + 1) s = [s] := by
  rw [stepStarts.eq_def]
  simp only [goesOn_iff.mp h, hstep, Bool.false_eq_true, if_false]

theorem stepStarts_of_step (h : GoesOn s)
    (hstep : Machine.stepWith (monitor tracing) s = (none, next)) :
    stepStarts tracing (budget + 1) s = s :: stepStarts tracing budget next := by
  rw [stepStarts.eq_def]
  simp only [goesOn_iff.mp h, hstep, Bool.false_eq_true, if_false]

end WordMachine.Shell
