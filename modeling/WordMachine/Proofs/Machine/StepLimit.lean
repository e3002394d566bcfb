import WordMachine.Proofs.Machine.Running

/-!
# Runs with a step limit

A run takes the steps of its machine one by one up to the first that fails or halts the machine.
Only if all the steps that a limit allows go by without either is the limit reported; a machine that
stops with the last of them has not reached the limit. A run that has reached its limit can
therefore be taken up again where it was left, and both parts together are one run.

## Implementation notes

A run without a limit is given `Machine.patience` steps, after which a machine would go on. Of such
runs only those of a halted machine are spoken of here, which take no step.
-/

namespace WordMachine

/-- The same fault, with another limit if it is about a limit. -/
def Fault.withLimit (limit : Int) : Fault → Fault
  | stepLimit _ => stepLimit limit
  | fault => fault

namespace Machine

/-- The first `n` steps succeed, and none of them halts the machine. -/
def RunsOn (m : Machine) (n : Nat) : Prop :=
  ∀ k < n, (m.afterSteps k).step.1 = none ∧ (m.afterSteps (k + 1)).halted = false

/-- Of the steps counted from zero, step `k` is the first that fails or halts the machine. -/
structure StopsAt (m : Machine) (k : Nat) : Prop where
  runsOn : m.RunsOn k
  stops : (m.afterSteps k).step.1 ≠ none ∨ (m.afterSteps (k + 1)).halted = true

variable {m : Machine} {n k : Nat}

/-! ## Steps in a row -/

theorem step_fault_ne_stepLimit (m : Machine) (limit : Int) :
    m.step.1 ≠ some (.stepLimit limit) := by
  cases hm : m.halted with
  | true => simp [step_of_halted hm]
  | false =>
      cases hop : Operation.ofOpcode? (Fields.ofWord (m.memory.read m.counter)).opcode with
      | none => simp [step_of_illegal hm hop]
      | some op => simp [step_of_operation hm hop]

theorem halted_eq_false_of_step (h : m.step.1 = none) : m.halted = false := by
  rw [← Bool.not_eq_true]
  intro hm
  rw [step_of_halted hm] at h
  cases h

/-- A machine is halted after a step that fails. -/
theorem halted_of_step_isSome (h : m.step.1.isSome = true) : m.step.2.halted = true := by
  cases hm : m.halted with
  | true => rwa [step_of_halted hm]
  | false =>
      cases hop : Operation.ofOpcode? (Fields.ofWord (m.memory.read m.counter)).opcode with
      | none => rw [step_of_illegal hm hop]
      | some op =>
          rw [step_of_operation hm hop] at h
          cases h

theorem afterSteps_of_halted (hm : m.halted = true) (n : Nat) : m.afterSteps n = m := by
  induction n with
  | zero => rfl
  | succ n ih => rw [afterSteps, step_of_halted hm, ih]

theorem afterSteps_succ (m : Machine) (n : Nat) :
    m.afterSteps (n + 1) = (m.afterSteps n).step.2 := by
  induction n generalizing m with
  | zero => rfl
  | succ n ih => exact ih m.step.2

theorem runsOn_succ_iff :
    m.RunsOn (n + 1) ↔ m.step.1 = none ∧ m.step.2.halted = false ∧ m.step.2.RunsOn n := by
  constructor
  · intro h
    obtain ⟨hfault, hhalted⟩ := h 0 (Nat.succ_pos n)
    exact ⟨hfault, hhalted, fun k hk => h (k + 1) (Nat.succ_lt_succ hk)⟩
  · rintro ⟨hfault, hhalted, hrest⟩ k hk
    cases k with
    | zero => exact ⟨hfault, hhalted⟩
    | succ k => exact hrest k (Nat.lt_of_succ_lt_succ hk)

theorem RunsOn.halted_eq_false (h : m.RunsOn n) (hn : 0 < n) : m.halted = false :=
  halted_eq_false_of_step (h 0 hn).1

/-- No step fails or halts the machine before one that succeeds. -/
theorem runsOn_of_step (h : (m.afterSteps n).step.1 = none) : m.RunsOn n := by
  induction n generalizing m with
  | zero => exact fun k hk => absurd hk (Nat.not_lt_zero k)
  | succ n ih =>
      have hrest : (m.step.2.afterSteps n).step.1 = none := h
      have hhalted : m.step.2.halted = false := by
        rw [← Bool.not_eq_true]
        intro hm
        rw [afterSteps_of_halted hm, step_of_halted hm] at hrest
        cases hrest
      have hfault : m.step.1 = none := by
        cases hstep : m.step.1 with
        | none => rfl
        | some fault =>
            have hm := halted_of_step_isSome (Option.isSome_iff_exists.mpr ⟨fault, hstep⟩)
            exact absurd (hm.symm.trans hhalted) (by decide)
      exact runsOn_succ_iff.mpr ⟨hfault, hhalted, ih hrest⟩

theorem exists_stopsAt (h : ¬ m.RunsOn n) : ∃ k < n, m.StopsAt k := by
  induction n with
  | zero => exact absurd (fun k hk => absurd hk (Nat.not_lt_zero k)) h
  | succ n ih =>
      by_cases hn : m.RunsOn n
      · refine ⟨n, Nat.lt_succ_self n, hn, ?_⟩
        -- All earlier steps go by, so that the last one does not.
        have hlast : ¬ ((m.afterSteps n).step.1 = none ∧
            (m.afterSteps (n + 1)).halted = false) := by
          intro hgoes
          apply h
          intro k hk
          rcases Nat.lt_or_eq_of_le (Nat.le_of_lt_succ hk) with hlt | rfl
          · exact hn k hlt
          · exact hgoes
        exact (Decidable.not_and_iff_or_not.mp hlast).imp id eq_true_of_ne_false
      · obtain ⟨k, hk, hstops⟩ := ih hn
        exact ⟨k, by omega, hstops⟩

/-! ## Runs -/

/-- How a run ends with a step that is its last one. -/
def Ending.ofStep : Option Fault → Ending
  | none => .halted
  | some fault => .failed fault

theorem Ending.fault_ofStep (limit : Int) (fault : Option Fault) :
    (ofStep fault).fault limit = fault := by
  cases fault <;> rfl

theorem runSteps_of_runsOn (hm : m.halted = false) (h : m.RunsOn n) :
    runSteps (Monitor.silent Unit) n (m, ()) = (.running, (m.afterSteps n, ())) := by
  induction n generalizing m with
  | zero => exact runSteps_zero hm
  | succ n ih =>
      obtain ⟨hfault, hhalted, hrest⟩ := runsOn_succ_iff.mp h
      rw [runSteps_of_step hm hfault, ih hhalted hrest]
      rfl

/-- A run ends with the first step that fails or halts the machine. -/
theorem runSteps_of_stopsAt (hm : m.halted = false) (h : m.StopsAt k) (hk : k < n) :
    runSteps (Monitor.silent Unit) n (m, ()) =
      (.ofStep (m.afterSteps k).step.1, (m.afterSteps (k + 1), ())) := by
  obtain ⟨n, rfl⟩ : ∃ budget, n = budget + 1 := ⟨n - 1, by omega⟩
  induction k generalizing m n with
  | zero =>
      cases hfault : m.step.1 with
      | some fault =>
          rw [runSteps_of_fault hm hfault]
          simp only [afterSteps, hfault, Ending.ofStep]
      | none =>
          have hhalted : m.step.2.halted = true := h.stops.resolve_left (not_not_intro hfault)
          rw [runSteps_of_step hm hfault, runSteps_of_halted hhalted]
          simp only [afterSteps, hfault, Ending.ofStep]
  | succ k ih =>
      obtain ⟨hfault, hhalted, hrest⟩ := runsOn_succ_iff.mp h.runsOn
      obtain ⟨n, rfl⟩ : ∃ budget, n = budget + 1 := ⟨n - 1, by omega⟩
      rw [runSteps_of_step hm hfault, ih hhalted ⟨hrest, h.stops⟩ n (by omega)]
      rfl

/-- No step of a run fails because of a limit. -/
theorem runSteps_ne_stepLimit (m : Machine) (n : Nat) (limit : Int) :
    (runSteps (Monitor.silent Unit) n (m, ())).1 ≠ .failed (.stepLimit limit) := by
  cases hm : m.halted with
  | true => simp [runSteps_of_halted hm]
  | false =>
      by_cases hruns : m.RunsOn n
      · simp [runSteps_of_runsOn hm hruns]
      · obtain ⟨k, hk, hstops⟩ := exists_stopsAt hruns
        rw [runSteps_of_stopsAt hm hstops hk]
        have hfault := step_fault_ne_stepLimit (m.afterSteps k) limit
        cases hstep : (m.afterSteps k).step.1 with
        | none => simp [Ending.ofStep]
        | some fault =>
            rw [hstep] at hfault
            simpa [Ending.ofStep] using hfault

variable {σ : Type}

/-- Goes on with a run that has used up its steps. -/
def resume (monitor : Monitor σ) (budget : Nat) :
    Ending × (Machine × σ) → Ending × (Machine × σ)
  | (.running, s) => runSteps monitor budget s
  | stopped => stopped

/-- Running with two budgets, one after the other, is running with their sum. -/
theorem runSteps_add (monitor : Monitor σ) (a b : Nat) (s : Machine × σ) :
    runSteps monitor (a + b) s = resume monitor b (runSteps monitor a s) := by
  induction a generalizing s with
  | zero =>
      rw [Nat.zero_add]
      cases hs : s.1.halted with
      | true => simp [runSteps.eq_def monitor _ s, hs, resume]
      | false => simp [runSteps.eq_def monitor 0 s, hs, resume]
  | succ a ih =>
      rw [Nat.succ_add, runSteps.eq_def monitor (a + b).succ, runSteps.eq_def monitor (a + 1)]
      cases hs : s.1.halted with
      | true => simp [hs, resume]
      | false =>
          rcases hstep : stepWith monitor s with ⟨_ | fault, next⟩
          · simpa [hs, hstep] using ih next
          · simp [hs, hstep, resume]

/-! ## Limits -/

theorem Ending.map_withLimit {ending : Ending} (h : ∀ limit, ending ≠ .failed (.stepLimit limit))
    (a b : Int) : (ending.fault a).map (Fault.withLimit b) = ending.fault b := by
  cases ending with
  | halted => rfl
  | running => rfl
  | failed fault =>
      cases fault with
      | stepLimit limit => exact absurd rfl (h limit)
      | halted => rfl
      | illegalOpcode address word => rfl

theorem budget_of_pos (hn : 0 < n) : budget n = n := by
  simp [budget, hn]

theorem run_of_halted (hm : m.halted = true) (limit : Int) : m.run limit = (none, m) := by
  rw [run_eq_runSteps, runSteps_of_halted hm]
  rfl

theorem run_of_runsOn (hn : 0 < n) (h : m.RunsOn n) :
    m.run n = (some (.stepLimit n), m.afterSteps n) := by
  rw [run_eq_runSteps, budget_of_pos hn, runSteps_of_runsOn (h.halted_eq_false hn) h]
  rfl

theorem run_of_stopsAt (hm : m.halted = false) (h : m.StopsAt k) (hk : k < n) :
    m.run n = ((m.afterSteps k).step.1, m.afterSteps (k + 1)) := by
  rw [run_eq_runSteps, budget_of_pos (by omega), runSteps_of_stopsAt hm h hk, Ending.fault_ofStep]

/-- The limit is reported exactly if all the steps that it allows go by. -/
theorem run_reports_limit_iff (hn : 0 < n) :
    (∃ limit, (m.run n).1 = some (.stepLimit limit)) ↔ m.RunsOn n := by
  constructor
  · rintro ⟨limit, hlimit⟩
    cases hm : m.halted with
    | true =>
        rw [run_of_halted hm] at hlimit
        cases hlimit
    | false =>
        by_cases hruns : m.RunsOn n
        · exact hruns
        · obtain ⟨k, hk, hstops⟩ := exists_stopsAt hruns
          rw [run_of_stopsAt hm hstops hk] at hlimit
          exact absurd hlimit (step_fault_ne_stepLimit _ limit)
  · intro h
    exact ⟨n, by rw [run_of_runsOn hn h]⟩

/-- A run that has reached its limit goes on as a run of its own. -/
theorem run_add_of_runsOn {a b : Nat} (ha : 0 < a) (hb : 0 < b) (h : m.RunsOn a) :
    m.run (a + b : Nat) =
      (((m.run a).2.run b).1.map (Fault.withLimit (a + b : Nat)), ((m.run a).2.run b).2) := by
  have hparts : runSteps (Monitor.silent Unit) (a + b) (m, ()) =
      runSteps (Monitor.silent Unit) b (m.afterSteps a, ()) := by
    rw [runSteps_add, runSteps_of_runsOn (h.halted_eq_false ha) h]
    rfl
  rw [run_of_runsOn ha h, run_eq_runSteps, run_eq_runSteps, budget_of_pos (by omega),
    budget_of_pos hb, hparts, Ending.map_withLimit (runSteps_ne_stepLimit _ b)]

/-- A run that has stopped is not changed by a greater limit. -/
theorem run_add_of_not_runsOn {a b : Nat} (h : ¬ m.RunsOn a) : m.run (a + b : Nat) = m.run a := by
  cases hm : m.halted with
  | true => rw [run_of_halted hm, run_of_halted hm]
  | false =>
      obtain ⟨k, hk, hstops⟩ := exists_stopsAt h
      rw [run_of_stopsAt hm hstops hk, run_of_stopsAt hm hstops (by omega)]

end Machine

/-- Runs count their steps exactly, and a run can be cut in two. With limits `a` and `b`:
the run reports its limit exactly if `a` steps in a row succeed without halting the machine;
otherwise a machine that is not halted is left by the first step that halts it or fails, with the
fault of that step. After a run that has reached its limit, a run with the limit `b` ends as the
whole run does, up to the limit that it names; and a run that has stopped is the whole run. A halted
machine stays as it is. -/
theorem run_counts_steps_and_composes (m : Machine) (a b : Nat) (ha : 0 < a) (hb : 0 < b) :
    ((∃ limit, (m.run a).1 = some (.stepLimit limit)) ↔ m.RunsOn a) ∧
    (m.RunsOn a → m.run a = (some (.stepLimit a), m.afterSteps a)) ∧
    (¬ m.RunsOn a → m.halted = false →
      ∃ k < a, m.StopsAt k ∧ m.run a = ((m.afterSteps k).step.1, m.afterSteps (k + 1))) ∧
    ((∃ limit, (m.run a).1 = some (.stepLimit limit)) →
      m.run (a + b : Nat) =
        (((m.run a).2.run b).1.map (Fault.withLimit (a + b : Nat)), ((m.run a).2.run b).2)) ∧
    ((¬ ∃ limit, (m.run a).1 = some (.stepLimit limit)) → m.run (a + b : Nat) = m.run a) ∧
    (m.halted = true → m.step = (some .halted, m) ∧ ∀ limit : Int, m.run limit = (none, m)) := by
  refine ⟨Machine.run_reports_limit_iff ha, Machine.run_of_runsOn ha, ?_, ?_, ?_, ?_⟩
  · intro hstopped hm
    obtain ⟨k, hk, hstops⟩ := Machine.exists_stopsAt hstopped
    exact ⟨k, hk, hstops, Machine.run_of_stopsAt hm hstops hk⟩
  · intro hlimit
    exact Machine.run_add_of_runsOn ha hb ((Machine.run_reports_limit_iff ha).mp hlimit)
  · intro hlimit
    exact Machine.run_add_of_not_runsOn (mt (Machine.run_reports_limit_iff ha).mpr hlimit)
  · intro hm
    exact ⟨Machine.step_of_halted hm, Machine.run_of_halted hm⟩

/-- A machine that loads a register with an address and then stops. -/
def loadThenStop : Machine := Machine.initial.store 0 3073

/-- The machine stops with its second step. So a limit of one is reported and a limit of two is not,
and the run with the limit two ends as the run with the limit one does when it is taken up again. -/
theorem loadThenStop_run :
    (loadThenStop.run 1).1 = some (.stepLimit 1) ∧ (loadThenStop.run 2).1 = none ∧
      ¬ loadThenStop.RunsOn 2 ∧
      loadThenStop.run 2 =
        (((loadThenStop.run 1).2.run 1).1.map (Fault.withLimit 2),
          ((loadThenStop.run 1).2.run 1).2) := by
  have hone : (loadThenStop.run 1).1 = some (.stepLimit 1) := by decide +kernel
  have htwo : (loadThenStop.run 2).1 = none := by decide +kernel
  obtain ⟨-, -, -, hcomposes, -, -⟩ :=
    run_counts_steps_and_composes loadThenStop 1 1 (by decide) (by decide)
  obtain ⟨hreports, -⟩ :=
    run_counts_steps_and_composes loadThenStop 2 1 (by decide) (by decide)
  refine ⟨hone, htwo, ?_, hcomposes ⟨1, hone⟩⟩
  intro hruns
  obtain ⟨limit, hlimit⟩ := hreports.mpr hruns
  cases htwo.symm.trans hlimit

end WordMachine
