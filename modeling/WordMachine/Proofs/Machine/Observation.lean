import WordMachine.Proofs.Machine.Running

/-!
# Machines under observation

A monitor that leaves the machine alone learns of a run through *signals*: a reading, a writing, a
fetched instruction, the end of a step. Which signals there are, and in which state the machine then
is, depends on the machine alone. So every access, every instruction and every run does to the
machine what it does with nobody looking on, and the monitor ends up in the state in which the
signals, heard one after the other, leave it.

## Implementation notes

A monitor may leave the machine alone only as long as its own state permits, so a predicate on that
state goes along with all statements. A monitor that never touches the machine has the predicate
that is always true.
-/

namespace WordMachine

/-! ## Signals -/

/-- What a monitor is told. -/
inductive Signal where
  | reading (address : Word)
  | written (address : Word)
  | fetched (address word : Word)
  | stepped
  deriving DecidableEq, Repr

/-- The state of a monitor that has heard a signal, while the machine is in the given state. -/
def Monitor.hear {σ : Type} (monitor : Monitor σ) (host : σ) : Machine × Signal → σ
  | (m, .reading address) => (monitor.reading address (m, host)).2
  | (m, .written address) => (monitor.written address (m, host)).2
  | (_, .fetched address word) => monitor.fetched address word host
  | (m, .stepped) => (monitor.stepped (m, host)).2

namespace Machine

/-- The address that an instruction refers to. -/
def operandAddress (op : Operation) (f : Fields) (m : Machine) : Word :=
  if f.indirect then m.memory.read (baseAddress op f m) else baseAddress op f m

/-- The signals of finding that address: an indirect instruction reads it from memory. -/
def addressSignals (op : Operation) (f : Fields) (m : Machine) : List (Machine × Signal) :=
  if f.indirect then [(m, .reading (baseAddress op f m))] else []

/-- The signals of carrying out an operation. -/
def executeSignals (f : Fields) (op : Operation) (m : Machine) : List (Machine × Signal) :=
  let address := operandAddress op f m
  match op with
  | .hlt => []
  | .lda => addressSignals op f m
  | .ldr => addressSignals op f m ++ [(m, .reading address)]
  | .str =>
    addressSignals op f m ++
      [(m.store address (m.registers.get (Fields.slot f.register)), .written address)]
  | .stx =>
    addressSignals op f m ++
      [(m.store address (m.index.get (Fields.slot f.index)), .written address)]
  | .jz => if m.registers.get (Fields.slot f.register) = 0 then addressSignals op f m else []
  | .ldx =>
    if f.index = 0 then addressSignals op f m
    else addressSignals op f m ++ [(m, .reading address)]

/-- The signals of one step. A step that fails has no end. -/
def stepSignals (m : Machine) : List (Machine × Signal) :=
  if m.halted then []
  else
    let word := m.memory.read m.counter
    let f := Fields.ofWord word
    (m, .reading m.counter) :: (m.latch word, .fetched m.counter word) ::
      match Operation.ofOpcode? f.opcode with
      | none => []
      | some op => executeSignals f op (m.latch word) ++ [(m.step.2, .stepped)]

theorem stepSignals_of_halted {m : Machine} (hm : m.halted = true) : m.stepSignals = [] := by
  simp only [stepSignals, hm, if_true]

theorem stepSignals_of_illegal {m : Machine} (hm : m.halted = false)
    (hop : Operation.ofOpcode? (Fields.ofWord (m.memory.read m.counter)).opcode = none) :
    m.stepSignals =
      [(m, .reading m.counter),
        (m.latch (m.memory.read m.counter), .fetched m.counter (m.memory.read m.counter))] := by
  simp [stepSignals, hm, hop]

theorem stepSignals_of_operation {m : Machine} {op : Operation} (hm : m.halted = false)
    (hop : Operation.ofOpcode? (Fields.ofWord (m.memory.read m.counter)).opcode = some op) :
    m.stepSignals =
      [(m, .reading m.counter),
        (m.latch (m.memory.read m.counter), .fetched m.counter (m.memory.read m.counter))] ++
      (executeSignals (Fields.ofWord (m.memory.read m.counter)) op
        (m.latch (m.memory.read m.counter)) ++ [(m.step.2, .stepped)]) := by
  simp [stepSignals, hm, hop]

/-- The signals of at most `budget` steps. -/
def runSignals : Nat → Machine → List (Machine × Signal)
  | 0, _ => []
  | budget + 1, m =>
    m.stepSignals ++ if m.step.1.isSome then [] else runSignals budget m.step.2

theorem runSignals_of_halted {m : Machine} (hm : m.halted = true) (budget : Nat) :
    runSignals budget m = [] := by
  cases budget with
  | zero => rfl
  | succ budget => simp [runSignals, stepSignals_of_halted hm, step_of_halted hm]

end Machine

/-- A monitor that leaves the machine as it is while its own state is `Ok`, and that stays `Ok`
whatever it hears. -/
structure Monitor.IsPassiveOn {σ : Type} (monitor : Monitor σ) (Ok : σ → Prop) : Prop where
  reading : ∀ address m host, Ok host → (monitor.reading address (m, host)).1 = m
  written : ∀ address m host, Ok host → (monitor.written address (m, host)).1 = m
  stepped : ∀ m host, Ok host → (monitor.stepped (m, host)).1 = m
  kept : ∀ host signal, Ok host → Ok (monitor.hear host signal)

/-- It is enough to see what becomes of the machine and the monitor together. -/
theorem Monitor.isPassiveOn_of_exists {σ : Type} {monitor : Monitor σ} {Ok : σ → Prop}
    (hreading : ∀ address m host, Ok host →
      ∃ after, monitor.reading address (m, host) = (m, after) ∧ Ok after)
    (hwritten : ∀ address m host, Ok host →
      ∃ after, monitor.written address (m, host) = (m, after) ∧ Ok after)
    (hfetched : ∀ address word host, Ok host → Ok (monitor.fetched address word host))
    (hstepped : ∀ m host, Ok host →
      ∃ after, monitor.stepped (m, host) = (m, after) ∧ Ok after) :
    monitor.IsPassiveOn Ok := by
  constructor
  · intro address m host hok
    obtain ⟨after, heq, -⟩ := hreading address m host hok
    rw [heq]
  · intro address m host hok
    obtain ⟨after, heq, -⟩ := hwritten address m host hok
    rw [heq]
  · intro m host hok
    obtain ⟨after, heq, -⟩ := hstepped m host hok
    rw [heq]
  · rintro host ⟨m, signal⟩ hok
    cases signal with
    | reading address =>
        obtain ⟨after, heq, hafter⟩ := hreading address m host hok
        simpa only [hear, heq] using hafter
    | written address =>
        obtain ⟨after, heq, hafter⟩ := hwritten address m host hok
        simpa only [hear, heq] using hafter
    | fetched address word => exact hfetched address word host hok
    | stepped =>
        obtain ⟨after, heq, hafter⟩ := hstepped m host hok
        simpa only [hear, heq] using hafter

namespace Monitor.IsPassiveOn

open Machine

variable {σ : Type} {monitor : Monitor σ} {Ok : σ → Prop} (h : monitor.IsPassiveOn Ok)
  (m : Machine) {host : σ} (hok : Ok host)

include h hok

theorem foldl_kept (signals : List (Machine × Signal)) : Ok (signals.foldl monitor.hear host) := by
  induction signals generalizing host with
  | nil => exact hok
  | cons signal signals ih => exact ih (h.kept host signal hok)

/-! ## One access -/

theorem read_eq (address : Word) :
    read monitor address (m, host) =
      (m.memory.read address, m, monitor.hear host (m, .reading address)) := by
  have hmachine := h.reading address m host hok
  apply Prod.ext
  · simp only [Machine.read, hmachine]
  · exact Prod.ext hmachine rfl

theorem write_eq (address word : Word) :
    write monitor address word (m, host) =
      (m.store address word, monitor.hear host (m.store address word, .written address)) :=
  Prod.ext (h.written address _ host hok) rfl

theorem stepped_eq : monitor.stepped (m, host) = (m, monitor.hear host (m, .stepped)) :=
  Prod.ext (h.stepped m host hok) rfl

theorem effectiveAddress_eq (op : Operation) (f : Fields) :
    effectiveAddress monitor op f (m, host) =
      (operandAddress op f m, m, (addressSignals op f m).foldl monitor.hear host) := by
  cases hf : f.indirect with
  | false => simp [effectiveAddress, operandAddress, addressSignals, hf]
  | true => simp [effectiveAddress, operandAddress, addressSignals, hf, h.read_eq m hok]

/-! ## One instruction -/

/-- An operation does the same to an observed machine as to an unobserved one. -/
theorem execute_eq (f : Fields) (op : Operation) :
    execute monitor f op (m, host) =
      ((execute (silent Unit) f op (m, ())).1,
        (executeSignals f op m).foldl monitor.hear host) := by
  have haddress := h.effectiveAddress_eq m hok op f
  have hfound := h.foldl_kept hok (addressSignals op f m)
  have hsilent : effectiveAddress (silent Unit) op f (m, ()) = (operandAddress op f m, m, ()) :=
    effectiveAddress_silent op f (m, ())
  cases op with
  | hlt => rfl
  | ldr =>
      simp only [execute, executeSignals, haddress, hsilent, h.read_eq m hfound, read_silent,
        List.foldl_append, List.foldl_cons, List.foldl_nil]
  | str =>
      simp only [execute, executeSignals, haddress, hsilent, h.write_eq m hfound, write_silent,
        List.foldl_append, List.foldl_cons, List.foldl_nil]
  | lda => simp only [execute, executeSignals, haddress, hsilent]
  | jz =>
      by_cases hzero : m.registers.get (Fields.slot f.register) = 0
      · simp only [execute, executeSignals, hzero, if_true, haddress, hsilent]
      · simp only [execute, executeSignals, hzero, if_false, List.foldl_nil]
  | stx =>
      simp only [execute, executeSignals, haddress, hsilent, h.write_eq m hfound, write_silent,
        List.foldl_append, List.foldl_cons, List.foldl_nil]
  | ldx =>
      by_cases hindex : f.index = 0
      · simp only [execute, executeSignals, haddress, hsilent, hindex, if_true]
      · simp only [execute, executeSignals, haddress, hsilent, hindex, if_false,
          h.read_eq m hfound, read_silent, List.foldl_append, List.foldl_cons, List.foldl_nil]

/-- A step ends for an observed machine as it does for an unobserved one. -/
theorem stepWith_eq :
    stepWith monitor (m, host) =
      (m.step.1, m.step.2, m.stepSignals.foldl monitor.hear host) := by
  cases hm : m.halted with
  | true =>
      rw [step_of_halted hm, stepSignals_of_halted hm]
      simp [stepWith, hm]
  | false =>
      let word := m.memory.read m.counter
      let told := monitor.hear (monitor.hear host (m, .reading m.counter))
        (m.latch word, .fetched m.counter word)
      have hfetch := h.read_eq m hok m.counter
      have htold : Ok told := h.kept _ _ (h.kept _ _ hok)
      cases hop : Operation.ofOpcode? (Fields.ofWord word).opcode with
      | none =>
          rw [step_of_illegal hm hop, stepSignals_of_illegal hm hop]
          simp only [stepWith, hm, hfetch, hop, word]
          rfl
      | some op =>
          let heard := (executeSignals (Fields.ofWord word) op (m.latch word)).foldl
            monitor.hear told
          have hexecute := h.execute_eq (m.latch word) htold (Fields.ofWord word) op
          have hheard : Ok heard := h.foldl_kept htold _
          have hstep := step_of_operation hm hop
          calc
            stepWith monitor (m, host) =
                (none, monitor.stepped (execute monitor (Fields.ofWord word) op
                  (m.latch word, told))) := by
              simp only [stepWith, hm, hfetch, hop, word]
              rfl
            _ = (none, monitor.stepped (m.step.2, heard)) := by
              rw [hexecute, hstep]
            _ = (m.step.1, m.step.2, monitor.hear heard (m.step.2, .stepped)) := by
              rw [h.stepped_eq m.step.2 hheard, hstep]
            _ = (m.step.1, m.step.2, m.stepSignals.foldl monitor.hear host) := by
              rw [stepSignals_of_operation hm hop, List.foldl_append, List.foldl_append]
              rfl

/-! ## Whole runs -/

theorem runSteps_eq (budget : Nat) :
    runSteps monitor budget (m, host) =
      ((runSteps (silent Unit) budget (m, ())).1, (runSteps (silent Unit) budget (m, ())).2.1,
        (runSignals budget m).foldl monitor.hear host) := by
  induction budget generalizing m host with
  | zero => cases hm : m.halted <;> simp [runSteps, runSignals, hm]
  | succ budget ih =>
      cases hm : m.halted with
      | true => simp [runSteps, hm, runSignals_of_halted hm]
      | false =>
          have hstep := h.stepWith_eq m hok
          cases hfault : m.step.1 with
          | some fault =>
              rw [runSteps_of_fault hm hfault]
              simp [runSteps, runSignals, hm, hstep, hfault]
          | none =>
              have hrest := ih m.step.2 (h.foldl_kept hok m.stepSignals)
              rw [runSteps_of_step hm hfault]
              simp [runSteps, runSignals, hm, hstep, hfault, hrest]

/-- A run ends for an observed machine as it does for an unobserved one. -/
theorem runWith_eq (limit : Int) :
    runWith monitor limit (m, host) =
      ((m.run limit).1, (m.run limit).2,
        (runSignals (budget limit) m).foldl monitor.hear host) := by
  rw [runWith_eq_runSteps, run_eq_runSteps, h.runSteps_eq m hok (budget limit)]

end Monitor.IsPassiveOn

/-! ## Monitors that never touch the machine -/

/-- A monitor that leaves the machine as it is. -/
structure Monitor.IsPassive {σ : Type} (monitor : Monitor σ) : Prop where
  reading : ∀ address s, (monitor.reading address s).1 = s.1
  written : ∀ address s, (monitor.written address s).1 = s.1
  stepped : ∀ s, (monitor.stepped s).1 = s.1

namespace Monitor.IsPassive

variable {σ : Type} {monitor : Monitor σ} (h : monitor.IsPassive)

include h

/-- A monitor that leaves the machine alone does so whatever else is true of its state. -/
theorem on {Ok : σ → Prop} (hkept : ∀ host signal, Ok host → Ok (monitor.hear host signal)) :
    monitor.IsPassiveOn Ok :=
  { reading := fun address m host _ => h.reading address (m, host)
    written := fun address m host _ => h.written address (m, host)
    stepped := fun m host _ => h.stepped (m, host)
    kept := hkept }

theorem stepWith_eq (m : Machine) (host : σ) :
    ∃ after, Machine.stepWith monitor (m, host) = (m.step.1, m.step.2, after) :=
  have hon : monitor.IsPassiveOn fun _ => True := h.on fun _ _ _ => trivial
  ⟨_, hon.stepWith_eq m trivial⟩

theorem runWith_eq (m : Machine) (host : σ) (limit : Int) :
    ∃ after, Machine.runWith monitor limit (m, host) =
      ((m.run limit).1, (m.run limit).2, after) :=
  have hon : monitor.IsPassiveOn fun _ => True := h.on fun _ _ _ => trivial
  ⟨_, hon.runWith_eq m trivial limit⟩

end Monitor.IsPassive

end WordMachine
