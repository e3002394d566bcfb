import WordMachine.Proofs.Machine.StepLimit
import WordMachine.Proofs.Shell.Loop

/-!
# Going on from a prompt

A prompt is left by telling the machine to go on, either for one step or until it is stopped. As
long as no access to memory is watched, the machine then takes the steps that it would take with
nobody looking on. After a `next` there is a prompt at the end of the step. After a `continue` the
next prompt is at the end of the first step that leaves the program counter at a breakpoint, and
there is none if the machine stops before.

## Implementation notes

What a session does between two of its states is told with the steps that it takes in between:
where each of them starts, and how many prompts there have been by then. Such a statement holds for
every budget that is large enough, so it covers sessions with and without a step limit.
-/

namespace WordMachine

/-- Of the steps counted from zero, step `n` succeeds and leaves the program counter at one of some
addresses. -/
def Machine.ReachesBreak (m : Machine) (breakpoints : List Word) (n : Nat) : Prop :=
  (m.afterSteps n).step.1 = none ∧ (m.afterSteps (n + 1)).counter ∈ breakpoints

theorem Machine.counter_not_mem_of_step {m : Machine} {breakpoints : List Word} {n : Nat}
    (hstep : (m.afterSteps n).step.1 = none) (h : ¬ m.ReachesBreak breakpoints n) :
    (m.afterSteps n).step.2.counter ∉ breakpoints := by
  intro hreached
  rw [← Machine.afterSteps_succ] at hreached
  exact h ⟨hstep, hreached⟩

theorem Machine.RunsOn.halted_afterSteps {m : Machine} {n : Nat} (h : m.RunsOn n)
    (hm : m.halted = false) : (m.afterSteps n).halted = false := by
  cases n with
  | zero => exact hm
  | succ n => exact (h n (Nat.lt_succ_self n)).2

theorem Machine.StopsAt.halted {m : Machine} {n : Nat} (h : m.StopsAt n)
    (hstep : (m.afterSteps n).step.1 = none) : (m.afterSteps (n + 1)).halted = true :=
  h.stops.resolve_left (not_not_intro hstep)

/-- The same monitor, which is not told of the ends of steps. -/
def Monitor.withoutEnds {σ : Type} (monitor : Monitor σ) : Monitor σ :=
  { monitor with stepped := fun s => s }

/-- The end of a step comes after all else, and only if the step does not fail. -/
theorem Machine.stepWith_eq_withoutEnds {σ : Type} (monitor : Monitor σ) (s : Machine × σ) :
    stepWith monitor s =
      match stepWith monitor.withoutEnds s with
      | (some fault, s) => (some fault, s)
      | (none, s) => (none, monitor.stepped s) := by
  have hexecute (f : Fields) (op : Operation) (s : Machine × σ) :
      execute monitor.withoutEnds f op s = execute monitor f op s := by
    cases op <;> rfl
  rcases hread : read monitor s.1.counter s with ⟨word, m, host⟩
  have hread' : read monitor.withoutEnds s.1.counter s = (word, m, host) := hread
  cases hm : s.1.halted with
  | true => simp [stepWith, hm]
  | false =>
      cases hop : Operation.ofOpcode? (Fields.ofWord word).opcode with
      | none =>
          simp only [stepWith, hm, hread, hread', hop]
          rfl
      | some op =>
          simp only [stepWith, hm, hread, hread', hop, hexecute]
          rfl

namespace Shell

/-! ## Steps in a row -/

/-- The machine of a session, and the number of prompts that there have been. -/
def progress (s : Machine × Shell) : Machine × Nat := (s.1, s.2.prompts)

/-- From one state a session gets to another by steps that start as listed. -/
structure Leads (tracing : Bool) (limit : Int) (starts : List (Machine × Nat))
    (s t : Machine × Shell) : Prop where
  result : ∀ budget,
    proceed tracing limit (starts.length + budget) s = proceed tracing limit budget t
  steps : ∀ budget,
    (stepStarts tracing (starts.length + budget) s).map progress =
      starts ++ (stepStarts tracing budget t).map progress

/-- From a state a session comes to its end by steps that start as listed. -/
structure EndsWith (tracing : Bool) (limit : Int) (starts : List (Machine × Nat))
    (s : Machine × Shell) (result : Option Fault × (Machine × Shell)) : Prop where
  result : ∀ budget, starts.length ≤ budget → proceed tracing limit budget s = result
  steps : ∀ budget, starts.length ≤ budget →
    (stepStarts tracing budget s).map progress = starts

section Steps

variable {tracing : Bool} {limit : Int} {first second : List (Machine × Nat)}
  {s t u : Machine × Shell} {fault : Fault} {result : Option Fault × (Machine × Shell)}

theorem Leads.refl (s : Machine × Shell) : Leads tracing limit [] s s := by
  constructor
  · intro budget
    rw [List.length_nil, Nat.zero_add]
  · intro budget
    rw [List.length_nil, Nat.zero_add, List.nil_append]

theorem Leads.step (h : GoesOn s) (hstep : Machine.stepWith (monitor tracing) s = (none, t)) :
    Leads tracing limit [progress s] s t := by
  constructor
  · intro budget
    rw [List.length_singleton, Nat.add_comm, proceed_of_step h hstep]
  · intro budget
    rw [List.length_singleton, Nat.add_comm, stepStarts_of_step h hstep, List.map_cons,
      List.singleton_append]

theorem Leads.trans (h : Leads tracing limit first s t) (h' : Leads tracing limit second t u) :
    Leads tracing limit (first ++ second) s u := by
  constructor
  · intro budget
    rw [List.length_append, Nat.add_assoc, h.result, h'.result]
  · intro budget
    rw [List.length_append, Nat.add_assoc, h.steps, h'.steps, List.append_assoc]

theorem Leads.ends (h : Leads tracing limit first s t)
    (h' : EndsWith tracing limit second t result) :
    EndsWith tracing limit (first ++ second) s result := by
  constructor
  · intro budget hbudget
    rw [List.length_append] at hbudget
    obtain ⟨left, rfl⟩ : ∃ left, budget = first.length + left :=
      ⟨budget - first.length, by omega⟩
    rw [h.result, h'.result left (by omega)]
  · intro budget hbudget
    rw [List.length_append] at hbudget
    obtain ⟨left, rfl⟩ : ∃ left, budget = first.length + left :=
      ⟨budget - first.length, by omega⟩
    rw [h.steps, h'.steps left (by omega)]

theorem EndsWith.of_stop (h : ¬ GoesOn s) : EndsWith tracing limit [] s (none, s) := by
  constructor
  · intro budget _
    exact proceed_of_stop h
  · intro budget _
    rw [stepStarts_of_stop h, List.map_nil]

theorem EndsWith.of_halted {m : Machine} {sh : Shell} (h : m.halted = true) :
    EndsWith tracing limit [] (m, sh) (none, (m, sh)) := by
  apply EndsWith.of_stop
  rintro ⟨-, hgoes⟩
  cases h.symm.trans hgoes

theorem EndsWith.of_fault (h : GoesOn s)
    (hstep : Machine.stepWith (monitor tracing) s = (some fault, t)) :
    EndsWith tracing limit [progress s] s
      (some fault, (t.1, t.2.showRegisters t.1)) := by
  constructor
  · intro budget hbudget
    obtain ⟨left, rfl⟩ : ∃ left, budget = left + 1 := Nat.exists_eq_add_one.mpr hbudget
    exact proceed_of_fault h hstep
  · intro budget hbudget
    obtain ⟨left, rfl⟩ : ∃ left, budget = left + 1 := Nat.exists_eq_add_one.mpr hbudget
    rw [stepStarts_of_fault h hstep, List.map_singleton]

end Steps

/-! ## Steps without watchpoints -/

section Unwatched

variable (tracing : Bool) (sh : Shell) (hwatch : sh.debugger.points.watchpoints = [])

include hwatch

/-- A shell that watches nothing leaves the machine alone up to the end of a step, and all that it
does is to log. -/
theorem isPassiveOn_withoutEnds :
    (monitor tracing).withoutEnds.IsPassiveOn fun sh' => ∃ log, sh' = { sh with log } := by
  apply Monitor.isPassiveOn_of_exists
  · rintro address m _ ⟨log, rfl⟩
    refine ⟨{ sh with log }, ?_, log, rfl⟩
    simp [Monitor.withoutEnds, monitor, Debugger.monitor, Points.watchesReading, hwatch]
  · rintro address m _ ⟨log, rfl⟩
    refine ⟨{ sh with log }, ?_, log, rfl⟩
    simp [Monitor.withoutEnds, monitor, Debugger.monitor, Points.watchesWriting, hwatch]
  · rintro address word _ ⟨log, rfl⟩
    simp only [Monitor.withoutEnds, monitor, Debugger.monitor]
    split
    · exact ⟨log.push (Machine.fetchNotice address word), rfl⟩
    · exact ⟨log, rfl⟩
  · rintro m _ ⟨log, rfl⟩
    exact ⟨{ sh with log }, rfl, log, rfl⟩

theorem stepWith_unwatched (m : Machine) :
    ∃ log, Machine.stepWith (monitor tracing) (m, sh) =
      match m.step.1 with
      | some fault => (some fault, (m.step.2, { sh with log }))
      | none => (none, (monitor tracing).stepped (m.step.2, { sh with log })) := by
  have hpassive := isPassiveOn_withoutEnds tracing sh hwatch
  have hstart : ∃ log, sh = { sh with log } := ⟨sh.log, rfl⟩
  obtain ⟨log, hlog⟩ := hpassive.foldl_kept hstart m.stepSignals
  refine ⟨log, ?_⟩
  rw [Machine.stepWith_eq_withoutEnds, hpassive.stepWith_eq m hstart, hlog]
  cases m.step.1 <;> rfl

theorem stepWith_of_fault {m : Machine} {fault : Fault} (hstep : m.step.1 = some fault) :
    ∃ log, Machine.stepWith (monitor tracing) (m, sh) =
      (some fault, (m.step.2, { sh with log })) := by
  obtain ⟨log, hlog⟩ := stepWith_unwatched tracing sh hwatch m
  rw [hstep] at hlog
  exact ⟨log, hlog⟩

theorem stepWith_of_passing {m : Machine} (hstep : m.step.1 = none)
    (hpass : sh.debugger.stopsAfter m.step.2 = false) :
    ∃ log, Machine.stepWith (monitor tracing) (m, sh) = (none, (m.step.2, { sh with log })) := by
  obtain ⟨log, hlog⟩ := stepWith_unwatched tracing sh hwatch m
  rw [hstep] at hlog
  refine ⟨log, hlog.trans ?_⟩
  simp only [monitor, Debugger.monitor, hpass, Bool.false_eq_true, if_false]

theorem stepWith_of_stopping {m : Machine} (hstep : m.step.1 = none)
    (hstop : sh.debugger.stopsAfter m.step.2 = true) :
    ∃ log, Machine.stepWith (monitor tracing) (m, sh) =
      (none, atBreak (m.step.2, { sh with log })) := by
  obtain ⟨log, hlog⟩ := stepWith_unwatched tracing sh hwatch m
  rw [hstep] at hlog
  refine ⟨log, hlog.trans ?_⟩
  simp only [monitor, Debugger.monitor, hstop, if_true]

end Unwatched

/-! ## Leaving a prompt -/

/-- After the given last words, a line stands for a command. -/
def StandsFor (last : List Text) (command : Command) (text : Text) : Prop :=
  ∃ name arguments, Reading.words last (.line text) = name :: arguments ∧
    Command.parse name arguments = command

/-- A line that stands for a command with nothing to repeat does so after any words. -/
theorem StandsFor.after {command : Command} {text : Text} (h : StandsFor [] command text)
    (last : List Text) : StandsFor last command text := by
  obtain ⟨name, arguments, hwords, hparse⟩ := h
  refine ⟨name, arguments, ?_, hparse⟩
  simp only [Reading.words] at hwords ⊢
  split at hwords
  · cases hwords
  · exact hwords

/-- A shell that has been told to go on, and keeps all else but what it has to repeat. -/
structure Resumed (breaking : Bool) (input : Input) (sh sh' : Shell) : Prop where
  points : sh'.debugger.points = sh.debugger.points
  breaking : sh'.debugger.breaking = breaking
  input : sh'.input = input
  printed : sh'.printed = sh.ask.printed
  quit : sh'.quit = sh.quit

theorem Resumed.prompts {breaking : Bool} {input : Input} {sh sh' : Shell}
    (h : Resumed breaking input sh sh') : sh'.prompts = sh.prompts + 1 := by
  rw [Shell.prompts, h.printed]
  exact sh.prompts_ask

section Leaving

variable (closing : Closing) {text : Text} (rest : List Reading) (m : Machine) {sh : Shell}

theorem converse_of_resuming {command : Command} {breaking : Bool}
    (hstands : StandsFor sh.lastWords command text) (hleaves : command.leavesPrompt = true)
    (hperform : ∀ s, perform s command = (s.1, s.2.setBreaking breaking)) :
    ∃ sh', converse closing (.line text :: rest) (m, sh) = (m, sh') ∧
      Resumed breaking ⟨rest, closing⟩ sh sh' := by
  obtain ⟨name, arguments, hwords, rfl⟩ := hstands
  rw [converse_line hwords (hperform _), if_pos hleaves]
  exact ⟨_, rfl, rfl, rfl, rfl, rfl, rfl⟩

theorem converse_of_continue (hstands : StandsFor sh.lastWords .continue text) :
    ∃ sh', converse closing (.line text :: rest) (m, sh) = (m, sh') ∧
      Resumed false ⟨rest, closing⟩ sh sh' :=
  converse_of_resuming closing rest m hstands rfl fun _ => rfl

theorem converse_of_next (hstands : StandsFor sh.lastWords .next text) :
    ∃ sh', converse closing (.line text :: rest) (m, sh) = (m, sh') ∧
      Resumed true ⟨rest, closing⟩ sh sh' :=
  converse_of_resuming closing rest m hstands rfl fun _ => rfl

/-- A prompt without a line to read makes the shell quit. -/
theorem converse_nil (sh : Shell) :
    ∃ sh', converse closing [] (m, sh) = (m, sh') ∧ sh'.quit = true ∧
      sh'.prompts = sh.prompts + 1 := by
  cases closing with
  | ended => exact ⟨_, rfl, rfl, (prompts_hangUp _).trans sh.prompts_ask⟩
  | overlong => exact ⟨_, rfl, rfl, (prompts_giveUp _).trans sh.prompts_ask⟩

end Leaving

section GoingOn

variable (tracing : Bool) (limit : Int) {m : Machine} {sh : Shell} {n : Nat}

/-! ## Continuing -/

section Continuing

theorem stopsAfter_of_not_breaking {d : Debugger} (h : d.breaking = false) (m : Machine) :
    d.stopsAfter m = true ↔ m.counter ∈ d.points.breakpoints := by
  simp [Debugger.stopsAfter, Points.breaksAt, h]

variable (hquit : sh.quit = false) (hwatch : sh.debugger.points.watchpoints = [])
  (hbreaking : sh.debugger.breaking = false)

include hquit hwatch hbreaking

/-- A step that does not reach a breakpoint goes by without a prompt, whatever has been logged. -/
theorem leads_of_passing_step (log : Array Notice) (hstep : m.step.1 = none)
    (hpass : m.step.2.counter ∉ sh.debugger.points.breakpoints) :
    ∃ log', Leads tracing limit [(m, sh.prompts)] (m, { sh with log })
      (m.step.2, { sh with log := log' }) := by
  have hgoes : GoesOn (m, { sh with log }) := ⟨hquit, Machine.halted_eq_false_of_step hstep⟩
  have hpassing : sh.debugger.stopsAfter m.step.2 = false := by
    rwa [← Bool.not_eq_true, stopsAfter_of_not_breaking hbreaking]
  obtain ⟨log', hlog⟩ := stepWith_of_passing tracing { sh with log } hwatch hstep hpassing
  exact ⟨log', .step hgoes hlog⟩

/-- So do all steps up to one that stops the machine or reaches a breakpoint. -/
theorem leads_of_passing (hruns : m.RunsOn n)
    (hpass : ∀ i < n, ¬ m.ReachesBreak sh.debugger.points.breakpoints i) :
    ∃ log, Leads tracing limit ((List.range n).map fun i => (m.afterSteps i, sh.prompts)) (m, sh)
      (m.afterSteps n, { sh with log }) := by
  induction n with
  | zero => exact ⟨sh.log, .refl (m, sh)⟩
  | succ n ih =>
      obtain ⟨log, hleads⟩ := ih (fun k hk => hruns k (by omega)) fun i hi => hpass i (by omega)
      have hstep : (m.afterSteps n).step.1 = none := (hruns n (Nat.lt_succ_self n)).1
      have hcounter := Machine.counter_not_mem_of_step hstep (hpass n (Nat.lt_succ_self n))
      obtain ⟨log', hlast⟩ :=
        leads_of_passing_step tracing limit hquit hwatch hbreaking log hstep hcounter
      refine ⟨log', ?_⟩
      rw [List.range_succ, List.map_append, Machine.afterSteps_succ]
      exact hleads.trans hlast

/-- The first step that reaches a breakpoint ends with a prompt. -/
theorem leads_to_breakpoint (hreached : m.ReachesBreak sh.debugger.points.breakpoints n)
    (hfirst : ∀ i < n, ¬ m.ReachesBreak sh.debugger.points.breakpoints i) :
    ∃ log, Leads tracing limit
      ((List.range (n + 1)).map fun i => (m.afterSteps i, sh.prompts)) (m, sh)
      (atBreak (m.afterSteps (n + 1), { sh with log })) := by
  obtain ⟨hstep, hcounter⟩ := hreached
  obtain ⟨log, hleads⟩ := leads_of_passing tracing limit hquit hwatch hbreaking
    (Machine.runsOn_of_step hstep) hfirst
  have hgoes : GoesOn (m.afterSteps n, { sh with log }) :=
    ⟨hquit, Machine.halted_eq_false_of_step hstep⟩
  rw [Machine.afterSteps_succ] at hcounter ⊢
  have hstops := (stopsAfter_of_not_breaking hbreaking _).mpr hcounter
  obtain ⟨log', hlast⟩ := stepWith_of_stopping tracing { sh with log } hwatch hstep hstops
  refine ⟨log', ?_⟩
  rw [List.range_succ, List.map_append]
  exact hleads.trans (.step hgoes hlast)

/-- If there is none up to the step that stops the machine, the session ends without a prompt. -/
theorem ends_without_breakpoint (hm : m.halted = false) (hstops : m.StopsAt n)
    (hnone : ∀ i ≤ n, ¬ m.ReachesBreak sh.debugger.points.breakpoints i) :
    ∃ last, EndsWith tracing limit
        ((List.range (n + 1)).map fun i => (m.afterSteps i, sh.prompts)) (m, sh)
        ((m.afterSteps n).step.1, (m.afterSteps (n + 1), last)) ∧
      last.prompts = sh.prompts ∧ last.input = sh.input := by
  obtain ⟨log, hleads⟩ := leads_of_passing tracing limit hquit hwatch hbreaking hstops.runsOn
    fun i hi => hnone i (by omega)
  rw [List.range_succ, List.map_append]
  cases hstep : (m.afterSteps n).step.1 with
  | some fault =>
      have hgoes : GoesOn (m.afterSteps n, { sh with log }) :=
        ⟨hquit, hstops.runsOn.halted_afterSteps hm⟩
      obtain ⟨log', hlast⟩ := stepWith_of_fault tracing { sh with log } hwatch hstep
      rw [Machine.afterSteps_succ]
      exact ⟨_, hleads.ends (.of_fault hgoes hlast), prompts_print _ _, rfl⟩
  | none =>
      have hcounter := Machine.counter_not_mem_of_step hstep (hnone n (Nat.le_refl n))
      obtain ⟨log', hlast⟩ :=
        leads_of_passing_step tracing limit hquit hwatch hbreaking log hstep hcounter
      rw [← Machine.afterSteps_succ] at hlast
      have hends := (hleads.trans hlast).ends (.of_halted (hstops.halted hstep))
      rw [List.append_nil] at hends
      exact ⟨_, hends, rfl, rfl⟩

end Continuing

/-! ## Single steps -/

/-- A shell at one of its prompts that watches nothing. -/
structure AtPrompt (count : Nat) (sh : Shell) : Prop where
  quit : sh.quit = false
  watch : sh.debugger.points.watchpoints = []
  prompts : sh.prompts = count

theorem AtPrompt.of_resumed {count : Nat} {breaking : Bool} {input : Input} {sh' : Shell}
    (h : AtPrompt count sh) (hresumed : Resumed breaking input sh sh') : AtPrompt (count + 1) sh' :=
  { quit := hresumed.quit.trans h.quit
    watch := by rw [hresumed.points, h.watch]
    prompts := by rw [hresumed.prompts, h.prompts] }

section Nexts

variable (closing : Closing) {count : Nat} (h : AtPrompt count sh)

include h

/-- A `next` leads to another prompt if the step succeeds. -/
theorem leads_of_next {text : Text} (rest : List Reading) (hnext : StandsFor [] .next text)
    (hstep : m.step.1 = none) :
    ∃ sh', AtPrompt (count + 1) sh' ∧ Leads tracing limit [(m, count + 1)]
      (converse closing (.line text :: rest) (m, sh)) (converse closing rest (m.step.2, sh')) := by
  obtain ⟨resumed, hconverse, hresumed⟩ := converse_of_next closing rest m (hnext.after _)
  have hprompt := h.of_resumed hresumed
  have hgoes : GoesOn (m, resumed) := ⟨hprompt.quit, Machine.halted_eq_false_of_step hstep⟩
  have hstops : resumed.debugger.stopsAfter m.step.2 = true := by
    rw [Debugger.stopsAfter, hresumed.breaking, Bool.true_or]
  obtain ⟨log, hlog⟩ := stepWith_of_stopping tracing resumed hprompt.watch hstep hstops
  let shown : Shell := showNext m.step.2 { resumed with log }
  have hbreak : atBreak (m.step.2, { resumed with log }) =
      converse closing rest (m.step.2, shown) := by
    simp only [atBreak, talk, hresumed.breaking, if_true]
    rw [show (showNext m.step.2 { resumed with log }).input = ⟨rest, closing⟩ from hresumed.input]
  refine ⟨shown, ⟨hprompt.quit, hprompt.watch, (prompts_print _ _).trans hprompt.prompts⟩, ?_⟩
  rw [hconverse, ← hbreak, ← hprompt.prompts]
  exact .step hgoes hlog

/-- At a prompt with only such lines to read, the machine stays as it is. -/
theorem converse_of_nexts {lines : List Text} (hnext : ∀ text ∈ lines, StandsFor [] .next text)
    (m : Machine) :
    ∃ sh', converse closing (lines.map .line) (m, sh) = (m, sh') ∧ sh'.prompts = count + 1 := by
  cases lines with
  | nil =>
      obtain ⟨sh', hconverse, -, hprompts⟩ := converse_nil closing m sh
      exact ⟨sh', hconverse, by rw [hprompts, h.prompts]⟩
  | cons text lines =>
      have hhead := hnext text List.mem_cons_self
      obtain ⟨sh', hconverse, hresumed⟩ :=
        converse_of_next closing (lines.map .line) m (hhead.after sh.lastWords)
      exact ⟨sh', hconverse, (h.of_resumed hresumed).prompts⟩

/-- Each `next` is one step, as long as the machine runs on. -/
theorem leads_of_nexts {lines : List Text} (hnext : ∀ text ∈ lines, StandsFor [] .next text)
    (hruns : m.RunsOn n) (hn : n ≤ lines.length) :
    ∃ sh', AtPrompt (count + n) sh' ∧ Leads tracing limit
      ((List.range n).map fun i => (m.afterSteps i, count + 1 + i))
      (converse closing (lines.map .line) (m, sh))
      (converse closing ((lines.drop n).map .line) (m.afterSteps n, sh')) := by
  induction n with
  | zero => exact ⟨sh, h, .refl _⟩
  | succ n ih =>
      obtain ⟨sh', hprompt, hleads⟩ := ih (fun k hk => hruns k (by omega)) (by omega)
      have hline := hnext _ (List.getElem_mem hn)
      obtain ⟨sh'', hprompt', hlast⟩ := leads_of_next tracing limit closing hprompt
        ((lines.drop (n + 1)).map .line) hline (hruns n (Nat.lt_succ_self n)).1
      rw [List.drop_eq_getElem_cons hn, List.map_cons] at hleads
      rw [Nat.add_right_comm] at hlast
      refine ⟨sh'', hprompt', ?_⟩
      rw [List.range_succ, List.map_append, Machine.afterSteps_succ]
      exact hleads.trans hlast

/-- All lines are read if the machine does not stop before. -/
theorem ends_with_lines {lines : List Text} (hnext : ∀ text ∈ lines, StandsFor [] .next text)
    (hruns : m.RunsOn lines.length) :
    ∃ last, EndsWith tracing limit
        ((List.range lines.length).map fun i => (m.afterSteps i, count + 1 + i))
        (converse closing (lines.map .line) (m, sh)) (none, (m.afterSteps lines.length, last)) ∧
      last.prompts = count + 1 + lines.length := by
  obtain ⟨sh', hprompt, hleads⟩ :=
    leads_of_nexts tracing limit closing h hnext hruns (Nat.le_refl _)
  obtain ⟨last, hconverse, hquit, hprompts⟩ :=
    converse_nil closing (m.afterSteps lines.length) sh'
  rw [List.drop_length, List.map_nil, hconverse] at hleads
  have hstopped : ¬ GoesOn (m.afterSteps lines.length, last) := by
    rintro ⟨hgoes, -⟩
    cases hquit.symm.trans hgoes
  have hends := hleads.ends (.of_stop hstopped)
  rw [List.append_nil] at hends
  refine ⟨last, hends, ?_⟩
  rw [hprompts, hprompt.prompts]
  omega

/-- Otherwise the session ends with the step that stops the machine. -/
theorem ends_with_machine {lines : List Text} (hnext : ∀ text ∈ lines, StandsFor [] .next text)
    (hm : m.halted = false) (hstops : m.StopsAt n) (hn : n < lines.length) :
    ∃ last, EndsWith tracing limit
        ((List.range (n + 1)).map fun i => (m.afterSteps i, count + 1 + i))
        (converse closing (lines.map .line) (m, sh))
        ((m.afterSteps n).step.1, (m.afterSteps (n + 1), last)) ∧
      last.prompts = count + 1 + if (m.afterSteps n).step.1 = none then n + 1 else n := by
  obtain ⟨sh', hprompt, hleads⟩ :=
    leads_of_nexts tracing limit closing h hnext hstops.runsOn (Nat.le_of_lt hn)
  have hline := hnext _ (List.getElem_mem hn)
  rw [List.drop_eq_getElem_cons hn, List.map_cons] at hleads
  rw [List.range_succ, List.map_append, Machine.afterSteps_succ]
  cases hstep : (m.afterSteps n).step.1 with
  | some fault =>
      obtain ⟨resumed, hconverse, hresumed⟩ := converse_of_next closing
        ((lines.drop (n + 1)).map .line) (m.afterSteps n) (hline.after sh'.lastWords)
      have hprompt' := hprompt.of_resumed hresumed
      have hgoes : GoesOn (m.afterSteps n, resumed) :=
        ⟨hprompt'.quit, hstops.runsOn.halted_afterSteps hm⟩
      obtain ⟨log, hlast⟩ := stepWith_of_fault tracing resumed hprompt'.watch hstep
      rw [hconverse] at hleads
      have hends := hleads.ends (.of_fault hgoes hlast)
      rw [progress, hprompt'.prompts, Nat.add_right_comm] at hends
      refine ⟨_, hends, ?_⟩
      rw [if_neg (by simp), prompts_showRegisters]
      exact hprompt'.prompts.trans (Nat.add_right_comm count n 1)
  | none =>
      obtain ⟨sh'', hprompt', hlast⟩ := leads_of_next tracing limit closing hprompt
        ((lines.drop (n + 1)).map .line) hline hstep
      obtain ⟨last, hconverse, hprompts⟩ := converse_of_nexts closing hprompt'
        (fun text htext => hnext text (List.mem_of_mem_drop htext)) (m.afterSteps n).step.2
      rw [hconverse, Nat.add_right_comm] at hlast
      have hhalted : (m.afterSteps n).step.2.halted = true := by
        rw [← Machine.afterSteps_succ]
        exact hstops.halted hstep
      have hends := (hleads.trans hlast).ends (.of_halted hhalted)
      rw [List.append_nil] at hends
      refine ⟨last, hends, ?_⟩
      rw [hprompts, if_pos rfl]
      omega

end Nexts

end GoingOn

end Shell

/-- A machine that loads two registers and then halts. -/
def loadingTwice : Machine := (Machine.initial.store 0 3073).store 1 3330

/-- A shell with a breakpoint at the instruction that halts the machine. -/
def guardedShell : Shell :=
  (Shell.start .standard .empty none ⟨[], .ended⟩).setPoints
    { Points.empty with breakpoints := [2] }

end WordMachine
