import WordMachine.Proofs.Debugger.Watching
import WordMachine.Proofs.Machine.StepLimit

/-!
# What a recording debugger records

A debugger whose handlers only record is stopped at the watched accesses of the machine and at the
ends of its steps, and nowhere else. What it records in a run is therefore found step by step from
the machine and the sets of its points: each access and each end of a step is recorded once if some
point looks at it, and not at all otherwise.

## Implementation notes

A handler sees the machine at the time of a stop, and what it makes of it is left open: a journal
has entries of any type. A handler may also take back the request to break, so that only the first
step can end with a stop on request.
-/

namespace WordMachine

/-! ## The accesses of a step -/

namespace Machine

/-- Whether an instruction computes the address that it refers to. A jump that is not taken does
not. -/
def computesAddress (op : Operation) (f : Fields) (m : Machine) : Bool :=
  match op with
  | .hlt => false
  | .jz => m.registers.get (Fields.slot f.register) == 0
  | _ => true

/-- Whether an instruction reads the word at that address. -/
def readsOperand (op : Operation) (f : Fields) : Bool :=
  op == .ldr || (op == .ldx && f.index != 0)

/-- The word that an instruction stores at that address, if it stores one. -/
def storedWord? (op : Operation) (f : Fields) (m : Machine) : Option Word :=
  match op with
  | .str => some (m.registers.get (Fields.slot f.register))
  | .stx => some (m.index.get (Fields.slot f.index))
  | _ => none

/-- The addresses that an instruction reads after it has been fetched, in order: where an indirect
address is kept, and the operand. -/
def operandReads (op : Operation) (f : Fields) (m : Machine) : List Word :=
  (if computesAddress op f m && f.indirect then [baseAddress op f m] else []) ++
    if readsOperand op f then [operandAddress op f m] else []

/-- The accesses of one step in order and, unless it fails, its end. With each of them goes the
machine at that time: before a reading, and after a writing. -/
def stepMoments (m : Machine) : List (Machine × Signal) :=
  if m.halted then []
  else
    let word := m.memory.read m.counter
    let f := Fields.ofWord word
    let next := m.latch word
    (m, .reading m.counter) ::
      match Operation.ofOpcode? f.opcode with
      | none => []
      | some op =>
        let address := operandAddress op f next
        (operandReads op f next).map (fun a => (next, .reading a)) ++
          (storedWord? op f next).toList.map (fun w => (next.store address w, .written address)) ++
            [(m.step.2, .stepped)]

theorem stepMoments_of_halted {m : Machine} (hm : m.halted = true) : m.stepMoments = [] := by
  simp only [stepMoments, hm, if_true]

theorem executeSignals_eq_moments (f : Fields) (op : Operation) (m : Machine) :
    executeSignals f op m =
      (operandReads op f m).map (fun a => (m, Signal.reading a)) ++
        (storedWord? op f m).toList.map
          (fun w =>
            (m.store (operandAddress op f m) w, Signal.written (operandAddress op f m))) := by
  cases op with
  | jz =>
      by_cases hzero : m.registers.get (Fields.slot f.register) = 0 <;>
        cases hf : f.indirect <;>
          simp [executeSignals, addressSignals, operandReads, computesAddress, readsOperand,
            storedWord?, hzero, hf]
  | ldx =>
      by_cases hindex : f.index = 0 <;>
        cases hf : f.indirect <;>
          simp [executeSignals, addressSignals, operandReads, computesAddress, readsOperand,
            storedWord?, hindex, hf]
  | _ =>
      cases hf : f.indirect <;>
        simp [executeSignals, addressSignals, operandReads, computesAddress, readsOperand,
          storedWord?, hf]

theorem stepMoments_of_illegal {m : Machine} (hm : m.halted = false)
    (hop : Operation.ofOpcode? (Fields.ofWord (m.memory.read m.counter)).opcode = none) :
    m.stepMoments = [(m, .reading m.counter)] := by
  simp [stepMoments, hm, hop]

theorem stepMoments_of_operation {m : Machine} {op : Operation} (hm : m.halted = false)
    (hop : Operation.ofOpcode? (Fields.ofWord (m.memory.read m.counter)).opcode = some op) :
    m.stepMoments =
      (m, .reading m.counter) :: executeSignals (Fields.ofWord (m.memory.read m.counter)) op
        (m.latch (m.memory.read m.counter)) ++ [(m.step.2, .stepped)] := by
  simp only [stepMoments, hm, hop, Bool.false_eq_true, if_false, executeSignals_eq_moments,
    List.cons_append]

end Machine

/-- Whether a signal tells of the end of a step. -/
def Signal.endsStep : Signal → Bool
  | stepped => true
  | _ => false

theorem Machine.endsStep_of_mem_executeSignals {f : Fields} {op : Operation} {m : Machine}
    {signal : Machine × Signal} (h : signal ∈ executeSignals f op m) :
    signal.2.endsStep = false := by
  rw [executeSignals_eq_moments, List.mem_append, List.mem_map, List.mem_map] at h
  rcases h with ⟨a, -, rfl⟩ | ⟨w, -, rfl⟩ <;> rfl

/-- The only signal that ends a step is its last one, and a step that fails has none. -/
theorem Machine.exists_stepSignals_eq (m : Machine) :
    ∃ within, (∀ signal ∈ within, signal.2.endsStep = false) ∧
      m.stepSignals = within ++ if m.step.1.isNone then [(m.step.2, .stepped)] else [] := by
  cases hm : m.halted with
  | true => exact ⟨[], by simp, by simp [stepSignals_of_halted hm, step_of_halted hm]⟩
  | false =>
      let word := m.memory.read m.counter
      let fetch : List (Machine × Signal) :=
        [(m, .reading m.counter), (m.latch word, .fetched m.counter word)]
      have hfetch : ∀ signal ∈ fetch, signal.2.endsStep = false := by simp [fetch, Signal.endsStep]
      cases hop : Operation.ofOpcode? (Fields.ofWord word).opcode with
      | none =>
          refine ⟨fetch, hfetch, ?_⟩
          simp [stepSignals_of_illegal hm hop, step_of_illegal hm hop, fetch, word]
      | some op =>
          refine ⟨fetch ++ executeSignals (Fields.ofWord word) op (m.latch word), ?_, ?_⟩
          · intro signal hmem
            rcases List.mem_append.mp hmem with hmem | hmem
            · exact hfetch signal hmem
            · exact endsStep_of_mem_executeSignals hmem
          · have hnone : m.step.1 = none := by rw [step_of_operation hm hop]
            rw [stepSignals_of_operation hm hop, List.append_assoc, hnone]
            rfl

/-! ## Points that look at a moment -/

/-- A debugger with these points, which may have been told to break, looks at what a signal tells:
some watchpoint looks at the access, or the end of the step is to be a stop. -/
def Points.Heed (points : Points) (breaking : Bool) : Machine × Signal → Prop
  | (_, .reading address) => ∃ w ∈ points.watchpoints, w.address = address ∧ w.kind ≠ .write
  | (_, .written address) => ∃ w ∈ points.watchpoints, w.address = address ∧ w.kind ≠ .read
  | (_, .fetched _ _) => False
  | (m, .stepped) => breaking = true ∨ m.counter ∈ points.breakpoints

instance (points : Points) (breaking : Bool) : DecidablePred (points.Heed breaking)
  | (_, .reading address) =>
    inferInstanceAs (Decidable (∃ w ∈ points.watchpoints, w.address = address ∧ w.kind ≠ .write))
  | (_, .written address) =>
    inferInstanceAs (Decidable (∃ w ∈ points.watchpoints, w.address = address ∧ w.kind ≠ .read))
  | (_, .fetched _ _) => inferInstanceAs (Decidable False)
  | (m, .stepped) =>
    inferInstanceAs (Decidable (breaking = true ∨ m.counter ∈ points.breakpoints))

namespace Points

variable {points : Points} {breaking : Bool} {m : Machine} {address : Word}

theorem watchesReading_iff_heed :
    points.watchesReading address = true ↔ points.Heed breaking (m, .reading address) := by
  simp [watchesReading, Heed, WatchKind.seesReading, and_comm]

theorem watchesWriting_iff_heed :
    points.watchesWriting address = true ↔ points.Heed breaking (m, .written address) := by
  simp [watchesWriting, Heed, WatchKind.seesWriting, and_comm]

theorem stopsAfter_iff_heed {d : Debugger} :
    d.stopsAfter m = true ↔ d.points.Heed d.breaking (m, .stepped) := by
  simp [Debugger.stopsAfter, breaksAt, Heed]

/-- No point looks at a fetched instruction as such. -/
theorem filter_heed_stepSignals (m : Machine) :
    m.stepSignals.filter (points.Heed breaking) = m.stepMoments.filter (points.Heed breaking) := by
  have hnever (n : Machine) (a w : Word) : ¬ points.Heed breaking (n, .fetched a w) := id
  cases hm : m.halted with
  | true => rw [Machine.stepSignals_of_halted hm, Machine.stepMoments_of_halted hm]
  | false =>
      cases hop : Operation.ofOpcode? (Fields.ofWord (m.memory.read m.counter)).opcode with
      | none =>
          rw [Machine.stepSignals_of_illegal hm hop, Machine.stepMoments_of_illegal hm hop]
          simp [List.filter_cons, hnever]
      | some op =>
          rw [Machine.stepSignals_of_operation hm hop, Machine.stepMoments_of_operation hm hop]
          simp [List.filter_cons, hnever]

/-- Only the sets of points matter. -/
theorem heed_congr {points' : Points}
    (hbreak : ∀ a, a ∈ points'.breakpoints ↔ a ∈ points.breakpoints)
    (hwatch : ∀ w, w ∈ points'.watchpoints ↔ w ∈ points.watchpoints) (moment : Machine × Signal) :
    points'.Heed breaking moment ↔ points.Heed breaking moment := by
  obtain ⟨m, signal⟩ := moment
  cases signal <;> simp only [Heed, hbreak, hwatch]

end Points

/-- What is recorded in the first `n` steps of a machine, given the points and whether the debugger
has been told to break at the beginning. A request to break may be taken back at the end of the
first step. -/
def Machine.recorded (points : Points) (breaking clears : Bool) (n : Nat) (m : Machine) :
    List (Machine × Signal) :=
  (List.range n).flatMap fun k =>
    (m.afterSteps k).stepMoments.filter (points.Heed (breaking && (k == 0 || !clears)))

namespace Machine

variable {points : Points} {breaking clears : Bool} {n : Nat} {m : Machine}

theorem recorded_succ :
    m.recorded points breaking clears (n + 1) =
      m.stepMoments.filter (points.Heed breaking) ++
        m.step.2.recorded points (breaking && !clears) clears n := by
  have hlater (k : Nat) : (breaking && !clears && (k == 0 || !clears)) =
      (breaking && (k + 1 == 0 || !clears)) := by
    cases breaking <;> cases clears <;> simp
  simp only [recorded, List.range_succ_eq_map, List.flatMap_cons, List.flatMap_map, hlater]
  simp [afterSteps]

theorem recorded_of_halted (hm : m.halted = true) : m.recorded points breaking clears n = [] := by
  simp [recorded, afterSteps_of_halted hm, stepMoments_of_halted hm]

end Machine

/-! ## Handlers that keep a journal -/

section Journal

variable {σ ε : Type} {debugger : σ → Debugger} {journal : σ → List ε}
  {view : Machine × Signal → ε} {clears : Bool} {handlers : Handlers σ}

/-- The journal has grown by some entries, the points are as they were, and the request to break may
have been taken back. -/
structure Enters (debugger : σ → Debugger) (journal : σ → List ε) (entries : List ε)
    (clears : Bool) (host after : σ) : Prop where
  points : (debugger after).points = (debugger host).points
  breaking : (debugger after).breaking = ((debugger host).breaking && !clears)
  journal : journal after = journal host ++ entries

theorem Enters.none (host : σ) : Enters debugger journal [] false host host :=
  ⟨rfl, (Bool.and_true _).symm, (List.append_nil _).symm⟩

theorem Enters.trans {first second : List ε} {clears clears' : Bool} {host between after : σ}
    (h : Enters debugger journal first clears host between)
    (h' : Enters debugger journal second clears' between after) :
    Enters debugger journal (first ++ second) (clears || clears') host after :=
  { points := h'.points.trans h.points
    breaking := by rw [h'.breaking, h.breaking, Bool.not_or, Bool.and_assoc]
    journal := by rw [h'.journal, h.journal, List.append_assoc] }

/-- All three handlers are there and only record: they leave the machine alone, and enter what they
see in the machine and the signal. Either every stop at the end of a step takes back the request to
break, or none does. -/
structure Handlers.KeepJournal (debugger : σ → Debugger) (journal : σ → List ε)
    (view : Machine × Signal → ε) (clears : Bool) (handlers : Handlers σ) : Prop where
  atBreak : ∃ handle, handlers.atBreak = some handle ∧ ∀ s,
    (handle s).1 = s.1 ∧ Enters debugger journal [view (s.1, .stepped)] clears s.2 (handle s).2
  atRead : ∃ handle, handlers.atRead = some handle ∧ ∀ address s, (handle address s).1 = s.1 ∧
    Enters debugger journal [view (s.1, .reading address)] false s.2 (handle address s).2
  atWrite : ∃ handle, handlers.atWrite = some handle ∧ ∀ address s, (handle address s).1 = s.1 ∧
    Enters debugger journal [view (s.1, .written address)] false s.2 (handle address s).2

namespace Handlers.KeepJournal

variable (h : handlers.KeepJournal debugger journal view clears)

include h

theorem isPassive : handlers.IsPassive := by
  obtain ⟨atBreak, hbreak, hatBreak⟩ := h.atBreak
  obtain ⟨atRead, hread, hatRead⟩ := h.atRead
  obtain ⟨atWrite, hwrite, hatWrite⟩ := h.atWrite
  constructor
  · intro handle hhandle s
    obtain rfl : atBreak = handle := Option.some.inj (hbreak.symm.trans hhandle)
    exact (hatBreak s).1
  · intro handle hhandle address s
    obtain rfl : atRead = handle := Option.some.inj (hread.symm.trans hhandle)
    exact (hatRead address s).1
  · intro handle hhandle address s
    obtain rfl : atWrite = handle := Option.some.inj (hwrite.symm.trans hhandle)
    exact (hatWrite address s).1

omit h in
/-- A stop that is handled if a point looks at the signal. -/
theorem enters_ite {host : σ} {m : Machine} {signal : Signal} {stops clears : Bool}
    {handled : Machine × σ}
    (hstops : stops = true ↔
      (debugger host).points.Heed (debugger host).breaking (m, signal))
    (henters : Enters debugger journal [view (m, signal)] clears host handled.2)
    (hpasses : stops = false → (debugger host).breaking = ((debugger host).breaking && !clears)) :
    Enters debugger journal
      (([(m, signal)].filter ((debugger host).points.Heed (debugger host).breaking)).map view)
      clears host (if stops then handled else (m, host)).2 := by
  cases stops with
  | true =>
      have hheed := hstops.mp rfl
      simpa [hheed] using henters
  | false =>
      have hheed := mt hstops.mpr Bool.false_ne_true
      have hnone : Enters debugger journal [] false host host := .none host
      simpa [hheed] using { hnone with breaking := hpasses rfl }

/-- A signal makes one entry if a point looks at it, and none otherwise. -/
theorem hear_enters (host : σ) (signal : Machine × Signal) :
    Enters debugger journal
      (([signal].filter ((debugger host).points.Heed (debugger host).breaking)).map view)
      (clears && signal.2.endsStep) host
      ((Debugger.monitor debugger handlers fun _ _ host => host).hear host signal) := by
  obtain ⟨m, signal⟩ := signal
  cases signal with
  | reading address =>
      obtain ⟨handle, hhandle, henters⟩ := h.atRead
      simp only [Monitor.hear, Debugger.monitor, hhandle, Signal.endsStep, Bool.and_false]
      exact enters_ite Points.watchesReading_iff_heed (henters address (m, host)).2 (by simp)
  | written address =>
      obtain ⟨handle, hhandle, henters⟩ := h.atWrite
      simp only [Monitor.hear, Debugger.monitor, hhandle, Signal.endsStep, Bool.and_false]
      exact enters_ite Points.watchesWriting_iff_heed (henters address (m, host)).2 (by simp)
  | fetched address word =>
      simp only [Signal.endsStep, Bool.and_false]
      exact Enters.none host
  | stepped =>
      obtain ⟨handle, hhandle, henters⟩ := h.atBreak
      simp only [Monitor.hear, Debugger.monitor, hhandle, Signal.endsStep, Bool.and_true]
      apply enters_ite Points.stopsAfter_iff_heed (henters (m, host)).2
      intro hpasses
      have hnot : (debugger host).breaking = false := (Bool.or_eq_false_iff.mp hpasses).1
      simp [hnot]

/-- Signals that come before the end of a step. -/
theorem foldl_hear_enters (host : σ) (signals : List (Machine × Signal))
    (hwithin : ∀ signal ∈ signals, signal.2.endsStep = false) :
    Enters debugger journal
      ((signals.filter ((debugger host).points.Heed (debugger host).breaking)).map view) false host
      (signals.foldl (Debugger.monitor debugger handlers fun _ _ host => host).hear host) := by
  induction signals generalizing host with
  | nil => exact Enters.none host
  | cons signal signals ih =>
      rw [List.forall_mem_cons] at hwithin
      have hfirst := h.hear_enters host signal
      rw [hwithin.1, Bool.and_false] at hfirst
      have hrest := ih
        ((Debugger.monitor debugger handlers fun _ _ host => host).hear host signal) hwithin.2
      rw [hfirst.points, hfirst.breaking, Bool.not_false, Bool.and_true] at hrest
      have hall := hfirst.trans hrest
      rwa [← List.map_append, ← List.filter_append, List.singleton_append] at hall

/-- In one step, each access and the end are entered if a point looks at them. A request to break is
taken back only by a step that has an end. -/
theorem step_enters (host : σ) (m : Machine) :
    Enters debugger journal
      ((m.stepMoments.filter ((debugger host).points.Heed (debugger host).breaking)).map view)
      (clears && m.step.1.isNone) host
      (m.stepSignals.foldl
        (Debugger.monitor debugger handlers fun _ _ host => host).hear host) := by
  rw [← Points.filter_heed_stepSignals]
  obtain ⟨within, hwithin, hsignals⟩ := m.exists_stepSignals_eq
  have henters := h.foldl_hear_enters host within hwithin
  rw [hsignals, List.foldl_append, List.filter_append, List.map_append]
  cases m.step.1.isNone with
  | false => simpa using henters
  | true =>
      have hend := h.hear_enters (within.foldl
        (Debugger.monitor debugger handlers fun _ _ host => host).hear host) (m.step.2, .stepped)
      rw [henters.points, henters.breaking, Bool.not_false, Bool.and_true] at hend
      simpa [Signal.endsStep] using henters.trans hend

/-- The entries of a number of steps. -/
theorem run_enters (n : Nat) (host : σ) (m : Machine) :
    journal ((Machine.runSignals n m).foldl
        (Debugger.monitor debugger handlers fun _ _ host => host).hear host) =
      journal host ++
        (m.recorded (debugger host).points (debugger host).breaking clears n).map view := by
  induction n generalizing host m with
  | zero => simp [Machine.runSignals, Machine.recorded]
  | succ n ih =>
      have hstep := h.step_enters host m
      rw [Machine.runSignals, List.foldl_append, Machine.recorded_succ, List.map_append,
        ← List.append_assoc, ← hstep.journal]
      cases hfault : m.step.1 with
      | some fault =>
          have hm : m.step.2.halted = true := Machine.halted_of_step_isSome (by simp [hfault])
          simp [Machine.recorded_of_halted hm]
      | none =>
          rw [hfault, Option.isNone_none, Bool.and_true] at hstep
          have hrest := ih (m.stepSignals.foldl
            (Debugger.monitor debugger handlers fun _ _ host => host).hear host) m.step.2
          rwa [hstep.points, hstep.breaking] at hrest

end Handlers.KeepJournal

end Journal

/-- What a debugger records are exactly the accesses of the machine. Let the three handlers of a
debugger only record. Then a run adds to its journal, step by step and in this order: one entry for
each reading of the step (of the instruction, of an indirect address, of an operand) at whose
address there is a watchpoint that is not for writing; one for its writing, if there is a watchpoint
that is not for reading, with the word already stored; and one for its end, if it does not fail and
the debugger has been told to break or has a breakpoint at the next instruction. No moment makes two
entries, and a debugger with the same sets of points in another order makes the same entries. -/
theorem recorded_are_the_accesses {σ ε : Type} {debugger : σ → Debugger} {journal : σ → List ε}
    {view : Machine × Signal → ε} {clears : Bool} {handlers : Handlers σ}
    (h : handlers.KeepJournal debugger journal view clears) (m : Machine) (limit : Int)
    (hlimit : 0 < limit) (host : σ) :
    journal (Debugger.runAttached debugger handlers limit (m, host)).2.2 =
      journal host ++ (m.recorded (debugger host).points (debugger host).breaking clears
        limit.toNat).map view ∧
    ∀ other : σ, (debugger other).breaking = (debugger host).breaking →
      (∀ a, a ∈ (debugger other).points.breakpoints ↔ a ∈ (debugger host).points.breakpoints) →
      (∀ w, w ∈ (debugger other).points.watchpoints ↔ w ∈ (debugger host).points.watchpoints) →
      journal (Debugger.runAttached debugger handlers limit (m, other)).2.2 =
        journal other ++ (m.recorded (debugger host).points (debugger host).breaking clears
          limit.toNat).map view := by
  have hrecords (host : σ) :
      journal (Debugger.runAttached debugger handlers limit (m, host)).2.2 =
        journal host ++ (m.recorded (debugger host).points (debugger host).breaking clears
          limit.toNat).map view := by
    have hon : (Debugger.monitor debugger handlers fun _ _ host => host).IsPassiveOn
        fun _ => True := (Debugger.monitor_isPassive h.isPassive).on fun _ _ _ => trivial
    have hbudget : Machine.budget limit = limit.toNat := by simp [Machine.budget, hlimit]
    rw [Debugger.runAttached, hon.runWith_eq m trivial limit, hbudget]
    exact h.run_enters limit.toNat host m
  refine ⟨hrecords host, ?_⟩
  intro other hbreaking hbreak hwatch
  rw [hrecords other, hbreaking]
  simp only [Machine.recorded, Points.heed_congr hbreak hwatch]

/-! ## Recorders -/

/-- What a recorder sees at a stop. -/
def Event.ofMoment : Machine × Signal → Event
  | (m, .reading address) => .read address (m.memory.read address) m.counter
  | (m, .written address) => .write address (m.memory.read address) m.counter
  | (m, _) => .break m.counter

/-- A recorder that handles all stops and does not halt the machine keeps a journal. -/
theorem Recorder.handlers_keepJournal {recording : Recording} (hbreaks : recording.breaks = true)
    (hreads : recording.reads = true) (hwrites : recording.writes = true)
    (hhalts : recording.halts = false) :
    (handlers recording).KeepJournal Recorder.debugger (fun r => r.events.toList) Event.ofMoment
      recording.clearsBreak := by
  refine ⟨⟨atBreak recording, by simp [handlers, hbreaks], ?_⟩,
    ⟨atRead, by simp [handlers, hreads], ?_⟩, ⟨atWrite, by simp [handlers, hwrites], ?_⟩⟩
  · intro s
    refine ⟨by simp [atBreak, hhalts], ?_⟩
    cases hclears : recording.clearsBreak <;>
      constructor <;> simp [atBreak, hclears, record, Event.ofMoment]
  · intro address s
    refine ⟨rfl, ?_⟩
    constructor <;> simp [atRead, record, Event.ofMoment]
  · intro address s
    refine ⟨rfl, ?_⟩
    constructor <;> simp [atWrite, record, Event.ofMoment]

/-- A machine that loads a register through address nine, stores an index register at address twelve
and then halts. -/
def loadingMachine : Machine :=
  (((Machine.initial.store 0 1321).store 1 18508).store 9 10).store 10 7

/-- A recorder that has been told to break, with watchpoints of all kinds, two of them for the same
reading. -/
def crowdedRecorder : Recorder :=
  { debugger :=
      ⟨true,
        ⟨[2, 5], [⟨0, .read⟩, ⟨0, .other 7⟩, ⟨9, .readWrite⟩, ⟨10, .write⟩, ⟨12, .write⟩]⟩, none⟩
    events := #[] }

/-- The same points in another order, and some of them twice. -/
def shuffledRecorder : Recorder :=
  { debugger :=
      ⟨true, ⟨[5, 2, 2], [⟨12, .write⟩, ⟨10, .write⟩, ⟨9, .readWrite⟩, ⟨0, .other 7⟩, ⟨0, .read⟩,
        ⟨9, .readWrite⟩]⟩, none⟩
    events := #[.break 4] }

/-- The events of a run under a recorder. -/
def eventsOf (r : Recorder) : List Event :=
  (Debugger.runAttached Recorder.debugger (Recorder.handlers .full) 5
    (loadingMachine, r)).2.2.events.toList

/-- Of the run of three steps, five moments are recorded: the fetch and the indirect address, but
not the operand, of the first instruction, its end on request, the writing of the second, and its
end at a breakpoint. -/
theorem loadingMachine_events :
    eventsOf crowdedRecorder =
        [.read 0 1321 0, .read 9 10 1, .break 1, .write 12 0 2, .break 2] ∧
      eventsOf shuffledRecorder = .break 4 :: eventsOf crowdedRecorder := by
  have hkeep : (Recorder.handlers .full).KeepJournal Recorder.debugger (fun r => r.events.toList)
      Event.ofMoment Recording.full.clearsBreak :=
    Recorder.handlers_keepJournal rfl rfl rfl rfl
  obtain ⟨hrecords, hothers⟩ :=
    recorded_are_the_accesses hkeep loadingMachine 5 (by decide) crowdedRecorder
  have hevents : (loadingMachine.recorded crowdedRecorder.debugger.points true true 5).map
      Event.ofMoment = [.read 0 1321 0, .read 9 10 1, .break 1, .write 12 0 2, .break 2] := by
    decide +kernel
  have hbreak (a : Word) : a ∈ shuffledRecorder.debugger.points.breakpoints ↔
      a ∈ crowdedRecorder.debugger.points.breakpoints := by
    simp [shuffledRecorder, crowdedRecorder, or_comm]
  have hwatch (w : Watchpoint) : w ∈ shuffledRecorder.debugger.points.watchpoints ↔
      w ∈ crowdedRecorder.debugger.points.watchpoints := by
    simp only [shuffledRecorder, crowdedRecorder, List.mem_cons, List.not_mem_nil, or_false]
    grind
  refine ⟨hrecords.trans (congrArg ([] ++ ·) hevents), ?_⟩
  exact (hothers shuffledRecorder rfl hbreak hwatch).trans
    (congrArg ([Event.break 4] ++ ·) hrecords.symm)

end WordMachine
