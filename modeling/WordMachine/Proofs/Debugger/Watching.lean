import WordMachine.Proofs.Debugger.Transparency
import WordMachine.Proofs.Machine.Interference

/-!
# What watchpoints see

A debugger that records watched readings records every way in which the word at a watched address
can influence a run. A run in which no reading of that address is recorded is therefore the same
run, except for the word itself, whatever the word is.

## Implementation notes

A run without a limit is given `Machine.patience` steps, and if it is not over by then it ends with
the fault of a limit that has been reached. A machine would go on. What is said about such runs is
said about these steps of theirs.
-/

namespace WordMachine

section Journal

variable {σ : Type} {debugger : σ → Debugger} {reads : σ → List Word} {handlers : Handlers σ}

/-! ## Handlers that only record -/

/-- What a handler that only records does: it adds to the journal of readings, and leaves the
machine and the points of the debugger as they are. -/
structure OnlyAdds (debugger : σ → Debugger) (reads : σ → List Word) (added : List Word)
    (s after : Machine × σ) : Prop where
  machine : after.1 = s.1
  points : (debugger after.2).points = (debugger s.2).points
  reads : reads after.2 = reads s.2 ++ added

/-- Handlers that only record. Watched readings are handled, and their addresses go into the journal
in the order of the readings; nothing else goes there. -/
structure Handlers.OnlyRecord (debugger : σ → Debugger) (reads : σ → List Word)
    (handlers : Handlers σ) : Prop where
  atBreak : ∀ handle ∈ handlers.atBreak, ∀ s, OnlyAdds debugger reads [] s (handle s)
  atRead : ∃ handle, handlers.atRead = some handle ∧
    ∀ address s, OnlyAdds debugger reads [address] s (handle address s)
  atWrite : ∀ handle ∈ handlers.atWrite, ∀ address s,
    OnlyAdds debugger reads [] s (handle address s)

/-- A run of a machine with a debugger attached. -/
def Debugger.runAttached (debugger : σ → Debugger) (handlers : Handlers σ) (limit : Int)
    (s : Machine × σ) : Option Fault × (Machine × σ) :=
  Machine.runWith (monitor debugger handlers fun _ _ host => host) limit s

theorem Handlers.OnlyRecord.isPassive (h : handlers.OnlyRecord debugger reads) :
    handlers.IsPassive := by
  constructor
  · intro handle hhandle s
    exact (h.atBreak handle hhandle s).machine
  · intro handle hhandle address s
    obtain ⟨found, hfound, hadds⟩ := h.atRead
    obtain rfl : found = handle := Option.some.inj (hfound.symm.trans hhandle)
    exact (hadds address s).machine
  · intro handle hhandle address s
    exact (h.atWrite handle hhandle address s).machine

/-! ## The journal of a run -/

/-- What a signal adds to the journal: the address of a watched reading. -/
def Points.recorded (points : Points) : Signal → List Word
  | .reading address => if points.watchesReading address then [address] else []
  | _ => []

namespace Handlers.OnlyRecord

variable (h : handlers.OnlyRecord debugger reads)

include h

theorem hear_adds (m : Machine) (host : σ) (signal : Signal) :
    OnlyAdds debugger reads ((debugger host).points.recorded signal) (m, host)
      (m, (Debugger.monitor debugger handlers fun _ _ host => host).hear host (m, signal)) := by
  have hsame : OnlyAdds debugger reads [] (m, host) (m, host) := ⟨rfl, rfl, by simp⟩
  obtain ⟨handle, hhandle, hadds⟩ := h.atRead
  cases signal with
  | reading address =>
      simp only [Monitor.hear, Debugger.monitor, hhandle, Points.recorded]
      split
      · exact { hadds address (m, host) with machine := rfl }
      · exact hsame
  | written address =>
      simp only [Monitor.hear, Debugger.monitor, Points.recorded]
      split
      · exact hsame
      · next handle hhandle =>
          split
          · exact { h.atWrite handle hhandle address (m, host) with machine := rfl }
          · exact hsame
  | fetched address word => exact hsame
  | stepped =>
      simp only [Monitor.hear, Debugger.monitor, Points.recorded]
      split
      · exact hsame
      · next handle hhandle =>
          split
          · exact { h.atBreak handle hhandle (m, host) with machine := rfl }
          · exact hsame

/-- The journal grows by the watched readings among the signals, in their order. -/
theorem reads_foldl_hear (host : σ) (signals : List (Machine × Signal)) :
    reads (signals.foldl (Debugger.monitor debugger handlers fun _ _ host => host).hear host) =
      reads host ++ (signals.map Prod.snd).flatMap (debugger host).points.recorded := by
  induction signals generalizing host with
  | nil => simp
  | cons signal signals ih =>
      obtain ⟨m, signal⟩ := signal
      have hheard := h.hear_adds m host signal
      rw [List.foldl_cons, ih, hheard.reads, hheard.points, List.map_cons, List.flatMap_cons,
        List.append_assoc]

/-- A run under a debugger that only records, and its journal. -/
theorem runAttached_eq (m : Machine) (host : σ) (limit : Int) :
    ∃ after, Debugger.runAttached debugger handlers limit (m, host) =
        ((m.run limit).1, (m.run limit).2, after) ∧
      reads after = reads host ++
        ((Machine.runSignals (Machine.budget limit) m).map Prod.snd).flatMap
          (debugger host).points.recorded := by
  have hpassive : (Debugger.monitor debugger handlers fun _ _ host => host).IsPassive :=
    Debugger.monitor_isPassive h.isPassive
  have hon : (Debugger.monitor debugger handlers fun _ _ host => host).IsPassiveOn fun _ => True :=
    hpassive.on fun _ _ _ => trivial
  exact ⟨_, hon.runWith_eq m trivial limit, h.reads_foldl_hear host _⟩

end Handlers.OnlyRecord

theorem Points.watchesReading_of_mem {points : Points} {w : Watchpoint}
    (hmem : w ∈ points.watchpoints) (hkind : w.kind ≠ .write) :
    points.watchesReading w.address := by
  apply List.any_eq_true.mpr
  exact ⟨w, hmem, by simp [WatchKind.seesReading, hkind]⟩

/-- An address that is watched and not recorded has not been read. -/
theorem unread_of_not_recorded {points : Points} {a : Word} (hwatch : points.watchesReading a)
    {signals : List (Machine × Signal)}
    (h : a ∉ (signals.map Prod.snd).flatMap points.recorded) : Machine.Unread a signals := by
  intro hread
  apply h
  exact List.mem_flatMap.mpr ⟨_, hread, by simp [Points.recorded, hwatch]⟩

end Journal

/-! ## Recorders -/

/-- The address of a reading. -/
def Event.readAddress? : Event → Option Word
  | .read address _ _ => some address
  | _ => none

/-- The addresses of the readings that a recorder has recorded. -/
def Recorder.reads (r : Recorder) : List Word := r.events.toList.filterMap Event.readAddress?

/-- A recorder that handles readings and does not halt the machine only records. -/
theorem Recorder.handlers_onlyRecord {recording : Recording} (hreads : recording.reads = true)
    (hhalts : recording.halts = false) :
    (handlers recording).OnlyRecord Recorder.debugger Recorder.reads := by
  constructor
  · intro handle hhandle s
    simp only [handlers, Option.mem_ite_none_right, Option.mem_some] at hhandle
    obtain ⟨-, rfl⟩ := hhandle
    cases hclears : recording.clearsBreak with
    | false =>
        constructor <;>
          simp [atBreak, hhalts, hclears, record, reads, Event.readAddress?]
    | true =>
        constructor <;>
          simp [atBreak, hhalts, hclears, record, reads, Event.readAddress?]
  · refine ⟨atRead, by simp [handlers, hreads], ?_⟩
    intro address s
    constructor <;> simp [atRead, record, reads, Event.readAddress?]
  · intro handle hhandle address s
    simp only [handlers, Option.mem_ite_none_right, Option.mem_some] at hhandle
    obtain ⟨-, rfl⟩ := hhandle
    constructor <;> simp [atWrite, record, reads, Event.readAddress?]

/-- Watchpoints miss nothing that a program reads. Let a debugger only record, and let it watch the
readings of an address, and let two machines differ at most in the word there. If a run of the
first records no reading of the address, then a run of the second records the same readings, fails
with the same fault or does not fail, and ends in the same state except for that word. -/
theorem unrecorded_word_makes_no_difference {σ : Type} {debugger : σ → Debugger}
    {reads : σ → List Word} {handlers : Handlers σ}
    (hrecord : handlers.OnlyRecord debugger reads) (host : σ) (w : Watchpoint)
    (hwatch : w ∈ (debugger host).points.watchpoints) (hkind : w.kind ≠ .write) (m m' : Machine)
    (hagree : m.AgreeExcept w.address m') (limit : Int) (recorded : List Word)
    (hreads : reads (Debugger.runAttached debugger handlers limit (m, host)).2.2 =
      reads host ++ recorded)
    (hunread : w.address ∉ recorded) :
    reads (Debugger.runAttached debugger handlers limit (m', host)).2.2 =
        reads host ++ recorded ∧
      (Debugger.runAttached debugger handlers limit (m', host)).1 =
        (Debugger.runAttached debugger handlers limit (m, host)).1 ∧
      (Debugger.runAttached debugger handlers limit (m, host)).2.1.AgreeExcept w.address
        (Debugger.runAttached debugger handlers limit (m', host)).2.1 := by
  obtain ⟨after, hrun, hafter⟩ := hrecord.runAttached_eq m host limit
  obtain ⟨after', hrun', hafter'⟩ := hrecord.runAttached_eq m' host limit
  rw [hrun] at hreads ⊢
  rw [hrun']
  obtain rfl := List.append_cancel_left (hreads.symm.trans hafter)
  have hwatched := Points.watchesReading_of_mem hwatch hkind
  have hruns := hagree.run (unread_of_not_recorded hwatched hunread)
  obtain ⟨hfault, hlast⟩ := hruns.run_eq
  refine ⟨?_, hfault, hlast⟩
  rw [hafter', hruns.signals]

/-- A machine that is about to store register zero at address nine and then halts. -/
def overwritingMachine : Machine := Machine.initial.store 0 2057

/-- A recorder that watches address nine and readings of address zero. -/
def watchingRecorder : Recorder :=
  { debugger := ⟨false, ⟨[], [⟨9, .readWrite⟩, ⟨0, .read⟩]⟩, none⟩
    events := #[] }

/-- A run of a machine under that recorder. -/
def watchedRun (m : Machine) : Option Fault × (Machine × Recorder) :=
  Debugger.runAttached Recorder.debugger (Recorder.handlers .full) 5 (m, watchingRecorder)

/-- The run records that the first instruction is read, and that the word at address nine is not. So
that word makes no difference to it. -/
theorem overwritingMachine_run :
    (watchedRun overwritingMachine).2.2.reads = [0] ∧
      (watchedRun (overwritingMachine.store 9 777)).2.2.reads = [0] ∧
      (watchedRun (overwritingMachine.store 9 777)).1 = (watchedRun overwritingMachine).1 ∧
      (watchedRun overwritingMachine).2.1.AgreeExcept 9
        (watchedRun (overwritingMachine.store 9 777)).2.1 := by
  have hreads : (watchedRun overwritingMachine).2.2.reads = watchingRecorder.reads ++ [0] := by
    decide +kernel
  have hagree : overwritingMachine.AgreeExcept 9 (overwritingMachine.store 9 777) := by
    refine ⟨rfl, rfl, rfl, rfl, rfl, ?_⟩
    intro b hb
    exact Memory.read_write_of_ne _ _ hb
  exact ⟨hreads, unrecorded_word_makes_no_difference (Recorder.handlers_onlyRecord rfl rfl)
    watchingRecorder ⟨9, .readWrite⟩ (by simp [watchingRecorder]) (by decide) overwritingMachine _
    hagree 5 [0] hreads (by decide)⟩

end WordMachine
