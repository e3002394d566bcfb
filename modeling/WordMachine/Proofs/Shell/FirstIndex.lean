import WordMachine.Proofs.Machine.Footprint
import WordMachine.Proofs.Shell.Jumping

/-!
# The first index register

The first index register of a loaded machine holds zero, whatever is done with the machine. Words
that load it can stand in memory, but no step carries them out, and the shell has no name for it. So
a word that stores the first index register stores zero.

## Implementation notes

A prompt can open in the middle of an instruction and edit the machine there. It is therefore shown
of every monitor that keeps the register at zero at its own signals that steps and runs under it do
so as well, and of the machine at each signal on the way.

A run or a session without a limit is given `Machine.patience` steps. A machine would go on after
them, by further steps like those that are covered.
-/

namespace WordMachine

namespace Machine

/-- The first index register holds zero. -/
def FirstIndexClear (m : Machine) : Prop := m.index.get (Fields.slot 0) = 0

theorem FirstIndexClear.setIndex {m : Machine} (h : m.FirstIndexClear) {slot : Fin 4}
    (hslot : slot ≠ Fields.slot 0) (word : Word) : (m.setIndex slot word).FirstIndexClear :=
  (get_set_of_ne word m.index (Ne.symm hslot)).trans h

theorem FirstIndexClear.store {m : Machine} (h : m.FirstIndexClear) (address word : Word) :
    (m.store address word).FirstIndexClear := h

/-- The index field of a word has two bits, so it names the first index register only if it is
zero. -/
theorem slot_index_ne {word : Word} (h : (Fields.ofWord word).index ≠ 0) :
    Fields.slot (Fields.ofWord word).index ≠ Fields.slot 0 := by
  intro heq
  have hlt : (Fields.ofWord word).index < 4 := by
    rw [Fields.ofWord_eq]
    exact Nat.mod_lt _ (by decide)
  have hval : (Fields.ofWord word).index % 4 = 0 := congrArg Fin.val heq
  omega

/-- Only a reading is heard while an address is found, and the machine is still the same. -/
theorem of_mem_addressSignals {op : Operation} {f : Fields} {m m' : Machine} {signal : Signal}
    (h : (m', signal) ∈ addressSignals op f m) :
    m' = m ∧ signal = .reading (baseAddress op f m) := by
  unfold addressSignals at h
  split at h
  · exact Prod.mk.inj (List.mem_singleton.mp h)
  · cases h

/-! ## Loading -/

theorem index_storeAll (m : Machine) (pairs : List (Int × Word)) :
    (m.storeAll pairs).1.index = m.index := by
  induction pairs generalizing m with
  | nil => rfl
  | cons pair rest ih =>
      unfold storeAll
      split
      · rfl
      · exact ih (m.store (Word.ofInt pair.1) pair.2)

/-- Loading clears the index registers, also if it stops at an address outside the memory. -/
theorem firstIndexClear_reload (m : Machine) (image : Image) :
    (m.reload image).1.FirstIndexClear := by
  have hindex : (m.reload image).1.index = initial.index := by
    rw [← index_storeAll initial image.pairs, reload, reset_eq_initial]
    rcases initial.storeAll image.pairs with ⟨stored, _ | e⟩ <;> rfl
  rw [FirstIndexClear, hindex]
  exact Vector.getElem_replicate (Fields.slot 0).isLt

end Machine

/-! ## Steps under a monitor -/

/-- A monitor that keeps the first index register at zero. -/
structure Monitor.KeepsFirstIndex {σ : Type} (monitor : Monitor σ) : Prop where
  reading : ∀ address s, s.1.FirstIndexClear → (monitor.reading address s).1.FirstIndexClear
  written : ∀ address s, s.1.FirstIndexClear → (monitor.written address s).1.FirstIndexClear
  stepped : ∀ s, s.1.FirstIndexClear → (monitor.stepped s).1.FirstIndexClear

theorem Monitor.silent_keepsFirstIndex (σ : Type) : (silent σ).KeepsFirstIndex :=
  ⟨fun _ _ h => h, fun _ _ h => h, fun _ h => h⟩

namespace Monitor.KeepsFirstIndex

open Machine

variable {σ : Type} {monitor : Monitor σ} (h : monitor.KeepsFirstIndex) {s : Machine × σ}
  (hs : s.1.FirstIndexClear)

include h hs

theorem read (address : Word) : (read monitor address s).2.1.FirstIndexClear :=
  h.reading address s hs

theorem write (address word : Word) : (write monitor address word s).1.FirstIndexClear :=
  h.written address _ hs

theorem effectiveAddress (op : Operation) (f : Fields) :
    (effectiveAddress monitor op f s).2.1.FirstIndexClear := by
  unfold Machine.effectiveAddress
  dsimp only
  split
  · exact h.read hs _
  · exact hs

theorem execute (word : Word) (op : Operation) :
    (execute monitor (Fields.ofWord word) op s).1.FirstIndexClear := by
  have hfound := h.effectiveAddress hs op (Fields.ofWord word)
  cases op with
  | hlt => exact hs
  | ldr => exact h.read hfound _
  | str => exact h.write hfound _ _
  | lda => exact hfound
  | jz =>
      simp only [Machine.execute]
      split
      · exact hfound
      · exact hs
  | stx => exact h.write hfound _ _
  | ldx =>
      simp only [Machine.execute]
      split
      · exact hfound
      · next hindex => exact (h.read hfound _).setIndex (slot_index_ne hindex) _

theorem fetch : (fetch monitor s).2.1.FirstIndexClear := h.read hs s.1.counter

theorem stepWith : (stepWith monitor s).2.1.FirstIndexClear := by
  have hfetched := h.fetch hs
  cases hm : s.1.halted with
  | true => simpa only [Machine.stepWith, hm, if_true] using hs
  | false =>
      simp only [Machine.stepWith, hm, Bool.false_eq_true, if_false]
      split
      · exact hfetched
      · next op _ => exact h.stepped _ (h.execute hfetched _ op)

/-! ## The machine at the signals of a step -/

theorem executeHeard (f : Fields) (op : Operation) :
    ∀ signal ∈ executeHeard monitor f op s, signal.1.FirstIndexClear := by
  have hfound := h.effectiveAddress hs op f
  have haddress : ∀ other ∈ Machine.addressSignals op f s.1, other.1.FirstIndexClear := by
    rintro ⟨m, signal⟩ hother
    rw [(of_mem_addressSignals hother).1]
    exact hs
  -- An access is announced with the machine as it is once the address has been found.
  have haccess {m : Machine} (hm : m.FirstIndexClear) (signal : Signal) :
      ∀ other ∈ Machine.addressSignals op f s.1 ++ [(m, signal)], other.1.FirstIndexClear := by
    intro other hother
    rcases List.mem_append.mp hother with hother | hother
    · exact haddress other hother
    · rw [List.mem_singleton.mp hother]
      exact hm
  cases op with
  | hlt => simp [Machine.executeHeard]
  | lda => exact haddress
  | ldr => exact haccess hfound _
  | str => exact haccess (hfound.store _ _) _
  | stx => exact haccess (hfound.store _ _) _
  | jz =>
      simp only [Machine.executeHeard]
      split
      · exact haddress
      · simp
  | ldx =>
      simp only [Machine.executeHeard]
      split
      · exact haddress
      · exact haccess hfound _

theorem stepHeard : ∀ signal ∈ stepHeard monitor s, signal.1.FirstIndexClear := by
  have hfetched := h.fetch hs
  intro signal hsignal
  cases hm : s.1.halted with
  | true => simp [Machine.stepHeard, hm] at hsignal
  | false =>
      simp only [Machine.stepHeard, hm, Bool.false_eq_true, if_false, List.mem_cons] at hsignal
      rcases hsignal with rfl | rfl | hsignal
      · exact hs
      · exact hfetched
      · split at hsignal
        · cases hsignal
        · next op _ =>
            rcases List.mem_append.mp hsignal with hsignal | hsignal
            · exact h.executeHeard hfetched _ op signal hsignal
            · rw [List.mem_singleton.mp hsignal]
              exact h.execute hfetched _ op

/-! ## Runs -/

theorem runSteps (budget : Nat) : (runSteps monitor budget s).2.1.FirstIndexClear := by
  induction budget generalizing s with
  | zero =>
      unfold Machine.runSteps
      split <;> exact hs
  | succ budget ih =>
      have hstep := h.stepWith hs
      unfold Machine.runSteps
      split
      · exact hs
      · rcases hresult : Machine.stepWith monitor s with ⟨_ | fault, next⟩
        · rw [hresult] at hstep
          exact ih hstep
        · rw [hresult] at hstep
          exact hstep

theorem runWith (limit : Int) : (runWith monitor limit s).2.1.FirstIndexClear := by
  rw [runWith_eq_runSteps]
  exact h.runSteps hs (budget limit)

end Monitor.KeepsFirstIndex

/-! ## Shells -/

namespace Shell

/-- The shell has no name for the first index register. -/
theorem target?_ne_firstIndex {name : Text} {slot : Fin 4}
    (h : target? name = some (.index slot)) : slot ≠ Fields.slot 0 := by
  rintro rfl
  revert h
  unfold target?
  repeat' split
  all_goals decide

theorem firstIndexClear_assign {name : Text} {target : Target} (h : target? name = some target)
    (word : Word) {m : Machine} (hm : m.FirstIndexClear) :
    (target.assign word m).FirstIndexClear := by
  cases target with
  | general slot => exact hm
  | index slot => exact hm.setIndex (target?_ne_firstIndex h) word
  | counter => exact hm

/-- No command sets the first index register to anything but zero. -/
theorem firstIndexClear_perform (command : Command) {m : Machine} (hm : m.FirstIndexClear)
    (sh : Shell) : (perform (m, sh) command).1.FirstIndexClear := by
  cases command with
  | register arguments =>
      change (register (m, sh) arguments).1.FirstIndexClear
      fun_cases register (m, sh) arguments with
      | case4 name token word hvalue target htarget => exact firstIndexClear_assign htarget word hm
      | _ => exact hm
  | jump arguments =>
      change (jump (m, sh) arguments).1.FirstIndexClear
      fun_cases jump (m, sh) arguments <;> exact hm
  | set arguments =>
      change (setWord (m, sh) arguments).1.FirstIndexClear
      fun_cases setWord (m, sh) arguments <;> exact hm
  | reset =>
      change (reset (m, sh)).1.FirstIndexClear
      have hloaded := m.firstIndexClear_reload sh.image
      fun_cases reset (m, sh) <;> simp_all
  | _ => exact hm

theorem firstIndexClear_converse (closing : Closing) (pending : List Reading) {m : Machine}
    (hm : m.FirstIndexClear) (sh : Shell) :
    (converse closing pending (m, sh)).1.FirstIndexClear := by
  induction pending generalizing m sh with
  | nil => cases closing <;> exact hm
  | cons reading rest ih =>
      cases reading with
      | overlong => exact hm
      | line text =>
          cases hwords : sh.wordsOf text with
          | nil =>
              have hask : sh.ask.wordsOf text = [] := hwords
              simp only [converse, hask]
              exact ih hm sh.ask
          | cons name arguments =>
              let named : Shell := { sh.ask with lastWords := name :: arguments }
              have hperformed := firstIndexClear_perform (Command.parse name arguments) hm named
              rcases hperform : perform (m, named) (Command.parse name arguments) with ⟨m', after⟩
              rw [hperform] at hperformed
              rw [converse_line hwords hperform]
              split
              · exact hperformed
              · exact ih hperformed after

theorem firstIndexClear_talk {m : Machine} (hm : m.FirstIndexClear) (sh : Shell) :
    (talk (m, sh)).1.FirstIndexClear :=
  firstIndexClear_converse sh.input.closing sh.input.pending hm sh

/-- A stop is handled by opening a prompt, and nothing happens where the debugger does not stop. -/
theorem firstIndexClear_of_handled (stops : Bool) {handled s : Machine × Shell}
    (hhandled : handled.1.FirstIndexClear) (hs : s.1.FirstIndexClear) :
    (if stops then handled else s).1.FirstIndexClear := by
  cases stops with
  | true => exact hhandled
  | false => exact hs

/-- Wherever a prompt opens, it keeps the first index register at zero. -/
theorem monitor_keepsFirstIndex (tracing : Bool) : (monitor tracing).KeepsFirstIndex where
  reading address s hs :=
    firstIndexClear_of_handled (s.2.debugger.points.watchesReading address)
      (firstIndexClear_talk hs _) hs
  written address s hs :=
    firstIndexClear_of_handled (s.2.debugger.points.watchesWriting address)
      (firstIndexClear_talk hs _) hs
  stepped s hs :=
    firstIndexClear_of_handled (s.2.debugger.stopsAfter s.1) (firstIndexClear_talk hs _) hs

theorem firstIndexClear_proceed (tracing : Bool) (limit : Int) (budget : Nat)
    {s : Machine × Shell} (hs : s.1.FirstIndexClear) :
    (proceed tracing limit budget s).2.1.FirstIndexClear := by
  induction budget generalizing s with
  | zero =>
      unfold proceed
      split <;> exact hs
  | succ budget ih =>
      by_cases hgoes : GoesOn s
      · have hstep := (monitor_keepsFirstIndex tracing).stepWith hs
        rcases hresult : Machine.stepWith (monitor tracing) s with ⟨_ | fault, next⟩
        · rw [hresult] at hstep
          rw [proceed_of_step hgoes hresult]
          exact ih hstep
        · rw [hresult] at hstep
          rw [proceed_of_fault hgoes hresult]
          exact hstep
      · rw [proceed_of_stop hgoes]
        exact hs

theorem firstIndexClear_session (tracing : Bool) (limit : Int) {m : Machine}
    (hm : m.FirstIndexClear) (sh : Shell) :
    (session tracing limit (m, sh)).2.1.FirstIndexClear := by
  have hopened : (opening (m, sh)).1.FirstIndexClear := firstIndexClear_talk hm _
  have hproceeded := firstIndexClear_proceed tracing limit (Machine.budget limit) hopened
  unfold session
  rcases hresult : proceed tracing limit (Machine.budget limit) (opening (m, sh)) with
    ⟨_ | fault, last⟩
  · rw [hresult] at hproceeded
    change (closing last).1.FirstIndexClear
    rw [closing_machine]
    exact hproceeded
  · rw [hresult] at hproceeded
    exact hproceeded

end Shell

/-! ## Whatever is done -/

namespace Machine

/-- The machines that can be reached from a loaded one, by any sequence of steps, runs, loads and
shell commands. A shell may have any points, symbols, image and script, and a machine is also
reached where a signal is heard in the middle of a step under a shell. -/
inductive Reached : Machine → Prop
  | load (image : Image) : Reached (load image).1
  | reload {m : Machine} (h : Reached m) (image : Image) : Reached (m.reload image).1
  | step {m : Machine} (h : Reached m) : Reached m.step.2
  | run {m : Machine} (h : Reached m) (limit : Int) : Reached (m.run limit).2
  | command {m : Machine} (h : Reached m) (sh : Shell) (command : Shell.Command) :
      Reached (Shell.perform (m, sh) command).1
  | prompt {m : Machine} (h : Reached m) (sh : Shell) : Reached (Shell.talk (m, sh)).1
  | watchedStep {m : Machine} (h : Reached m) (tracing : Bool) (sh : Shell) :
      Reached (stepWith (Shell.monitor tracing) (m, sh)).2.1
  | watchedRun {m : Machine} (h : Reached m) (tracing : Bool) (limit : Int) (sh : Shell) :
      Reached (runWith (Shell.monitor tracing) limit (m, sh)).2.1
  | session {m : Machine} (h : Reached m) (tracing : Bool) (limit : Int) (sh : Shell) :
      Reached (Shell.session tracing limit (m, sh)).2.1
  | signal {m m' : Machine} (h : Reached m) (tracing : Bool) (sh : Shell) (signal : Signal)
      (hheard : (m', signal) ∈ stepHeard (Shell.monitor tracing) (m, sh)) : Reached m'

theorem Reached.firstIndexClear {m : Machine} (h : m.Reached) : m.FirstIndexClear := by
  have hsilent := Monitor.silent_keepsFirstIndex Unit
  induction h with
  | load image => exact initial.firstIndexClear_reload image
  | @reload m _ image _ => exact m.firstIndexClear_reload image
  | step _ ih => exact hsilent.stepWith ih
  | run _ limit ih => exact hsilent.runWith ih limit
  | command _ sh command ih => exact Shell.firstIndexClear_perform command ih sh
  | prompt _ sh ih => exact Shell.firstIndexClear_talk ih sh
  | watchedStep _ tracing sh ih => exact (Shell.monitor_keepsFirstIndex tracing).stepWith ih
  | watchedRun _ tracing limit sh ih =>
      exact (Shell.monitor_keepsFirstIndex tracing).runWith ih limit
  | session _ tracing limit sh ih => exact Shell.firstIndexClear_session tracing limit ih sh
  | signal _ tracing sh signal hheard ih =>
      exact (Shell.monitor_keepsFirstIndex tracing).stepHeard ih _ hheard

/-! ## Storing the first index register -/

/-- A step that stores an index register writes once: its content at the time when the address has
been found, to that address. -/
theorem written_mem_stepHeard_iff {σ : Type} {monitor : Monitor σ} {s : Machine × σ} {f : Fields}
    {stored : Machine} {address : Word} (hm : s.1.halted = false)
    (hf : Fields.ofWord (fetch monitor s).1 = f) (hop : Operation.ofOpcode? f.opcode = some .stx) :
    (stored, .written address) ∈ stepHeard monitor s ↔
      ∃ found : Machine × σ,
        effectiveAddress monitor .stx f (fetch monitor s).2 = (address, found) ∧
        stored = found.1.store address (found.1.index.get (Fields.slot f.index)) := by
  have hheard : stepHeard monitor s =
      (s.1, .reading s.1.counter) ::
      ((fetch monitor s).2.1, .fetched s.1.counter (fetch monitor s).1) ::
      (executeHeard monitor f .stx (fetch monitor s).2 ++
        [((execute monitor f .stx (fetch monitor s).2).1, .stepped)]) := by
    subst hf
    rw [fetch] at hop
    simp only [stepHeard, hm, Bool.false_eq_true, if_false, hop]
    rfl
  have haddress : (stored, .written address) ∉ addressSignals .stx f (fetch monitor s).2.1 := by
    intro hmem
    cases (of_mem_addressSignals hmem).2
  rcases hfound : effectiveAddress monitor .stx f (fetch monitor s).2 with ⟨target, found⟩
  simp only [hheard, executeHeard, hfound]
  simp only [List.mem_cons, List.mem_append, Prod.mk.injEq, haddress, List.not_mem_nil,
    Signal.written.injEq, reduceCtorEq, and_false, or_false, false_or]
  constructor
  · rintro ⟨rfl, rfl⟩
    exact ⟨found, ⟨rfl, rfl⟩, rfl⟩
  · rintro ⟨_, ⟨rfl, rfl⟩, rfl⟩
    exact ⟨rfl, rfl⟩

/-- Storing the first index register under a shell writes one word, and the word is zero when it is
written. -/
theorem FirstIndexClear.exists_written {m : Machine} (h : m.FirstIndexClear) (tracing : Bool)
    (sh : Shell) {f : Fields} (hm : m.halted = false)
    (hf : Fields.ofWord (fetch (Shell.monitor tracing) (m, sh)).1 = f)
    (hop : Operation.ofOpcode? f.opcode = some .stx) (hindex : f.index = 0) :
    ∃ stored address,
      (∀ other a, (other, .written a) ∈ stepHeard (Shell.monitor tracing) (m, sh) ↔
        other = stored ∧ a = address) ∧
      stored.memory.read address = 0 := by
  have hkeeps := Shell.monitor_keepsFirstIndex tracing
  have hfetched := hkeeps.fetch (s := (m, sh)) h
  have hclear := hkeeps.effectiveAddress hfetched .stx f
  rcases hfound : effectiveAddress (Shell.monitor tracing) .stx f
    (fetch (Shell.monitor tracing) (m, sh)).2 with ⟨address, found⟩
  rw [hfound] at hclear
  refine ⟨found.1.store address (found.1.index.get (Fields.slot f.index)), address, ?_, ?_⟩
  · intro other a
    rw [written_mem_stepHeard_iff hm hf hop, hfound]
    constructor
    · rintro ⟨_, ⟨rfl, rfl⟩, rfl⟩
      exact ⟨rfl, rfl⟩
    · rintro ⟨rfl, rfl⟩
      exact ⟨found, rfl, rfl⟩
  · rw [hindex]
    exact (Memory.read_write_self _ _ _).trans hclear

/-- Storing the first index register with nobody looking on leaves zero in memory. -/
theorem FirstIndexClear.read_step {m : Machine} (h : m.FirstIndexClear) (hm : m.halted = false)
    (hop : m.operation? = some .stx) (hindex : m.current.index = 0) :
    m.step.2.memory.read (operandAddress .stx m.current m) = 0 := by
  calc
    m.step.2.memory.read (operandAddress .stx m.current m) =
        m.index.get (Fields.slot m.current.index) := by
      rw [step_eq_operate hm hop]
      exact Memory.read_write_self _ _ _
    _ = m.index.get (Fields.slot 0) := by rw [hindex]
    _ = 0 := h

end Machine

/-- The first index register is always zero: in a machine that has been loaded, and after any
sequence of steps, runs, further loads and shell commands, also in the middle of an instruction. So
a word that stores it stores zero, with nobody looking on and under a shell that edits the machine
on the way. -/
theorem first_index_register_is_zero (m : Machine) (h : m.Reached) :
    m.index.get (Fields.slot 0) = 0 ∧
    (m.halted = false → m.operation? = some .stx → m.current.index = 0 →
      m.step.2.memory.read (Machine.operandAddress .stx m.current m) = 0) ∧
    ∀ (tracing : Bool) (sh : Shell) (f : Fields), m.halted = false →
      Fields.ofWord (Machine.fetch (Shell.monitor tracing) (m, sh)).1 = f →
      Operation.ofOpcode? f.opcode = some .stx → f.index = 0 →
      ∃ stored address,
        (∀ other a, (other, .written a) ∈ Machine.stepHeard (Shell.monitor tracing) (m, sh) ↔
          other = stored ∧ a = address) ∧
        stored.memory.read address = 0 := by
  have hclear := h.firstIndexClear
  refine ⟨hclear, hclear.read_step, ?_⟩
  intro tracing sh f hm hf hop hindex
  exact hclear.exists_written tracing sh hm hf hop hindex

/-- A word that would load the first index register from address 5, one that stores it to address 6,
and words other than zero at both addresses. -/
def indexZeroWords : Image := .ofPairs [(0, 33797), (1, 18438), (5, 7), (6, 3)]

/-- The machine with these words. -/
def indexZeroStart : Machine :=
  (((Machine.initial.store 0 33797).store 1 18438).store 5 7).store 6 3

theorem load_indexZeroWords : (Machine.load indexZeroWords).1 = indexZeroStart := by
  have hpairs : indexZeroWords.pairs = [(0, 33797), (1, 18438), (5, 7), (6, 3)] := by
    decide +kernel
  rw [Machine.load, Machine.reload, Machine.reset_eq_initial, Machine.entryPoint, hpairs]
  rfl

/-- The shell is asked to set the first index register, and then another one at the watched reading
of the first instruction. -/
def indexZeroScript : Text := Text.ascii "r x0 9\nw add 0 r\nc\nr x1 9\nc\n"

/-- The machine after the first of the two instructions, under the shell. -/
def indexZeroMachine : Machine :=
  (Shell.session false 1
    (indexZeroStart, Shell.start .standard indexZeroWords none (.ofText indexZeroScript))).2.1

/-- The other index register has been set, the first one has not, and zero is stored. -/
theorem indexZeroMachine_stores_zero :
    indexZeroMachine.index.get (Fields.slot 1) = 9 ∧
      indexZeroMachine.index.get (Fields.slot 0) = 0 ∧ indexZeroMachine.memory.read 6 = 3 ∧
      indexZeroMachine.step.2.memory.read 6 = 0 := by
  have hstart : indexZeroStart.Reached := load_indexZeroWords ▸ .load indexZeroWords
  have hreached : indexZeroMachine.Reached := .session hstart false 1 _
  obtain ⟨hzero, hstores, -⟩ := first_index_register_is_zero indexZeroMachine hreached
  have hother : indexZeroMachine.index.get (Fields.slot 1) = 9 := by decide +kernel
  have hbefore : indexZeroMachine.memory.read 6 = 3 := by decide +kernel
  have haddress : Machine.operandAddress .stx indexZeroMachine.current indexZeroMachine = 6 := by
    decide +kernel
  rw [haddress] at hstores
  exact ⟨hother, hzero, hbefore,
    hstores (by decide +kernel) (by decide +kernel) (by decide +kernel)⟩

end WordMachine
