import Mathlib.Data.List.Basic
import WordMachine.Proofs.Machine.Loading
import WordMachine.Proofs.Shell.Loop

/-!
# Moving the program counter at a prompt

A prompt can set the program counter, and the machine is then expected to go on from there. Where it
goes on in fact depends on where the prompt has opened. At the end of a step, and at the beginning
of a session, the next instruction is the one that has been asked for. In the middle of an
instruction the step still has to be finished: the program counter moves past the instruction only
after the fetch has been announced, and a jump that is taken moves it after the address has been
read.

## Implementation notes

At each signal of a step a prompt may open and set the program counter. The settings are listed
signal by signal, and what the step itself does to the program counter is told apart from them.

A session without a limit is given `Machine.patience` steps, and if it is not over by then it ends
with the fault of a limit that has been reached. A machine would go on. What is said about such
sessions is said about these steps of theirs.
-/

namespace WordMachine

namespace Machine

variable {σ : Type} (monitor : Monitor σ)

/-- The instruction of a step, and the state once it has been fetched. -/
def fetch (s : Machine × σ) : Word × (Machine × σ) :=
  let (word, read) := read monitor s.1.counter s
  (word, read.1.latch word, monitor.fetched s.1.counter word read.2)

/-- What a step has done that has not failed, and what has been heard of it. -/
theorem exists_of_stepWith {s next : Machine × σ} (h : stepWith monitor s = (none, next)) :
    ∃ op, Operation.ofOpcode? (Fields.ofWord (fetch monitor s).1).opcode = some op ∧
      next = monitor.stepped
        (execute monitor (Fields.ofWord (fetch monitor s).1) op (fetch monitor s).2) ∧
      stepHeard monitor s =
        (s.1, .reading s.1.counter) ::
        ((fetch monitor s).2.1, .fetched s.1.counter (fetch monitor s).1) ::
        (executeHeard monitor (Fields.ofWord (fetch monitor s).1) op (fetch monitor s).2 ++
          [((execute monitor (Fields.ofWord (fetch monitor s).1) op (fetch monitor s).2).1,
            .stepped)]) := by
  unfold fetch
  rcases hread : read monitor s.1.counter s with ⟨word, m, host⟩
  cases hm : s.1.halted with
  | true => simp [stepWith, hm] at h
  | false =>
      cases hop : Operation.ofOpcode? (Fields.ofWord word).opcode with
      | none => simp [stepWith, hm, hread, hop] at h
      | some op =>
          refine ⟨op, rfl, ?_, ?_⟩
          · simpa [stepWith, hm, hread, hop] using h.symm
          · simp [stepHeard, hm, hread, hop]

/-- The program counter is set by loading, whatever it was before. -/
theorem reload_counter (m : Machine) (image : Image) :
    (m.reload image).1.counter = (load image).1.counter := by
  rw [load, reload, reload, reset_eq_initial, reset_eq_initial]

end Machine

namespace Shell

/-! ## The last of some settings -/

/-- The last setting among some places that may have one each. -/
def lastSetting? : List (Option Word) → Option Word
  | [] => none
  | setting :: settings => (lastSetting? settings).or setting

theorem lastSetting?_append (settings later : List (Option Word)) :
    lastSetting? (settings ++ later) = (lastSetting? later).or (lastSetting? settings) := by
  induction settings with
  | nil => exact Option.or_none.symm
  | cons setting settings ih =>
      rw [List.cons_append, lastSetting?, ih, lastSetting?, Option.or_assoc]

theorem lastSetting?_eq_none {settings : List (Option Word)}
    (h : ∀ setting ∈ settings, setting = none) : lastSetting? settings = none := by
  induction settings with
  | nil => rfl
  | cons setting settings ih =>
      rw [lastSetting?, ih fun other hother => h other (List.mem_cons_of_mem _ hother),
        h setting List.mem_cons_self, Option.none_or]

/-! ## Commands that set the program counter -/

/-- The address to which a jump with some arguments moves, if they are accepted. Labels are searched
in the given order. -/
def jumpCounter? (order : List (Word × Text)) : List Text → Option Word
  | [token] => (Argument.address order token).toOption
  | _ => none

/-- The address to which a register command sets the program counter, if its arguments ask for that
and are accepted. -/
def registerCounter? : List Text → Option Word
  | [name, token] =>
    match Argument.value token, target? (Text.upper name) with
    | .ok word, some .counter => some word
    | _, _ => none
  | _ => none

/-- The address to which a command sets the program counter, if it does. -/
def Command.counter? (order : List (Word × Text)) (image : Image) : Command → Option Word
  | .jump arguments => jumpCounter? order arguments
  | .register arguments => registerCounter? arguments
  | .reset => some (Machine.load image).1.counter
  | _ => none

/-- The commands that are given at a prompt, up to the one that leaves it, each with the number of
prompts up to it. -/
def commandsAt : Nat → List Text → List Reading → List (Nat × Command)
  | _, _, [] => []
  | _, _, .overlong :: _ => []
  | asked, last, .line text :: rest =>
    match Reading.words last (.line text) with
    | [] => commandsAt (asked + 1) last rest
    | name :: arguments =>
      (asked + 1, Command.parse name arguments) ::
        if (Command.parse name arguments).leavesPrompt then []
        else commandsAt (asked + 1) (name :: arguments) rest

/-- The address to which a command of a shell sets the program counter, if it does. The command is
given after a number of prompts. -/
def counterOf? (sh : Shell) (given : Nat × Command) : Option Word :=
  given.2.counter? (sh.support.search given.1 sh.debugger.symbols) sh.image

/-- The address to which the next prompt of a shell sets the program counter, if it does. -/
def setting? (sh : Shell) : Option Word :=
  lastSetting? ((commandsAt sh.asked sh.lastWords sh.input.pending).map sh.counterOf?)

section Perform

variable (m : Machine) (sh : Shell)

theorem register_counter (arguments : List Text) :
    (register (m, sh) arguments).1.counter = (registerCounter? arguments).getD m.counter := by
  fun_cases register (m, sh) arguments with
  | case1 => rfl
  | case2 name token e hvalue => simp [registerCounter?, hvalue]
  | case3 name token word hvalue htarget => simp [registerCounter?, hvalue, htarget]
  | case4 name token word hvalue target htarget =>
      cases target <;> simp [registerCounter?, hvalue, htarget, Target.assign,
        Machine.setRegister, Machine.setIndex]
  | case5 => simp [registerCounter?, *]

theorem jump_counter (arguments : List Text) :
    (jump (m, sh) arguments).1.counter =
      (jumpCounter? (sh.support.search sh.asked sh.debugger.symbols) arguments).getD
        m.counter := by
  fun_cases jump (m, sh) arguments with
  | case1 token e haddress =>
      rw [Shell.address] at haddress
      simp [jumpCounter?, haddress, Except.toOption]
  | case2 token address haddress =>
      rw [Shell.address] at haddress
      simp [jumpCounter?, haddress, Except.toOption]
  | case3 => simp [jumpCounter?, *]

theorem perform_counter (command : Command) :
    (perform (m, sh) command).1.counter = (sh.counterOf? (sh.asked, command)).getD m.counter := by
  cases command with
  | register arguments => exact register_counter m sh arguments
  | jump arguments => exact jump_counter m sh arguments
  | set arguments =>
      change (setWord (m, sh) arguments).1.counter = m.counter
      fun_cases setWord (m, sh) arguments <;> rfl
  | reset =>
      change (reset (m, sh)).1.counter = (Machine.load sh.image).1.counter
      rw [← m.reload_counter]
      fun_cases reset (m, sh) <;> simp_all
  | _ => rfl

/-- The second shell has the support, the image and the number of prompts of the first. -/
structure StaysAt (sh sh' : Shell) : Prop where
  support : sh'.support = sh.support
  image : sh'.image = sh.image
  asked : sh'.asked = sh.asked

theorem staysAt_breakpoint (action : PointAction) : sh.StaysAt (sh.breakpoint action) := by
  cases action with
  | add arguments =>
      change sh.StaysAt (sh.addBreakpoint arguments)
      fun_cases addBreakpoint sh arguments <;> exact ⟨rfl, rfl, rfl⟩
  | remove arguments =>
      change sh.StaysAt (sh.removeBreakpoint arguments)
      fun_cases removeBreakpoint sh arguments <;> exact ⟨rfl, rfl, rfl⟩
  | _ => exact ⟨rfl, rfl, rfl⟩

theorem staysAt_watchpoint (action : PointAction) : sh.StaysAt (sh.watchpoint action) := by
  cases action with
  | add arguments =>
      change sh.StaysAt (sh.addWatchpoint arguments)
      fun_cases addWatchpoint sh arguments <;> exact ⟨rfl, rfl, rfl⟩
  | remove arguments =>
      change sh.StaysAt (sh.removeWatchpoint arguments)
      fun_cases removeWatchpoint sh arguments <;> exact ⟨rfl, rfl, rfl⟩
  | _ => exact ⟨rfl, rfl, rfl⟩

theorem staysAt_showSource (arguments : List Text) : sh.StaysAt (sh.showSource m arguments) := by
  unfold showSource
  split
  · exact ⟨rfl, rfl, rfl⟩
  · cases sh.debugger.symbols.isNone with
    | false => dsimp only; split <;> exact ⟨rfl, rfl, rfl⟩
    | true => dsimp only; split <;> exact ⟨rfl, rfl, rfl⟩

/-- No command changes the image, and none opens a prompt. -/
theorem staysAt_perform (command : Command) : sh.StaysAt (perform (m, sh) command).2 := by
  cases command with
  | breakpoint action => exact staysAt_breakpoint sh action
  | watchpoint action => exact staysAt_watchpoint sh action
  | register arguments =>
      change sh.StaysAt (register (m, sh) arguments).2
      fun_cases register (m, sh) arguments <;> exact ⟨rfl, rfl, rfl⟩
  | source arguments => exact staysAt_showSource m sh arguments
  | labels =>
      change sh.StaysAt sh.showLabels
      fun_cases showLabels sh <;> exact ⟨rfl, rfl, rfl⟩
  | jump arguments =>
      change sh.StaysAt (jump (m, sh) arguments).2
      fun_cases jump (m, sh) arguments <;> exact ⟨rfl, rfl, rfl⟩
  | memory arguments =>
      change sh.StaysAt (sh.showMemory m arguments)
      fun_cases showMemory sh m arguments <;> exact ⟨rfl, rfl, rfl⟩
  | set arguments =>
      change sh.StaysAt (setWord (m, sh) arguments).2
      fun_cases setWord (m, sh) arguments <;> exact ⟨rfl, rfl, rfl⟩
  | reset =>
      change sh.StaysAt (reset (m, sh)).2
      fun_cases reset (m, sh) <;> exact ⟨rfl, rfl, rfl⟩
  | _ => exact ⟨rfl, rfl, rfl⟩

end Perform

/-! ## Prompts that set the program counter -/

/-- A conversation sets the program counter as the last of its commands that does so. -/
theorem converse_counter (closing : Closing) (pending : List Reading) (m : Machine) (sh : Shell) :
    (converse closing pending (m, sh)).1.counter =
      (lastSetting? ((commandsAt sh.asked sh.lastWords pending).map sh.counterOf?)).getD
        m.counter := by
  induction pending generalizing m sh with
  | nil => cases closing <;> rfl
  | cons reading rest ih =>
      cases reading with
      | overlong => rfl
      | line text =>
          cases hwords : sh.wordsOf text with
          | nil =>
              have hask : sh.ask.wordsOf text = [] := hwords
              have hstand : Reading.words sh.lastWords (.line text) = [] := hwords
              simp only [converse, hask, commandsAt, hstand]
              exact ih m sh.ask
          | cons name arguments =>
              have hstand : Reading.words sh.lastWords (.line text) = name :: arguments := hwords
              let named : Shell := { sh.ask with lastWords := name :: arguments }
              have hcounter := perform_counter m named (Command.parse name arguments)
              have hstays := staysAt_perform m named (Command.parse name arguments)
              have hlast := (perform_quit (Command.parse name arguments) m named).1
              rcases hperform : perform (m, named) (Command.parse name arguments) with ⟨m', after⟩
              rw [hperform] at hcounter hstays hlast
              simp only [converse_line hwords hperform, commandsAt, hstand, List.map_cons,
                lastSetting?, Option.getD_or]
              split
              · exact hcounter
              · next hgoes =>
                  have hquit : Command.parse name arguments ≠ .quit := by
                    intro heq
                    exact hgoes (heq ▸ rfl)
                  have hkeeps := keeps_perform hquit m named
                  rw [hperform] at hkeeps
                  have hsame : after.counterOf? = sh.counterOf? := by
                    funext given
                    rw [counterOf?, counterOf?, hstays.support, hstays.image, hkeeps.symbols]
                    rfl
                  have hrest := ih m' after
                  rwa [hsame, hstays.asked, hlast, hcounter] at hrest

theorem talk_counter (m : Machine) (sh : Shell) :
    (talk (m, sh)).1.counter = sh.setting?.getD m.counter :=
  converse_counter sh.input.closing sh.input.pending m sh

/-- The address to which the prompt at a signal sets the program counter, if one opens and does. -/
def settingAt? (sh : Shell) (signal : Machine × Signal) : Option Word :=
  if sh.debugger.stopsAt signal then sh.setting? else none

section Signals

variable (tracing : Bool) (m : Machine) (sh : Shell) (address : Word)

theorem atAccess_counter : (atAccess address (m, sh)).1.counter = sh.setting?.getD m.counter :=
  talk_counter m _

theorem atBreak_counter : (atBreak (m, sh)).1.counter = sh.setting?.getD m.counter := by
  unfold atBreak
  cases sh.debugger.breaking <;> exact talk_counter m _

/-- Where a stop is handled by opening a prompt, the prompt decides about the program counter. -/
theorem counter_of_handled (stops : Bool) {handled : Machine × Shell}
    (h : handled.1.counter = sh.setting?.getD m.counter) :
    (if stops then handled else (m, sh)).1.counter =
      (if stops then sh.setting? else none).getD m.counter := by
  cases stops with
  | true => exact h
  | false => rfl

theorem reading_counter :
    ((monitor tracing).reading address (m, sh)).1.counter =
      (sh.settingAt? (m, .reading address)).getD m.counter :=
  counter_of_handled m sh (sh.debugger.points.watchesReading address)
    (atAccess_counter m sh address)

theorem written_counter :
    ((monitor tracing).written address (m, sh)).1.counter =
      (sh.settingAt? (m, .written address)).getD m.counter :=
  counter_of_handled m sh (sh.debugger.points.watchesWriting address)
    (atAccess_counter m sh address)

theorem stepped_counter :
    ((monitor tracing).stepped (m, sh)).1.counter =
      (sh.settingAt? (m, .stepped)).getD m.counter :=
  counter_of_handled m sh (sh.debugger.stopsAfter m) (atBreak_counter m sh)

end Signals

/-- For each of some signals, the address to which the prompt there sets the program counter. -/
def settings (tracing : Bool) : Shell → List (Machine × Signal) → List (Option Word)
  | _, [] => []
  | sh, signal :: signals =>
    sh.settingAt? signal :: settings tracing ((monitor tracing).hear sh signal) signals

theorem settings_append (tracing : Bool) (sh : Shell) (signals later : List (Machine × Signal)) :
    settings tracing sh (signals ++ later) = settings tracing sh signals ++
      settings tracing (signals.foldl (monitor tracing).hear sh) later := by
  induction signals generalizing sh with
  | nil => rfl
  | cons signal signals ih =>
      rw [List.cons_append, settings, ih, settings, List.foldl_cons, List.cons_append]

/-! ## The program counter during a step -/

section Step

variable (tracing : Bool)

theorem effectiveAddress_counter (op : Operation) (f : Fields) (s : Machine × Shell) :
    (Machine.effectiveAddress (monitor tracing) op f s).2.1.counter =
      (lastSetting? (settings tracing s.2 (Machine.addressSignals op f s.1))).getD
        s.1.counter := by
  cases hf : f.indirect with
  | false =>
      simp [Machine.effectiveAddress, Machine.addressSignals, hf, settings, lastSetting?]
  | true =>
      simp only [Machine.effectiveAddress, Machine.addressSignals, hf, if_true, settings,
        lastSetting?, Option.none_or]
      exact reading_counter tracing s.1 s.2 (Machine.baseAddress op f s.1)

/-- The address to which an operation moves the program counter, if it is a jump that is taken. -/
def jumpTarget? (f : Fields) (op : Operation) (s : Machine × Shell) : Option Word :=
  match op with
  | .jz =>
    if s.1.registers.get (Fields.slot f.register) = 0 then
      some (Machine.effectiveAddress (monitor tracing) op f s).1
    else none
  | _ => none

/-- The program counter after an operation: a jump that is taken does not respect what a prompt has
set. -/
theorem execute_counter (f : Fields) (op : Operation) (s : Machine × Shell) :
    (Machine.execute (monitor tracing) f op s).1.counter =
      (jumpTarget? tracing f op s).getD
        ((lastSetting? (settings tracing s.2
          (Machine.executeHeard (monitor tracing) f op s))).getD s.1.counter) := by
  rcases hfound : Machine.effectiveAddress (monitor tracing) op f s with ⟨address, m, sh⟩
  have hcounter := effectiveAddress_counter tracing op f s
  have hhost := Machine.effectiveAddress_host (monitor tracing) op f s
  rw [hfound] at hcounter hhost
  -- An operation that reads or writes after it has found its address.
  have haccess (signal : Machine × Signal) :
      (lastSetting? (settings tracing s.2
        (Machine.addressSignals op f s.1 ++ [signal]))).getD s.1.counter =
        (sh.settingAt? signal).getD m.counter := by
    simp only [settings_append, ← hhost, settings, lastSetting?_append, lastSetting?,
      Option.none_or, Option.getD_or, ← hcounter]
  cases op with
  | hlt => rfl
  | lda =>
      simp only [Machine.execute, Machine.executeHeard, hfound, jumpTarget?, Option.getD_none]
      exact hcounter
  | ldr =>
      simp only [Machine.execute, Machine.executeHeard, hfound, jumpTarget?, Option.getD_none,
        haccess]
      exact reading_counter tracing m sh address
  | str =>
      simp only [Machine.execute, Machine.executeHeard, hfound, jumpTarget?, Option.getD_none,
        haccess]
      exact written_counter tracing _ sh address
  | stx =>
      simp only [Machine.execute, Machine.executeHeard, hfound, jumpTarget?, Option.getD_none,
        haccess]
      exact written_counter tracing _ sh address
  | jz =>
      by_cases hzero : s.1.registers.get (Fields.slot f.register) = 0
      · simp only [Machine.execute, jumpTarget?, hzero, if_true, hfound, Option.getD_some]
      · simp [Machine.execute, Machine.executeHeard, jumpTarget?, hzero, settings, lastSetting?]
  | ldx =>
      by_cases hindex : f.index = 0
      · simp only [Machine.execute, Machine.executeHeard, hfound, jumpTarget?, Option.getD_none,
          hindex, if_true]
        exact hcounter
      · simp only [Machine.execute, Machine.executeHeard, hfound, jumpTarget?, Option.getD_none,
          hindex, if_false, haccess]
        exact reading_counter tracing m sh address

/-- The program counter moves past an instruction after its fetch has been announced. -/
theorem fetch_counter (s : Machine × Shell) :
    (Machine.fetch (monitor tracing) s).2.1.counter =
      (s.2.settingAt? (s.1, .reading s.1.counter)).getD s.1.counter + 1 := by
  rw [← reading_counter tracing]
  rfl

/-- The settings at the signals of a step: first at the fetch of the instruction, last at the end of
the step. -/
def stepSettings (s : Machine × Shell) : List (Option Word) :=
  settings tracing s.2 (Machine.stepHeard (monitor tracing) s)

/-- The address to which the instruction of a step moves the program counter, if it is a jump that
is taken. -/
def stepTarget? (s : Machine × Shell) : Option Word :=
  let (word, fetched) := Machine.fetch (monitor tracing) s
  (Operation.ofOpcode? (Fields.ofWord word).opcode).bind fun op =>
    jumpTarget? tracing (Fields.ofWord word) op fetched

/-- The program counter after a step. What is set at its end stands, and what is set before that
comes through unless the instruction is a jump that is taken. What is set at the fetch is moved past
the instruction. -/
theorem stepWith_counter {s next : Machine × Shell}
    (h : Machine.stepWith (monitor tracing) s = (none, next)) :
    ∃ atFetch within atEnd, stepSettings tracing s = atFetch :: none :: (within ++ [atEnd]) ∧
      next.1.counter = atEnd.getD ((stepTarget? tracing s).getD
        ((lastSetting? within).getD (atFetch.getD s.1.counter + 1))) := by
  obtain ⟨op, hop, rfl, hheard⟩ := Machine.exists_of_stepWith (monitor tracing) h
  let f := Fields.ofWord (Machine.fetch (monitor tracing) s).1
  let fetched := (Machine.fetch (monitor tracing) s).2
  let executed := Machine.execute (monitor tracing) f op fetched
  have htarget : stepTarget? tracing s = jumpTarget? tracing f op fetched := by
    simp only [stepTarget?, hop, Option.bind_some, f, fetched]
  refine ⟨s.2.settingAt? (s.1, .reading s.1.counter),
    settings tracing fetched.2 (Machine.executeHeard (monitor tracing) f op fetched),
    executed.2.settingAt? (executed.1, .stepped), ?_, ?_⟩
  · -- No prompt opens when an instruction has been fetched.
    have hrest := settings_append tracing fetched.2
      (Machine.executeHeard (monitor tracing) f op fetched) [(executed.1, .stepped)]
    rw [← Machine.execute_host] at hrest
    rw [stepSettings, hheard]
    exact congrArg (fun rest => _ :: none :: rest) hrest
  · rw [htarget, ← fetch_counter, ← execute_counter]
    exact stepped_counter tracing executed.1 executed.2

/-- Where the machine goes on after a step whose last setting is the given one. -/
theorem counter_of_lastSetting {s next : Machine × Shell} {earlier later : List (Option Word)}
    {address : Word} (h : Machine.stepWith (monitor tracing) s = (none, next))
    (hsettings : stepSettings tracing s = earlier ++ some address :: later)
    (hlater : ∀ setting ∈ later, setting = none) :
    next.1.counter =
      if later = [] then address
      else (stepTarget? tracing s).getD (if earlier = [] then address + 1 else address) := by
  obtain ⟨atFetch, within, atEnd, hall, hcounter⟩ := stepWith_counter tracing h
  rw [hsettings, ← List.cons_append, ← List.cons_append] at hall
  rw [hcounter]
  rcases List.eq_nil_or_concat later with rfl | ⟨rest, last, rfl⟩
  · -- The prompt is at the end of the step.
    obtain ⟨-, hlast⟩ := List.append_inj' hall rfl
    rw [← List.singleton_inj.mp hlast, if_pos rfl, Option.getD_some]
  · rw [List.concat_eq_append] at hall hlater ⊢
    rw [← List.cons_append, ← List.append_assoc] at hall
    obtain ⟨hfront, hlast⟩ := List.append_inj' hall rfl
    have hend : atEnd = none :=
      (List.singleton_inj.mp hlast).symm.trans (hlater last (by simp))
    have hrest : ∀ setting ∈ rest, setting = none := fun setting hsetting =>
      hlater setting (List.mem_append_left _ hsetting)
    rw [hend, Option.getD_none, if_neg (by simp)]
    rcases earlier with _ | ⟨first, _ | ⟨second, earlier⟩⟩
    · -- It is at the fetch, before the program counter moves past the instruction.
      obtain ⟨rfl, rfl⟩ := List.cons.inj hfront
      have hnone := lastSetting?_eq_none fun setting hsetting =>
        hrest setting (List.mem_cons_of_mem none hsetting)
      rw [hnone, if_pos rfl, Option.getD_none, Option.getD_some]
    · obtain ⟨-, hfetched⟩ := List.cons.inj hfront
      cases (List.cons.inj hfetched).1
    · -- It is at an access to memory by the instruction.
      obtain ⟨-, htail⟩ := List.cons.inj hfront
      obtain ⟨-, hwithin⟩ := List.cons.inj htail
      obtain rfl : within = earlier ++ some address :: rest := hwithin.symm
      rw [lastSetting?_append, lastSetting?, lastSetting?_eq_none hrest, Option.none_or,
        Option.some_or, Option.getD_some, if_neg (List.cons_ne_nil _ _)]

end Step

/-! ## Sessions -/

section Sessions

variable {tracing : Bool} {budget : Nat} {start s next : Machine × Shell}
  {before after : List (Machine × Shell)}

theorem eq_of_stepStarts_eq_cons (h : stepStarts tracing budget start = s :: after) :
    s = start := by
  by_cases hgoes : GoesOn start
  · cases budget with
    | zero =>
        rw [stepStarts_zero] at h
        cases h
    | succ budget =>
        rcases hstep : Machine.stepWith (monitor tracing) start with ⟨_ | fault, other⟩
        · rw [stepStarts_of_step hgoes hstep] at h
          exact (List.cons.inj h).1.symm
        · rw [stepStarts_of_fault hgoes hstep] at h
          exact (List.cons.inj h).1.symm
  · rw [stepStarts_of_stop hgoes] at h
    cases h

/-- Each state from which a session takes a step is left by the step before. -/
theorem stepWith_of_stepStarts
    (h : stepStarts tracing budget start = before ++ s :: next :: after) :
    Machine.stepWith (monitor tracing) s = (none, next) := by
  induction budget generalizing start before with
  | zero =>
      rw [stepStarts_zero] at h
      simp at h
  | succ budget ih =>
      by_cases hgoes : GoesOn start
      · rcases hstep : Machine.stepWith (monitor tracing) start with ⟨_ | fault, other⟩
        · rw [stepStarts_of_step hgoes hstep] at h
          cases before with
          | nil =>
              obtain ⟨rfl, hrest⟩ := List.cons.inj h
              rw [hstep, eq_of_stepStarts_eq_cons hrest]
          | cons first before => exact ih (List.cons.inj h).2
        · rw [stepStarts_of_fault hgoes hstep] at h
          have hlength := congrArg List.length h
          simp at hlength
          omega
      · rw [stepStarts_of_stop hgoes] at h
        simp at h

end Sessions

/-- Where a debug session goes on once a prompt has set the program counter. The first instruction
is at the address that is set last at the opening prompt. In a step that is followed by another, let
a prompt set the program counter and no later prompt of the step do so. If that prompt is at the end
of the step, the next instruction is at the address that was set. If not, the step still has to be
finished: the next instruction is where a jump leads if the instruction in progress is one that is
taken, and otherwise at the address that was set, or at the one after it if the prompt was at the
fetch of the instruction in progress. -/
theorem counter_set_at_prompt (support : Support) (tracing : Bool) (limit : Int) (image : Image)
    (symbols : Option Symbols) (script : Text) (m : Machine) :
    (∀ s rest address, debugSteps support tracing limit image symbols script m = s :: rest →
      (start support image symbols (.ofText script)).setting? = some address →
      s.1.counter = address) ∧
    ∀ before s next after earlier later address,
      debugSteps support tracing limit image symbols script m = before ++ s :: next :: after →
      stepSettings tracing s = earlier ++ some address :: later →
      (∀ setting ∈ later, setting = none) →
      next.1.counter =
        if later = [] then address
        else (stepTarget? tracing s).getD (if earlier = [] then address + 1 else address) := by
  constructor
  · intro s rest address hsteps hset
    have hopening := talk_counter m ((start support image symbols (.ofText script)).showNext m)
    have hshown : ((start support image symbols (.ofText script)).showNext m).setting? =
        some address := hset
    rw [hshown] at hopening
    rw [eq_of_stepStarts_eq_cons hsteps]
    exact hopening
  · intro before s next after earlier later address hsteps hsettings hlater
    exact counter_of_lastSetting tracing (stepWith_of_stepStarts hsteps) hsettings hlater

/-- The program counter is set at the opening prompt, and again at the watched reading of an
operand. -/
def operandJump : Text := Text.ascii "j 2\nw add 9 r\nc\nr pc 5\nc\n"

/-- The steps of a session that loads a register from the watched address. -/
def operandJumpSteps : List (Machine × Shell) :=
  debugSteps .standard false 0 .empty none operandJump
    ((Machine.initial.store 2 1033).store 5 3335)

/-- Both settings are respected: the first instruction is at address 2 and the second at address
5. -/
theorem operandJump_respected :
    ∃ s next last, operandJumpSteps = [s, next, last] ∧
      stepSettings false s = [none, none, some 5, none] ∧ s.1.counter = 2 ∧
      next.1.counter = 5 := by
  have hlength : operandJumpSteps.length = 3 := by decide +kernel
  have hopening : (start .standard .empty none (.ofText operandJump)).setting? = some 2 := by
    decide +kernel
  have hsettings : operandJumpSteps.head?.map (stepSettings false) =
      some [none, none, some 5, none] := by decide +kernel
  have htarget : operandJumpSteps.head?.map (stepTarget? false) = some none := by decide +kernel
  obtain ⟨s, next, last, hsteps⟩ := List.length_eq_three.mp hlength
  rw [hsteps, List.head?_cons, Option.map_some, Option.some_inj] at hsettings htarget
  obtain ⟨hfirst, hnext⟩ := counter_set_at_prompt .standard false 0 .empty none operandJump
    ((Machine.initial.store 2 1033).store 5 3335)
  have hcounter := hnext [] s next [last] [none, none] [none] 5 hsteps hsettings (by simp)
  rw [htarget] at hcounter
  exact ⟨s, next, last, hsteps, hsettings, hfirst s _ 2 hsteps hopening, hcounter⟩

/-- The program counter is set at the watched fetch of the first instruction. -/
def fetchJump : Text := Text.ascii "w add 0 r\nn\nj 5\nc\n"

/-- The steps of a session with instructions at addresses 0 and 5. -/
def fetchJumpSteps : List (Machine × Shell) :=
  debugSteps .standard false 0 (Image.ofPairs [(0, 3073), (5, 3335)]) none fetchJump
    ((Machine.initial.store 0 3073).store 5 3335)

/-- The only setting of the step is to address 5, but the next instruction is at address 6. -/
theorem fetchJump_off_by_one :
    ∃ s next, fetchJumpSteps = [s, next] ∧ stepSettings false s = [some 5, none, none] ∧
      next.1.counter = 6 := by
  have hlength : fetchJumpSteps.length = 2 := by decide +kernel
  have hsettings : fetchJumpSteps.head?.map (stepSettings false) = some [some 5, none, none] := by
    decide +kernel
  have hcounters : (fetchJumpSteps.map fun s => s.1.counter) = [0, 6] := by decide +kernel
  obtain ⟨s, next, hsteps⟩ := List.length_eq_two.mp hlength
  rw [hsteps, List.head?_cons, Option.map_some, Option.some_inj] at hsettings
  rw [hsteps] at hcounters
  exact ⟨s, next, hsteps, hsettings, (List.cons.inj (List.cons.inj hcounters).2).1⟩

end Shell

end WordMachine
