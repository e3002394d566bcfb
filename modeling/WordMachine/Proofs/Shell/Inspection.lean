import WordMachine.Proofs.Machine.Observation
import WordMachine.Shell.Session

/-!
# Sessions that only inspect

Most commands of a shell look at the machine or change the points of its debugger. A command edits
the machine only if it is a reset, or if it sets a register, a word or the program counter and all
its arguments are accepted. A session whose script has no editing command leaves the execution of
the program as it is, wherever its prompts open: the machine takes the steps that it would take in
an unobserved run, and stops before the end of that run only if the shell quits.

## Implementation notes

A blank line repeats the last command, so what a shell may be asked to do depends on the lines that
it has read as well as on those to come. The invariant `Follows` therefore relates the shell to the
whole script.
-/

namespace WordMachine

/-- Whether a label is found does not depend on the order of the search. -/
theorem Argument.isOk_address_of_perm {order order' : List (Word × Text)} (h : order.Perm order')
    (token : Text) : (address order token).isOk = (address order' token).isOk := by
  unfold address
  split
  · rfl
  · have hsome : (Symbols.addressAmong? order token).isSome =
        (Symbols.addressAmong? order' token).isSome := by
      rw [Bool.eq_iff_iff, Symbols.addressAmong?, Symbols.addressAmong?, Option.isSome_map,
        Option.isSome_map, List.find?_isSome, List.find?_isSome]
      simp only [h.mem_iff]
    cases hfound : Symbols.addressAmong? order token with
    | none =>
        rw [hfound, eq_comm, Option.isSome_none, Option.isSome_eq_false_iff,
          Option.isNone_iff_eq_none] at hsome
        rw [hsome]
    | some a =>
        rw [hfound, eq_comm, Option.isSome_some, Option.isSome_iff_exists] at hsome
        obtain ⟨b, hb⟩ := hsome
        rw [hb]
        rfl

namespace Shell

theorem isOk_of_address {sh : Shell} {token : Text} {a : Word} (h : sh.address token = .ok a) :
    (Argument.address (Symbols.labelList sh.debugger.symbols) token).isOk = true := by
  rw [← Argument.isOk_address_of_perm (sh.support.order_perm sh.asked _)]
  exact congrArg Except.isOk h

/-! ## Commands -/

/-- Whether a command changes the machine. -/
def Command.edits (symbols : Option Symbols) : Command → Bool
  | .register [name, token] => (target? (Text.upper name)).isSome && (Argument.value token).isOk
  | .jump [token] => (Argument.address (Symbols.labelList symbols) token).isOk
  | .set [token, word] =>
    (Argument.address (Symbols.labelList symbols) token).isOk && (Argument.value word).isOk
  | .reset => true
  | _ => false

theorem register_machine {symbols : Option Symbols} {arguments : List Text}
    (h : (Command.register arguments).edits symbols = false) (s : Machine × Shell) :
    (register s arguments).1 = s.1 := by
  fun_cases register s arguments with
  | case1 => rfl
  | case2 => rfl
  | case3 => rfl
  | case4 name token word hvalue target htarget =>
      simp [Command.edits, hvalue, htarget, Except.isOk, Except.toBool] at h
  | case5 => rfl

theorem jump_machine {arguments : List Text} {s : Machine × Shell}
    (h : (Command.jump arguments).edits s.2.debugger.symbols = false) :
    (jump s arguments).1 = s.1 := by
  fun_cases jump s arguments with
  | case1 => rfl
  | case2 token address haddress =>
      simp [Command.edits, isOk_of_address haddress] at h
  | case3 => rfl

theorem setWord_machine {arguments : List Text} {s : Machine × Shell}
    (h : (Command.set arguments).edits s.2.debugger.symbols = false) :
    (setWord s arguments).1 = s.1 := by
  fun_cases setWord s arguments with
  | case1 => rfl
  | case2 => rfl
  | case3 token word address haddress value hvalue m =>
      have hok : (Argument.value word).isOk = true := by rw [hvalue]; rfl
      simp [Command.edits, isOk_of_address haddress, hok] at h
  | case4 => rfl

/-- A command that does not edit leaves the machine as it is. -/
theorem perform_machine {command : Command} {sh : Shell}
    (h : command.edits sh.debugger.symbols = false) (m : Machine) :
    (perform (m, sh) command).1 = m := by
  cases command with
  | register arguments => exact register_machine h (m, sh)
  | jump arguments => exact jump_machine h
  | set arguments => exact setWord_machine h
  | reset => simp [Command.edits] at h
  | _ => rfl

/-- The second shell has the symbols, the input and the last words of the first, and has quit if the
first has. -/
structure Keeps (sh sh' : Shell) : Prop where
  symbols : sh'.debugger.symbols = sh.debugger.symbols
  input : sh'.input = sh.input
  lastWords : sh'.lastWords = sh.lastWords
  quit : sh'.quit = sh.quit

theorem keeps_breakpoint (sh : Shell) (action : PointAction) :
    sh.Keeps (sh.breakpoint action) := by
  cases action with
  | add arguments =>
      change sh.Keeps (sh.addBreakpoint arguments)
      fun_cases addBreakpoint sh arguments <;> exact ⟨rfl, rfl, rfl, rfl⟩
  | remove arguments =>
      change sh.Keeps (sh.removeBreakpoint arguments)
      fun_cases removeBreakpoint sh arguments <;> exact ⟨rfl, rfl, rfl, rfl⟩
  | _ => exact ⟨rfl, rfl, rfl, rfl⟩

theorem keeps_watchpoint (sh : Shell) (action : PointAction) :
    sh.Keeps (sh.watchpoint action) := by
  cases action with
  | add arguments =>
      change sh.Keeps (sh.addWatchpoint arguments)
      fun_cases addWatchpoint sh arguments <;> exact ⟨rfl, rfl, rfl, rfl⟩
  | remove arguments =>
      change sh.Keeps (sh.removeWatchpoint arguments)
      fun_cases removeWatchpoint sh arguments <;> exact ⟨rfl, rfl, rfl, rfl⟩
  | _ => exact ⟨rfl, rfl, rfl, rfl⟩

theorem keeps_showSource (sh : Shell) (m : Machine) (arguments : List Text) :
    sh.Keeps (sh.showSource m arguments) := by
  unfold showSource
  split
  · exact ⟨rfl, rfl, rfl, rfl⟩
  · -- Without symbols the shell says so first.
    cases sh.debugger.symbols.isNone with
    | false => dsimp only; split <;> exact ⟨rfl, rfl, rfl, rfl⟩
    | true => dsimp only; split <;> exact ⟨rfl, rfl, rfl, rfl⟩

theorem keeps_showMemory (sh : Shell) (m : Machine) (arguments : List Text) :
    sh.Keeps (sh.showMemory m arguments) := by
  fun_cases showMemory sh m arguments <;> exact ⟨rfl, rfl, rfl, rfl⟩

theorem keeps_showLabels (sh : Shell) : sh.Keeps sh.showLabels := by
  fun_cases showLabels sh <;> exact ⟨rfl, rfl, rfl, rfl⟩

/-- No command touches the input, and only one of them quits. -/
theorem keeps_perform {command : Command} (h : command ≠ .quit) (m : Machine) (sh : Shell) :
    sh.Keeps (perform (m, sh) command).2 := by
  cases command with
  | breakpoint action => exact keeps_breakpoint sh action
  | watchpoint action => exact keeps_watchpoint sh action
  | register arguments =>
      change sh.Keeps (register (m, sh) arguments).2
      fun_cases register (m, sh) arguments <;> exact ⟨rfl, rfl, rfl, rfl⟩
  | source arguments => exact keeps_showSource sh m arguments
  | labels => exact keeps_showLabels sh
  | jump arguments =>
      change sh.Keeps (jump (m, sh) arguments).2
      fun_cases jump (m, sh) arguments <;> exact ⟨rfl, rfl, rfl, rfl⟩
  | memory arguments => exact keeps_showMemory sh m arguments
  | set arguments =>
      change sh.Keeps (setWord (m, sh) arguments).2
      fun_cases setWord (m, sh) arguments <;> exact ⟨rfl, rfl, rfl, rfl⟩
  | reset =>
      change sh.Keeps (reset (m, sh)).2
      fun_cases reset (m, sh) <;> exact ⟨rfl, rfl, rfl, rfl⟩
  | quit => exact absurd rfl h
  | _ => exact ⟨rfl, rfl, rfl, rfl⟩

/-! ## Scripts -/

/-- Whether the words of a line leave the machine as it is. A blank line has no words. -/
def isInspection (symbols : Option Symbols) : List Text → Bool
  | [] => true
  | name :: arguments => !(Command.parse name arguments).edits symbols

/-- Whether what a reading finds leaves the machine as it is. -/
def Reading.isInspection (symbols : Option Symbols) : Reading → Bool
  | line text => Shell.isInspection symbols (Text.fields text)
  | overlong => true

/-- Whether the words of a line ask the shell to quit. -/
def asksToQuit : List Text → Bool
  | [] => false
  | name :: arguments => Command.parse name arguments == .quit

/-- Why a shell that reads a script may have quit: a line asks it to, a line cannot be read, or
there is nothing left to read. -/
inductive Ends (script pending : List Reading) : Prop
  | asked {line : Text} (h : .line line ∈ script) (hquit : asksToQuit (Text.fields line) = true)
  | unreadable (h : .overlong ∈ script)
  | exhausted (h : pending = [])

theorem Ends.tail {script rest : List Reading} {reading : Reading}
    (h : Ends script (reading :: rest)) : Ends script rest := by
  cases h with
  | asked hline hquit => exact .asked hline hquit
  | unreadable h => exact .unreadable h
  | exhausted h => cases h

/-- A shell that has read a script up to the readings that are pending, and has changed nothing but
its points, its output and its log. -/
structure Follows (script : List Reading) (symbols : Option Symbols) (pending : List Reading)
    (sh : Shell) : Prop where
  symbols : sh.debugger.symbols = symbols
  ahead : ∀ reading ∈ pending, reading ∈ script
  lastWords : sh.lastWords ≠ [] → ∃ line, .line line ∈ script ∧ Text.fields line = sh.lastWords
  quit : sh.quit = true → Ends script pending

namespace Follows

variable {script pending rest : List Reading} {symbols : Option Symbols} {sh sh' : Shell}
  {reading : Reading} {text name : Text} {arguments : List Text}

theorem of_keeps (h : Follows script symbols pending sh) (hkeeps : sh.Keeps sh') :
    Follows script symbols pending sh' :=
  { symbols := hkeeps.symbols.trans h.symbols
    ahead := h.ahead
    lastWords := by rw [hkeeps.lastWords]; exact h.lastWords
    quit := by rw [hkeeps.quit]; exact h.quit }

theorem tail (h : Follows script symbols (reading :: rest) sh) :
    Follows script symbols rest sh :=
  { symbols := h.symbols
    ahead := fun r hr => h.ahead r (List.mem_cons_of_mem reading hr)
    lastWords := h.lastWords
    quit := fun hquit => (h.quit hquit).tail }

/-- The words that a line stands for are the words of a line of the script, also if the line is
blank. -/
theorem exists_of_wordsOf (h : Follows script symbols (.line text :: rest) sh)
    (hwords : sh.wordsOf text = name :: arguments) :
    ∃ line, .line line ∈ script ∧ Text.fields line = name :: arguments := by
  unfold wordsOf at hwords
  split at hwords
  · rw [← hwords]
    exact h.lastWords (by simp [hwords])
  · exact ⟨text, h.ahead _ List.mem_cons_self, hwords⟩

end Follows

/-! ## Conversations -/

/-- At a line that stands for words, the shell carries out their command. -/
theorem converse_line {closing : Closing} {rest : List Reading} {text name : Text}
    {arguments : List Text} {m m' : Machine} {sh sh' : Shell}
    (hwords : sh.wordsOf text = name :: arguments)
    (hperform : perform (m, { sh.ask with lastWords := name :: arguments })
      (Command.parse name arguments) = (m', sh')) :
    converse closing (.line text :: rest) (m, sh) =
      if (Command.parse name arguments).leavesPrompt then
        (m', { sh' with input := ⟨rest, closing⟩ })
      else converse closing rest (m', sh') := by
  have hask : sh.ask.wordsOf text = name :: arguments := hwords
  simp only [converse, hask, hperform]

section Script

variable {script : List Reading} {symbols : Option Symbols}
  (hscript : ∀ reading ∈ script, reading.isInspection symbols = true)

include hscript

/-- Carrying out a command of a script without editing commands. -/
theorem perform_follows {pending : List Reading} {sh : Shell} {line name : Text}
    {arguments : List Text} (h : Follows script symbols pending sh) (hline : .line line ∈ script)
    (hwords : Text.fields line = name :: arguments) (m : Machine) :
    ∃ sh', perform (m, { sh with lastWords := name :: arguments })
        (Command.parse name arguments) = (m, sh') ∧ Follows script symbols pending sh' := by
  have hnamed : Follows script symbols pending { sh with lastWords := name :: arguments } :=
    { h with lastWords := fun _ => ⟨line, hline, hwords⟩ }
  have hedits : (Command.parse name arguments).edits symbols = false := by
    simpa [Reading.isInspection, hwords, isInspection] using hscript _ hline
  rw [← hnamed.symbols] at hedits
  refine ⟨_, Prod.ext (perform_machine hedits m) rfl, ?_⟩
  by_cases hquit : Command.parse name arguments = .quit
  · rw [hquit]
    exact { hnamed with quit := fun _ => .asked hline (by simp [hwords, asksToQuit, hquit]) }
  · exact hnamed.of_keeps (keeps_perform hquit m _)

/-- A conversation over a script without editing commands leaves the machine as it is. -/
theorem converse_follows (closing : Closing) {pending : List Reading} (m : Machine) {sh : Shell}
    (h : Follows script symbols pending sh) :
    ∃ sh', converse closing pending (m, sh) = (m, sh') ∧
      Follows script symbols sh'.input.pending sh' := by
  induction pending generalizing sh with
  | nil =>
      cases closing with
      | ended => exact ⟨_, rfl, { h with quit := fun _ => .exhausted rfl }⟩
      | overlong => exact ⟨_, rfl, { h with quit := fun _ => .exhausted rfl }⟩
  | cons reading rest ih =>
      have htail := h.tail
      cases reading with
      | overlong =>
          have hunreadable : Reading.overlong ∈ script := h.ahead _ List.mem_cons_self
          exact ⟨_, rfl, { htail with quit := fun _ => .unreadable hunreadable }⟩
      | line text =>
          have hask : Follows script symbols rest sh.ask := htail.of_keeps ⟨rfl, rfl, rfl, rfl⟩
          cases hwords : sh.wordsOf text with
          | nil =>
              have hnone : sh.ask.wordsOf text = [] := hwords
              simp only [converse, hnone]
              exact ih hask
          | cons name arguments =>
              obtain ⟨line, hline, hfields⟩ := h.exists_of_wordsOf hwords
              obtain ⟨sh', hperform, hdone⟩ := perform_follows hscript hask hline hfields m
              rw [converse_line hwords hperform]
              split
              · exact ⟨_, rfl, { hdone with }⟩
              · exact ih hdone

/-- The same holds of a prompt that opens after something has been shown. -/
theorem talk_follows (m : Machine) {sh sh' : Shell}
    (h : Follows script symbols sh.input.pending sh) (hkeeps : sh.Keeps sh') :
    ∃ after, talk (m, sh') = (m, after) ∧ Follows script symbols after.input.pending after := by
  have hshown := h.of_keeps hkeeps
  rw [← hkeeps.input] at hshown
  exact converse_follows hscript sh'.input.closing m hshown

theorem atAccess_follows (address : Word) (m : Machine) {sh : Shell}
    (h : Follows script symbols sh.input.pending sh) :
    ∃ after, atAccess address (m, sh) = (m, after) ∧
      Follows script symbols after.input.pending after :=
  talk_follows hscript m h ⟨rfl, rfl, rfl, rfl⟩

theorem atBreak_follows (m : Machine) {sh : Shell}
    (h : Follows script symbols sh.input.pending sh) :
    ∃ after, atBreak (m, sh) = (m, after) ∧
      Follows script symbols after.input.pending after := by
  unfold atBreak
  cases sh.debugger.breaking with
  | true => exact talk_follows hscript m h ⟨rfl, rfl, rfl, rfl⟩
  | false => exact talk_follows hscript m h ⟨rfl, rfl, rfl, rfl⟩

/-- A shell that reads a script without editing commands never touches the machine, in whichever
part of an instruction its prompts open. -/
theorem monitor_isPassiveOn (tracing : Bool) :
    (monitor tracing).IsPassiveOn fun sh => Follows script symbols sh.input.pending sh := by
  apply Monitor.isPassiveOn_of_exists
  · intro address m sh h
    simp only [monitor, Debugger.monitor]
    split
    · exact atAccess_follows hscript address m h
    · exact ⟨sh, rfl, h⟩
  · intro address m sh h
    simp only [monitor, Debugger.monitor]
    split
    · exact atAccess_follows hscript address m h
    · exact ⟨sh, rfl, h⟩
  · intro address word sh h
    simp only [monitor, Debugger.monitor]
    split
    · exact h.of_keeps ⟨rfl, rfl, rfl, rfl⟩
    · exact h
  · intro m sh h
    simp only [monitor, Debugger.monitor]
    split
    · exact atBreak_follows hscript m h
    · exact ⟨sh, rfl, h⟩

end Script

/-! ## Sessions -/

variable {script : List Reading} {symbols : Option Symbols}

/-- How a session that only inspects comes to its end: after some of the steps that the machine
takes by itself and, if the shell has not quit, just as a run of the machine does. -/
structure Accompanies (script : List Reading) (symbols : Option Symbols) (limit : Int)
    (budget : Nat) (m : Machine) (result : Option Fault × (Machine × Shell)) : Prop where
  follows : Follows script symbols result.2.2.input.pending result.2.2
  steps : ∃ k ≤ budget, result.2.1 = m.afterSteps k ∧ ∀ j < k, (m.afterSteps j).halted = false
  run : result.2.2.quit = false →
    (result.1, result.2.1) =
      ((Machine.runSteps (Monitor.silent Unit) budget (m, ())).1.fault limit,
        (Machine.runSteps (Monitor.silent Unit) budget (m, ())).2.1)

/-- A session stops where the shell has quit or the machine has halted. -/
theorem accompanies_of_stop (limit : Int) (budget : Nat) {m : Machine} {sh : Shell}
    (h : Follows script symbols sh.input.pending sh) (hstop : (sh.quit || m.halted) = true) :
    Accompanies script symbols limit budget m (none, (m, sh)) := by
  refine ⟨h, ⟨0, Nat.zero_le budget, rfl, fun j hj => absurd hj (Nat.not_lt_zero j)⟩, ?_⟩
  intro hquit
  have hm : m.halted = true := by simpa [show sh.quit = false from hquit] using hstop
  rw [Machine.runSteps_of_halted hm]
  rfl

/-- It stops at the limit. -/
theorem accompanies_of_limit (limit : Int) {m : Machine} {sh : Shell}
    (h : Follows script symbols sh.input.pending sh) (hm : m.halted = false) :
    Accompanies script symbols limit 0 m (some (.stepLimit limit), (m, sh)) := by
  refine ⟨h, ⟨0, Nat.le_refl 0, rfl, fun j hj => absurd hj (Nat.not_lt_zero j)⟩, ?_⟩
  intro _
  rw [Machine.runSteps_zero hm]
  rfl

/-- It stops at a step that fails. -/
theorem accompanies_of_fault (limit : Int) (budget : Nat) {m : Machine} {sh : Shell} {fault : Fault}
    (h : Follows script symbols sh.input.pending sh) (hm : m.halted = false)
    (hfault : m.step.1 = some fault) :
    Accompanies script symbols limit (budget + 1) m (some fault, (m.step.2, sh)) := by
  refine ⟨h, ⟨1, by omega, rfl, ?_⟩, ?_⟩
  · intro j hj
    obtain rfl : j = 0 := by omega
    exact hm
  · intro _
    rw [Machine.runSteps_of_fault hm hfault]
    rfl

/-- After a step that does not fail it goes on. -/
theorem Accompanies.step {limit : Int} {budget : Nat} {m : Machine}
    {result : Option Fault × (Machine × Shell)} (hm : m.halted = false) (hfault : m.step.1 = none)
    (h : Accompanies script symbols limit budget m.step.2 result) :
    Accompanies script symbols limit (budget + 1) m result := by
  obtain ⟨hfollows, ⟨k, hk, hlast, hbefore⟩, hrun⟩ := h
  refine ⟨hfollows, ⟨k + 1, by omega, hlast, ?_⟩, ?_⟩
  · intro j hj
    cases j with
    | zero => exact hm
    | succ j => exact hbefore j (by omega)
  · rw [Machine.runSteps_of_step hm hfault]
    exact hrun

/-- The loop of a session and the loop of a run take the same steps. -/
theorem proceed_accompanies
    (hscript : ∀ reading ∈ script, reading.isInspection symbols = true)
    (tracing : Bool) (limit : Int) (budget : Nat) (m : Machine) {sh : Shell}
    (h : Follows script symbols sh.input.pending sh) :
    Accompanies script symbols limit budget m (proceed tracing limit budget (m, sh)) := by
  induction budget generalizing m sh with
  | zero =>
      rw [proceed.eq_def]
      cases hstop : sh.quit || m.halted with
      | true =>
          simp only [hstop, if_true]
          exact accompanies_of_stop limit 0 h hstop
      | false =>
          simp only [hstop, Bool.false_eq_true, if_false]
          exact accompanies_of_limit limit h (Bool.or_eq_false_iff.mp hstop).2
  | succ budget ih =>
      rw [proceed.eq_def]
      cases hstop : sh.quit || m.halted with
      | true =>
          simp only [hstop, if_true]
          exact accompanies_of_stop limit (budget + 1) h hstop
      | false =>
          have hm : m.halted = false := (Bool.or_eq_false_iff.mp hstop).2
          have hpassive := monitor_isPassiveOn hscript tracing
          have hstep := hpassive.stepWith_eq m h
          have hheard := hpassive.foldl_kept h m.stepSignals
          simp only [hstop, Bool.false_eq_true, if_false, hstep]
          cases hfault : m.step.1 with
          | some fault =>
              exact accompanies_of_fault limit budget (hheard.of_keeps ⟨rfl, rfl, rfl, rfl⟩) hm
                hfault
          | none => exact (ih m.step.2 hheard).step hm hfault

theorem closing_machine (s : Machine × Shell) : (closing s).1 = s.1 := by
  unfold closing
  split <;> rfl

theorem keeps_closing (s : Machine × Shell) : s.2.Keeps (closing s).2 := by
  unfold closing
  split <;> exact ⟨rfl, rfl, rfl, rfl⟩

theorem session_accompanies
    (hscript : ∀ reading ∈ script, reading.isInspection symbols = true)
    (tracing : Bool) (limit : Int) (m : Machine) {sh : Shell}
    (h : Follows script symbols sh.input.pending sh) :
    Accompanies script symbols limit (Machine.budget limit) m (session tracing limit (m, sh)) := by
  obtain ⟨opened, hopening, hopened⟩ :=
    talk_follows hscript m h (show sh.Keeps (sh.showNext m) from ⟨rfl, rfl, rfl, rfl⟩)
  have hloop := proceed_accompanies hscript tracing limit (Machine.budget limit) m hopened
  have hfirst : opening (m, sh) = (m, opened) := hopening
  unfold session
  rw [hfirst]
  rcases hproceed : proceed tracing limit (Machine.budget limit) (m, opened) with ⟨fault, s⟩
  rw [hproceed] at hloop
  cases fault with
  | some fault => exact hloop
  | none =>
      have hkeeps := keeps_closing s
      obtain ⟨hfollows, hsteps, hrun⟩ := hloop
      refine ⟨?_, ?_, ?_⟩
      · change Follows script symbols (closing s).2.input.pending (closing s).2
        rw [hkeeps.input]
        exact hfollows.of_keeps hkeeps
      · change ∃ k ≤ Machine.budget limit, (closing s).1 = m.afterSteps k ∧ _
        rw [closing_machine]
        exact hsteps
      · change (closing s).2.quit = false → (none, (closing s).1) = _
        rw [hkeeps.quit, closing_machine]
        exact hrun

/-- The debug session of a machine that has an image loaded, over a script. -/
def debug (support : Support) (tracing : Bool) (limit : Int) (image : Image)
    (symbols : Option Symbols) (script : Text) (m : Machine) : Option Fault × (Machine × Shell) :=
  session tracing limit (m, start support image symbols (.ofText script))

/-- Inspecting a program does not change it. Let no line of a script edit the machine. Then a debug
session over the script leaves the machine as a number of its own steps within the limit do, none
of which it takes when halted. If the shell has not quit, the session ends in the machine and with
the fault, if any, of an unobserved run. It has quit only if a line of the script asks for it, a
line cannot be read, or all lines have been read. -/
theorem inspecting_session_follows_run (support : Support) (tracing : Bool) (limit : Int)
    (hlimit : 0 < limit) (image : Image) (symbols : Option Symbols) (script : Text)
    (hscript : ∀ reading ∈ (Input.ofText script).pending, reading.isInspection symbols = true)
    (m : Machine) :
    (∃ k : Nat, k ≤ limit ∧
      (debug support tracing limit image symbols script m).2.1 = m.afterSteps k ∧
      ∀ j < k, (m.afterSteps j).halted = false) ∧
    ((debug support tracing limit image symbols script m).2.2.quit = false →
      ((debug support tracing limit image symbols script m).1,
        (debug support tracing limit image symbols script m).2.1) = m.run limit) ∧
    ((debug support tracing limit image symbols script m).2.2.quit = true →
      Ends (Input.ofText script).pending
        (debug support tracing limit image symbols script m).2.2.input.pending) := by
  have hstart : Follows (Input.ofText script).pending symbols
      (start support image symbols (.ofText script)).input.pending
      (start support image symbols (.ofText script)) :=
    { symbols := rfl
      ahead := fun _ h => h
      lastWords := fun h => absurd rfl h
      quit := nofun }
  obtain ⟨hfollows, ⟨k, hk, hlast, hbefore⟩, hrun⟩ :=
    session_accompanies hscript tracing limit m hstart
  refine ⟨⟨k, ?_, hlast, hbefore⟩, ?_, hfollows.quit⟩
  · simp only [Machine.budget, hlimit, if_true] at hk
    omega
  · rw [Machine.run_eq_runSteps]
    exact hrun

/-- Points are set, three editing commands are refused, and blank lines step on from a prompt that
opens in the middle of an instruction. -/
def refusedEdits : Text :=
  Text.ascii "w add 9 rw\nb add 1\nr R1 70000\nset nowhere 5\njump\nm 0 2\nn\n\n\nfrob\nc\n"

/-- A session of a machine that stores register zero at the watched address and then halts. -/
def refusedEditsSession : Option Fault × (Machine × Shell) :=
  debug .standard false 5 .empty none refusedEdits (Machine.initial.store 0 2057)

/-- The session reads its whole script, and ends as a run does. -/
theorem refusedEdits_session :
    (∃ k : Nat, k ≤ (5 : Int) ∧
      refusedEditsSession.2.1 = (Machine.initial.store 0 2057).afterSteps k ∧
      ∀ j < k, ((Machine.initial.store 0 2057).afterSteps j).halted = false) ∧
    refusedEditsSession.2.2.quit = false ∧
    (refusedEditsSession.1, refusedEditsSession.2.1) = (Machine.initial.store 0 2057).run 5 := by
  have hall : (Input.ofText refusedEdits).pending.all (Reading.isInspection none) = true := by
    decide +kernel
  have hquit : refusedEditsSession.2.2.quit = false := by decide +kernel
  obtain ⟨hsteps, hrun, -⟩ := inspecting_session_follows_run .standard false 5 (by decide) .empty
    none refusedEdits (List.all_eq_true.mp hall) (Machine.initial.store 0 2057)
  exact ⟨hsteps, hquit, hrun hquit⟩

end Shell

end WordMachine
