import WordMachine.Proofs.Machine.Hearing
import WordMachine.Proofs.Shell.Inspection

/-!
# Quitting

Once a shell has been asked to quit, its session takes no further step. A prompt can open in the
middle of an instruction though, and the instruction is then carried out to its end. If the debugger
stops in it once more, at an access that it watches or at the end, a further prompt opens and reads
a further line. A quit is final exactly if no such stop comes after it.

## Implementation notes

Each prompt takes one reading of the script, as long as there is one. So the readings that a shell
has taken are as many as its prompts, and whether it was asked to quit at one of them can be told
from the script alone.

A session without a limit is given `Machine.patience` steps, and if it is not over by then it ends
with the fault of a limit that has been reached. A machine would go on. What is said about such
sessions is said about these steps of theirs.
-/

namespace WordMachine

/-- Whether a debugger stops at a signal. -/
def Debugger.stopsAt (d : Debugger) : Machine × Signal → Bool
  | (_, .reading address) => d.points.watchesReading address
  | (_, .written address) => d.points.watchesWriting address
  | (_, .fetched _ _) => false
  | (m, .stepped) => d.stopsAfter m

namespace Shell

/-! ## What a script asks for -/

/-- The words that stand once a reading has been taken: its own, or the last ones if it has none. -/
def Reading.words (last : List Text) : Reading → List Text
  | line text =>
    match Text.fields text with
    | [] => last
    | words => words
  | overlong => last

/-- The words that stand once some readings have been taken. -/
def wordsAfter (readings : List Reading) : List Text := readings.foldl Reading.words []

/-- Whether the shell is asked to quit at reading `i` of a script. -/
def quitsAt (script : List Reading) (i : Nat) : Bool :=
  match script[i]? with
  | some (.line _) => asksToQuit (wordsAfter (script.take (i + 1)))
  | _ => false

/-- The number of prompts that a shell has opened. -/
def prompts (sh : Shell) : Nat := sh.printed.toList.count .prompt

/-- A shell has been asked to quit at one of its prompts. -/
def HasQuit (script : List Reading) (sh : Shell) : Prop := ∃ i < sh.prompts, quitsAt script i = true

/-- The prompt at which a shell was asked to quit is its last one, and all that comes after in the
script is left unread. -/
def QuitIsFinal (script : List Reading) (sh : Shell) : Prop :=
  ∀ i < sh.prompts, quitsAt script i = true →
    sh.prompts = i + 1 ∧ sh.input.pending = script.drop (i + 1)

/-! ## Counting prompts -/

section Prompts

variable (sh : Shell)

@[simp] theorem prompts_print (t : Text) : (sh.print t).prompts = sh.prompts := by
  simp [prompts, print]

@[simp] theorem prompts_printLine (t : Text) : (sh.printLine t).prompts = sh.prompts :=
  sh.prompts_print _

@[simp] theorem prompts_say (t : String) : (sh.say t).prompts = sh.prompts := sh.prompts_print _

@[simp] theorem prompts_showRegisters (m : Machine) : (sh.showRegisters m).prompts = sh.prompts :=
  sh.prompts_print _

@[simp] theorem prompts_note (notice : Notice) : (sh.note notice).prompts = sh.prompts := rfl

@[simp] theorem prompts_setPoints (points : Points) : (sh.setPoints points).prompts = sh.prompts :=
  rfl

@[simp] theorem prompts_ask : sh.ask.prompts = sh.prompts + 1 := by
  simp [prompts, ask]

@[simp] theorem prompts_hangUp : sh.hangUp.prompts = sh.prompts := sh.prompts_printLine []

@[simp] theorem prompts_giveUp : sh.giveUp.prompts = sh.prompts := sh.prompts_printLine []

theorem prompts_breakpoint (action : PointAction) :
    (sh.breakpoint action).prompts = sh.prompts := by
  cases action with
  | add arguments =>
      change (sh.addBreakpoint arguments).prompts = _
      fun_cases addBreakpoint sh arguments <;> simp
  | remove arguments =>
      change (sh.removeBreakpoint arguments).prompts = _
      fun_cases removeBreakpoint sh arguments <;> simp
  | _ => simp [breakpoint]

theorem prompts_watchpoint (action : PointAction) :
    (sh.watchpoint action).prompts = sh.prompts := by
  cases action with
  | add arguments =>
      change (sh.addWatchpoint arguments).prompts = _
      fun_cases addWatchpoint sh arguments <;> simp
  | remove arguments =>
      change (sh.removeWatchpoint arguments).prompts = _
      fun_cases removeWatchpoint sh arguments <;> simp
  | _ => simp [watchpoint]

theorem prompts_showSource (m : Machine) (arguments : List Text) :
    (sh.showSource m arguments).prompts = sh.prompts := by
  unfold showSource
  split
  · exact sh.prompts_say _
  · cases sh.debugger.symbols.isNone with
    | false => dsimp only; split <;> simp
    | true => dsimp only; split <;> simp

/-- No command opens a prompt. -/
theorem prompts_perform (command : Command) (m : Machine) :
    (perform (m, sh) command).2.prompts = sh.prompts := by
  cases command with
  | breakpoint action => exact sh.prompts_breakpoint action
  | watchpoint action => exact sh.prompts_watchpoint action
  | register arguments =>
      change (register (m, sh) arguments).2.prompts = _
      fun_cases register (m, sh) arguments <;> simp
  | source arguments => exact sh.prompts_showSource m arguments
  | labels =>
      change sh.showLabels.prompts = _
      fun_cases showLabels sh <;> simp
  | jump arguments =>
      change (jump (m, sh) arguments).2.prompts = _
      fun_cases jump (m, sh) arguments <;> simp
  | memory arguments =>
      change (sh.showMemory m arguments).prompts = _
      fun_cases showMemory sh m arguments <;> simp
  | set arguments =>
      change (setWord (m, sh) arguments).2.prompts = _
      fun_cases setWord (m, sh) arguments <;> simp
  | reset =>
      change (reset (m, sh)).2.prompts = _
      fun_cases reset (m, sh) <;> simp
  | clear => exact sh.prompts_print _
  | unknown name => exact sh.prompts_printLine _
  | _ => rfl

end Prompts

/-! ## Readings taken -/

/-- A shell that has taken one reading of a script for each of its prompts, has the others ahead of
it, and has quit if it was asked to. -/
structure Reads (script pending : List Reading) (sh : Shell) : Prop where
  pending : pending = script.drop sh.prompts
  lastWords : sh.lastWords = wordsAfter (script.take sh.prompts)
  quit : HasQuit script sh → sh.quit = true

/-- One prompt or more have been opened, and the shell was not asked to quit at any but the last. -/
structure Prompted (script : List Reading) (sh sh' : Shell) : Prop where
  opens : sh.prompts < sh'.prompts
  onlyLast : ∀ i, sh.prompts ≤ i → i + 1 < sh'.prompts → quitsAt script i = false

variable {script pending rest : List Reading} {reading : Reading} {sh sh' : Shell}

theorem Prompted.once (h : sh'.prompts = sh.prompts + 1) : Prompted script sh sh' :=
  ⟨by omega, fun _ _ _ => by omega⟩

theorem Prompted.cons {asked : Shell} (hasked : asked.prompts = sh.prompts + 1)
    (hquits : quitsAt script sh.prompts = false) (h : Prompted script asked sh') :
    Prompted script sh sh' := by
  have hopens := h.opens
  refine ⟨by omega, ?_⟩
  intro i hi hlast
  rcases Nat.lt_or_eq_of_le hi with hlt | rfl
  · exact h.onlyLast i (by omega) hlast
  · exact hquits

theorem quitIsFinal_congr (script : List Reading) (hinput : sh'.input = sh.input)
    (hprompts : sh'.prompts = sh.prompts) : QuitIsFinal script sh' ↔ QuitIsFinal script sh := by
  simp only [QuitIsFinal, hinput, hprompts]

namespace Reads

theorem of_keeps (h : Reads script pending sh) (hkeeps : sh.Keeps sh')
    (hprompts : sh'.prompts = sh.prompts) : Reads script pending sh' :=
  { pending := by rw [hprompts]; exact h.pending
    lastWords := by rw [hprompts, hkeeps.lastWords]; exact h.lastWords
    quit := by
      intro hquit
      rw [HasQuit, hprompts] at hquit
      rw [hkeeps.quit]
      exact h.quit hquit }

theorem getElem? (h : Reads script (reading :: rest) sh) : script[sh.prompts]? = some reading := by
  have hhead : (script.drop sh.prompts)[0]? = some reading := by rw [← h.pending]; rfl
  rwa [List.getElem?_drop, Nat.add_zero] at hhead

/-- The words that stand after the next reading. -/
theorem wordsAfter_succ (h : Reads script (reading :: rest) sh) :
    wordsAfter (script.take (sh.prompts + 1)) = reading.words sh.lastWords := by
  rw [List.take_add_one, h.getElem?, h.lastWords, wordsAfter, List.foldl_append]
  rfl

/-- Whether the shell is asked to quit at the next line. -/
theorem quitsAt_line {text : Text} (h : Reads script (.line text :: rest) sh) :
    quitsAt script sh.prompts = asksToQuit (Reading.words sh.lastWords (.line text)) := by
  rw [← h.wordsAfter_succ, quitsAt, h.getElem?]

/-- A prompt has taken the next reading. -/
theorem advance (h : Reads script (reading :: rest) sh) (hprompts : sh'.prompts = sh.prompts + 1)
    (hwords : sh'.lastWords = reading.words sh.lastWords) (hkept : sh.quit = true → sh'.quit = true)
    (hasked : quitsAt script sh.prompts = true → sh'.quit = true) : Reads script rest sh' := by
  refine ⟨?_, ?_, ?_⟩
  · rw [hprompts, ← List.drop_drop, ← h.pending]
    rfl
  · rw [hprompts, hwords, h.wordsAfter_succ]
  · rintro ⟨i, hi, hquits⟩
    rcases Nat.lt_or_eq_of_le (Nat.le_of_lt_succ (hprompts ▸ hi)) with hlt | rfl
    · exact hkept (h.quit ⟨i, hlt, hquits⟩)
    · exact hasked hquits

/-- A prompt has found no reading. -/
theorem exhausted (h : Reads script [] sh) (hprompts : sh'.prompts = sh.prompts + 1)
    (hwords : sh'.lastWords = sh.lastWords) (hquit : sh'.quit = true) : Reads script [] sh' := by
  have hlength : script.length ≤ sh.prompts := List.drop_eq_nil_iff.mp h.pending.symm
  refine ⟨?_, ?_, fun _ => hquit⟩
  · rw [hprompts, List.drop_of_length_le (by omega)]
  · rw [hprompts, hwords, h.lastWords, List.take_of_length_le hlength,
      List.take_of_length_le (by omega)]

/-- A quit at one of the prompts just opened is final, and one before them is not. -/
theorem quitIsFinal_iff (h : Reads script sh'.input.pending sh')
    (hprompted : Prompted script sh sh') : QuitIsFinal script sh' ↔ ¬ HasQuit script sh := by
  obtain ⟨hopens, honly⟩ := hprompted
  constructor
  · rintro hfinal ⟨i, hi, hquits⟩
    have hlast := (hfinal i (by omega) hquits).1
    omega
  · intro hnone i hi hquits
    have hlate : sh.prompts ≤ i := Nat.le_of_not_lt fun hearly => hnone ⟨i, hearly, hquits⟩
    rcases Nat.lt_or_eq_of_le hi with hmore | hlast
    · exact absurd (hquits.symm.trans (honly i hlate hmore)) (by decide)
    · exact ⟨hlast.symm, by rw [h.pending, ← hlast]⟩

end Reads

/-! ## Conversations -/

/-- A command leaves the last words as they are, and one of them quits. -/
theorem perform_quit (command : Command) (m : Machine) (sh : Shell) :
    (perform (m, sh) command).2.lastWords = sh.lastWords ∧
      (perform (m, sh) command).2.quit = (sh.quit || command == .quit) := by
  by_cases hquit : command = .quit
  · subst hquit
    exact ⟨rfl, (Bool.or_true sh.quit).symm⟩
  · have hkeeps := keeps_perform hquit m sh
    refine ⟨hkeeps.lastWords, ?_⟩
    rw [hkeeps.quit, beq_false_of_ne hquit, Bool.or_false]

/-- A line that stands for no words is passed over. -/
theorem Reads.blank {text : Text} (h : Reads script (.line text :: rest) sh)
    (hwords : sh.wordsOf text = []) :
    Reads script rest sh.ask ∧ quitsAt script sh.prompts = false := by
  have hstand : Reading.words sh.lastWords (.line text) = [] := hwords
  have hlast : sh.lastWords = [] := by
    unfold wordsOf at hwords
    split at hwords
    · exact hwords
    · contradiction
  have hquits : quitsAt script sh.prompts = false := by
    rw [h.quitsAt_line, hstand]
    rfl
  refine ⟨h.advance sh.prompts_ask (hlast.trans hstand.symm) id ?_, hquits⟩
  intro hasked
  exact absurd (hquits.symm.trans hasked) (by decide)

/-- The command of a line has been carried out. It leaves the prompt if it asks to quit. -/
theorem Reads.command {text name : Text} {arguments : List Text} {m m' : Machine}
    (h : Reads script (.line text :: rest) sh) (hwords : sh.wordsOf text = name :: arguments)
    (hperform : perform (m, { sh.ask with lastWords := name :: arguments })
      (Command.parse name arguments) = (m', sh')) :
    sh'.prompts = sh.prompts + 1 ∧ Reads script rest sh' ∧
      ((Command.parse name arguments).leavesPrompt = false →
        quitsAt script sh.prompts = false) := by
  have hstand : Reading.words sh.lastWords (.line text) = name :: arguments := hwords
  have hquits : quitsAt script sh.prompts = (Command.parse name arguments == .quit) := by
    rw [h.quitsAt_line, hstand]
    rfl
  let named : Shell := { sh.ask with lastWords := name :: arguments }
  obtain ⟨hlast, hquit⟩ := perform_quit (Command.parse name arguments) m named
  have hprompts := (named.prompts_perform (Command.parse name arguments) m).trans sh.prompts_ask
  rw [hperform] at hlast hquit hprompts
  refine ⟨hprompts, h.advance hprompts (hlast.trans hstand.symm) ?_ ?_, ?_⟩
  · intro hbefore
    rw [hquit, show named.quit = true from hbefore, Bool.true_or]
  · intro hasked
    rw [hquit, ← hquits, hasked, Bool.or_true]
  · intro hstays
    rw [hquits]
    refine beq_false_of_ne ?_
    intro heq
    rw [heq] at hstays
    cases hstays

/-- A conversation takes one reading for each of its prompts, and ends with the first that asks the
shell to quit. -/
theorem converse_reads (closing : Closing) (m : Machine) (h : Reads script pending sh) :
    ∃ m' sh', converse closing pending (m, sh) = (m', sh') ∧
      Reads script sh'.input.pending sh' ∧ Prompted script sh sh' := by
  induction pending generalizing m sh with
  | nil =>
      let asked : Shell := { sh.ask with input := ⟨[], closing⟩ }
      cases closing with
      | ended =>
          have hprompts := asked.prompts_hangUp.trans sh.prompts_ask
          exact ⟨m, asked.hangUp, rfl, h.exhausted hprompts rfl rfl, .once hprompts⟩
      | overlong =>
          have hprompts := asked.prompts_giveUp.trans sh.prompts_ask
          exact ⟨m, asked.giveUp, rfl, h.exhausted hprompts rfl rfl, .once hprompts⟩
  | cons reading rest ih =>
      cases reading with
      | overlong =>
          let asked : Shell := { sh.ask with input := ⟨rest, closing⟩ }
          have hprompts := asked.prompts_giveUp.trans sh.prompts_ask
          exact ⟨m, asked.giveUp, rfl, h.advance hprompts rfl (fun _ => rfl) (fun _ => rfl),
            .once hprompts⟩
      | line text =>
          cases hwords : sh.wordsOf text with
          | nil =>
              obtain ⟨hasked, hquits⟩ := h.blank hwords
              obtain ⟨m', last, hrest, hreads, hprompted⟩ := ih m hasked
              have hnone : sh.ask.wordsOf text = [] := hwords
              refine ⟨m', last, ?_, hreads, hprompted.cons sh.prompts_ask hquits⟩
              simpa only [converse, hnone] using hrest
          | cons name arguments =>
              rcases hperform : perform (m, { sh.ask with lastWords := name :: arguments })
                (Command.parse name arguments) with ⟨m', after⟩
              obtain ⟨hprompts, hafter, hquits⟩ := h.command hwords hperform
              rw [converse_line hwords hperform]
              split
              · exact ⟨m', _, rfl, { hafter with }, .once hprompts⟩
              · next hstays =>
                  obtain ⟨m'', last, hrest, hreads, hprompted⟩ := ih m' hafter
                  exact ⟨m'', last, hrest, hreads,
                    hprompted.cons hprompts (hquits (Bool.eq_false_iff.mpr hstays))⟩

/-! ## Signals -/

section Signals

variable (tracing : Bool) {signal : Machine × Signal}

/-- A prompt that opens after something has been shown. -/
theorem talk_reads (m : Machine) (h : Reads script sh.input.pending sh) (hkeeps : sh.Keeps sh')
    (hprompts : sh'.prompts = sh.prompts) :
    Reads script (talk (m, sh')).2.input.pending (talk (m, sh')).2 ∧
      Prompted script sh (talk (m, sh')).2 := by
  have hshown := h.of_keeps hkeeps hprompts
  rw [← hkeeps.input] at hshown
  obtain ⟨m', after, hconverse, hreads, hprompted⟩ := converse_reads sh'.input.closing m hshown
  have htalk : talk (m, sh') = (m', after) := hconverse
  rw [htalk]
  exact ⟨hreads, hprompts ▸ hprompted.opens, hprompts ▸ hprompted.onlyLast⟩

/-- At a signal that does not stop the debugger no prompt opens. -/
theorem hear_of_passing (h : sh.debugger.stopsAt signal = false) :
    sh.Keeps ((monitor tracing).hear sh signal) ∧
      ((monitor tracing).hear sh signal).prompts = sh.prompts := by
  obtain ⟨m, signal⟩ := signal
  simp only [Debugger.stopsAt] at h
  cases signal with
  | reading address =>
      simp only [monitor, Debugger.monitor, Monitor.hear, h]
      exact ⟨⟨rfl, rfl, rfl, rfl⟩, rfl⟩
  | written address =>
      simp only [monitor, Debugger.monitor, Monitor.hear, h]
      exact ⟨⟨rfl, rfl, rfl, rfl⟩, rfl⟩
  | fetched address word =>
      simp only [monitor, Debugger.monitor, Monitor.hear]
      split <;> exact ⟨⟨rfl, rfl, rfl, rfl⟩, rfl⟩
  | stepped =>
      simp only [monitor, Debugger.monitor, Monitor.hear, h]
      exact ⟨⟨rfl, rfl, rfl, rfl⟩, rfl⟩

/-- At a signal that stops the debugger a prompt opens, after something has been shown. -/
theorem hear_of_stop (h : sh.debugger.stopsAt signal = true) :
    ∃ shown, sh.Keeps shown ∧ shown.prompts = sh.prompts ∧
      (monitor tracing).hear sh signal = (talk (signal.1, shown)).2 := by
  obtain ⟨m, signal⟩ := signal
  simp only [Debugger.stopsAt] at h
  have haccess (address : Word) : ∃ shown, sh.Keeps shown ∧ shown.prompts = sh.prompts ∧
      (atAccess address (m, sh)).2 = (talk (m, shown)).2 :=
    ⟨(sh.say "Program stopped").print (Display.memory m address 1), ⟨rfl, rfl, rfl, rfl⟩, by simp,
      rfl⟩
  cases signal with
  | reading address =>
      simp only [monitor, Debugger.monitor, Monitor.hear, h, if_true]
      exact haccess address
  | written address =>
      simp only [monitor, Debugger.monitor, Monitor.hear, h, if_true]
      exact haccess address
  | fetched address word => cases h
  | stepped =>
      simp only [monitor, Debugger.monitor, Monitor.hear, h, if_true]
      cases hbreaking : sh.debugger.breaking with
      | true =>
          refine ⟨sh.showNext m, ⟨rfl, rfl, rfl, rfl⟩, sh.prompts_print _, ?_⟩
          simp only [atBreak, hbreaking, if_true]
      | false =>
          refine ⟨(sh.say "Program stopped").showNext m, ⟨rfl, rfl, rfl, rfl⟩,
            by simp [showNext], ?_⟩
          simp only [atBreak, hbreaking, Bool.false_eq_true, if_false]

/-- Whatever a shell hears, it has taken one reading for each of its prompts. -/
theorem hear_reads (h : Reads script sh.input.pending sh) :
    Reads script ((monitor tracing).hear sh signal).input.pending
      ((monitor tracing).hear sh signal) := by
  cases hstop : sh.debugger.stopsAt signal with
  | true =>
      obtain ⟨shown, hkeeps, hprompts, heq⟩ := hear_of_stop tracing hstop
      rw [heq]
      exact (talk_reads signal.1 h hkeeps hprompts).1
  | false =>
      obtain ⟨hkeeps, hprompts⟩ := hear_of_passing tracing hstop
      rw [hkeeps.input]
      exact h.of_keeps hkeeps hprompts

theorem foldl_hear_reads (h : Reads script sh.input.pending sh)
    (signals : List (Machine × Signal)) :
    Reads script (signals.foldl (monitor tracing).hear sh).input.pending
      (signals.foldl (monitor tracing).hear sh) := by
  induction signals generalizing sh with
  | nil => exact h
  | cons signal signals ih => exact ih (hear_reads tracing h)

/-- A quit stays final at a signal unless a prompt opens there. -/
theorem quitIsFinal_hear (h : Reads script sh.input.pending sh) :
    QuitIsFinal script ((monitor tracing).hear sh signal) ↔
      QuitIsFinal script sh ∧ (HasQuit script sh → sh.debugger.stopsAt signal = false) := by
  cases hstop : sh.debugger.stopsAt signal with
  | false =>
      obtain ⟨hkeeps, hprompts⟩ := hear_of_passing tracing hstop
      rw [quitIsFinal_congr script hkeeps.input hprompts]
      simp
  | true =>
      obtain ⟨shown, hkeeps, hprompts, heq⟩ := hear_of_stop tracing hstop
      rw [heq]
      obtain ⟨hreads, hprompted⟩ := talk_reads signal.1 h hkeeps hprompts
      rw [hreads.quitIsFinal_iff hprompted]
      constructor
      · intro hnone
        exact ⟨fun i hi hquits => absurd ⟨i, hi, hquits⟩ hnone, fun hquit => absurd hquit hnone⟩
      · rintro ⟨-, hstays⟩ hquit
        cases hstays hquit

/-- At the end of some signals a quit is final if it was before, and none of those that came after
a quit has stopped the debugger. -/
theorem quitIsFinal_foldl_hear (h : Reads script sh.input.pending sh)
    (signals : List (Machine × Signal)) :
    QuitIsFinal script (signals.foldl (monitor tracing).hear sh) ↔
      QuitIsFinal script sh ∧ ∀ earlier signal later, signals = earlier ++ signal :: later →
        HasQuit script (earlier.foldl (monitor tracing).hear sh) →
          (earlier.foldl (monitor tracing).hear sh).debugger.stopsAt signal = false := by
  induction signals generalizing sh with
  | nil => simp
  | cons first signals ih =>
      rw [List.foldl_cons, ih (hear_reads tracing h), quitIsFinal_hear tracing h, and_assoc]
      refine and_congr_right fun _ => ?_
      constructor
      · rintro ⟨hfirst, hrest⟩ earlier signal later hsplit
        cases earlier with
        | nil =>
            cases hsplit
            exact hfirst
        | cons other earlier =>
            cases hsplit
            exact hrest earlier signal later rfl
      · intro hall
        refine ⟨hall [] first signals rfl, ?_⟩
        rintro earlier signal later rfl
        exact hall (first :: earlier) signal later rfl

end Signals

/-! ## Sessions -/

/-- The states from which a session takes its steps, within a budget. -/
def stepStarts (tracing : Bool) : Nat → Machine × Shell → List (Machine × Shell)
  | budget, s =>
    if s.2.quit || s.1.halted then []
    else
      match budget with
      | 0 => []
      | budget + 1 =>
        s ::
          match Machine.stepWith (monitor tracing) s with
          | (some _, _) => []
          | (none, s) => stepStarts tracing budget s

/-- In a step, no signal that comes after a quit stops the debugger. -/
def QuietAfterQuit (tracing : Bool) (script : List Reading) (s : Machine × Shell) : Prop :=
  ∀ earlier signal later, Machine.stepHeard (monitor tracing) s = earlier ++ signal :: later →
    HasQuit script (earlier.foldl (monitor tracing).hear s.2) →
      (earlier.foldl (monitor tracing).hear s.2).debugger.stopsAt signal = false

/-- The loop of a session keeps a quit final if none of its steps stops after one, and it takes no
step after a quit. -/
theorem proceed_quits (tracing : Bool) (limit : Int) (budget : Nat) {s : Machine × Shell}
    (h : Reads script s.2.input.pending s.2) :
    Reads script (proceed tracing limit budget s).2.2.input.pending
      (proceed tracing limit budget s).2.2 ∧
    (QuitIsFinal script (proceed tracing limit budget s).2.2 ↔
      QuitIsFinal script s.2 ∧ ∀ start ∈ stepStarts tracing budget s,
        QuietAfterQuit tracing script start) ∧
    ∀ start ∈ stepStarts tracing budget s, ¬ HasQuit script start.2 := by
  induction budget generalizing s with
  | zero =>
      rw [proceed.eq_def, stepStarts.eq_def]
      cases hstop : s.2.quit || s.1.halted <;> simp [hstop, h]
  | succ budget ih =>
      rw [proceed.eq_def, stepStarts.eq_def]
      cases hstop : s.2.quit || s.1.halted with
      | true => simp [hstop, h]
      | false =>
          have hunasked : ¬ HasQuit script s.2 := by
            intro hasked
            rw [h.quit hasked] at hstop
            cases hstop
          have hfinal := quitIsFinal_foldl_hear tracing h (Machine.stepHeard (monitor tracing) s)
          have hreads := foldl_hear_reads tracing h (Machine.stepHeard (monitor tracing) s)
          rw [← Machine.stepWith_host] at hfinal hreads
          simp only [hstop, Bool.false_eq_true, if_false]
          rcases hstep : Machine.stepWith (monitor tracing) s with ⟨_ | fault, after⟩
          · rw [hstep] at hfinal hreads
            obtain ⟨hlast, hrest, hnone⟩ := ih hreads
            simp only [List.forall_mem_cons]
            refine ⟨hlast, ?_, hunasked, hnone⟩
            rw [hrest, hfinal, and_assoc]
            rfl
          · -- A step that fails shows the registers, and is the last one.
            rw [hstep] at hfinal hreads
            let shown := after.2.showRegisters after.1
            have hkeeps : after.2.Keeps shown := ⟨rfl, rfl, rfl, rfl⟩
            have hprompts : shown.prompts = after.2.prompts := after.2.prompts_showRegisters _
            simp only [List.forall_mem_singleton]
            exact ⟨hreads.of_keeps hkeeps hprompts,
              (quitIsFinal_congr script hkeeps.input hprompts).trans hfinal, hunasked⟩

theorem session_keeps_proceed (tracing : Bool) (limit : Int) (s : Machine × Shell) :
    (proceed tracing limit (Machine.budget limit) (opening s)).2.2.Keeps
        (session tracing limit s).2.2 ∧
      (session tracing limit s).2.2.prompts =
        (proceed tracing limit (Machine.budget limit) (opening s)).2.2.prompts := by
  unfold session
  rcases proceed tracing limit (Machine.budget limit) (opening s) with ⟨_ | fault, last⟩
  · refine ⟨keeps_closing last, ?_⟩
    change (closing last).2.prompts = last.2.prompts
    unfold closing
    split <;> simp
  · exact ⟨⟨rfl, rfl, rfl, rfl⟩, rfl⟩

/-- The states from which a debug session takes its steps. -/
def debugSteps (support : Support) (tracing : Bool) (limit : Int) (image : Image)
    (symbols : Option Symbols) (script : Text) (m : Machine) : List (Machine × Shell) :=
  stepStarts tracing (Machine.budget limit)
    (opening (m, start support image symbols (.ofText script)))

/-- When quitting is final. Each prompt of a debug session takes one reading of the script, while
there is one. The session opens no prompt and takes no reading after one at which it is asked to
quit, exactly if in none of its steps the debugger stops at a signal that comes after the quit. It
takes no step after the one in which it is asked to quit. -/
theorem quit_is_final_iff_quiet (support : Support) (tracing : Bool) (limit : Int) (image : Image)
    (symbols : Option Symbols) (script : Text) (m : Machine) :
    (debug support tracing limit image symbols script m).2.2.input.pending =
      (Input.ofText script).pending.drop
        (debug support tracing limit image symbols script m).2.2.prompts ∧
    (QuitIsFinal (Input.ofText script).pending
        (debug support tracing limit image symbols script m).2.2 ↔
      ∀ s ∈ debugSteps support tracing limit image symbols script m,
        QuietAfterQuit tracing (Input.ofText script).pending s) ∧
    ∀ s ∈ debugSteps support tracing limit image symbols script m,
      ¬ HasQuit (Input.ofText script).pending s.2 := by
  let sh := start support image symbols (.ofText script)
  have hunasked : ¬ HasQuit (Input.ofText script).pending sh := by
    rintro ⟨i, hi, -⟩
    exact absurd hi (Nat.not_lt_zero i)
  have hstart : Reads (Input.ofText script).pending sh.input.pending sh :=
    { pending := rfl
      lastWords := rfl
      quit := fun hquit => absurd hquit hunasked }
  have hshown : sh.Keeps (sh.showNext m) := ⟨rfl, rfl, rfl, rfl⟩
  obtain ⟨hopened, hprompted⟩ := talk_reads m hstart hshown (sh.prompts_print _)
  have hopening := (hopened.quitIsFinal_iff hprompted).mpr hunasked
  obtain ⟨hreads, hfinal, hnone⟩ := proceed_quits tracing limit (Machine.budget limit) hopened
  obtain ⟨hkeeps, hprompts⟩ := session_keeps_proceed tracing limit (m, sh)
  refine ⟨?_, ?_, hnone⟩
  · exact (congrArg Input.pending hkeeps.input).trans (hreads.of_keeps hkeeps hprompts).pending
  · exact (quitIsFinal_congr _ hkeeps.input hprompts).trans (hfinal.trans (and_iff_right hopening))

/-- The shell is asked to quit at the watched reading of an instruction, and has been told before to
stop at its end. -/
def earlyQuit : Text := Text.ascii "w add 0 r\nn\nq\nm 0 1\n"

/-- The machine carries out one instruction, and the shell reads its script to the end. -/
def earlyQuitSession : Option Fault × (Machine × Shell) :=
  debug .standard false 0 (Image.ofPairs [(0, 3073)]) none earlyQuit (Machine.initial.store 0 3073)

/-- The third of five prompts is the one at which the shell is asked to quit. -/
theorem earlyQuit_not_final :
    quitsAt (Input.ofText earlyQuit).pending 2 = true ∧ earlyQuitSession.2.2.prompts = 5 ∧
      ¬ QuitIsFinal (Input.ofText earlyQuit).pending earlyQuitSession.2.2 := by
  have hquits : quitsAt (Input.ofText earlyQuit).pending 2 = true := by decide +kernel
  have hprompts : earlyQuitSession.2.2.prompts = 5 := by decide +kernel
  refine ⟨hquits, hprompts, ?_⟩
  intro hfinal
  have hlast := (hfinal 2 (by omega) hquits).1
  omega

end Shell

end WordMachine
