import WordMachine.CommandLine.Simulate
import WordMachine.Proofs.Machine.Correspondence
import WordMachine.Proofs.Shell.Loop
import WordMachine.Proofs.Text.BlankLines
import WordMachine.Proofs.Text.Lines

/-!
# Blank lines

A blank line at a prompt stands for the words of the last command, wherever that command was given
and whatever the machine has done since. So a script and the script in which every blank line is
written out as the line that it repeats lead to the same session.

## Implementation notes

What a session does with its input is told by the words that its lines stand for. Two inputs that
stand for the same words are kept together with the last words, since these change with each line.

A session without a limit is given `Machine.patience` steps, and if it is not over by then it ends
with the fault of a limit that has been reached. A machine would go on. What is said about such
sessions is said about these steps of theirs.
-/

namespace WordMachine

namespace Shell

/-- The same shell, with other things to read. -/
def withInput (sh : Shell) (input : Input) : Shell := { sh with input }

/-! ## Commands do not look at the input -/

section Commands

variable (sh : Shell) (input : Input)

@[simp] theorem debugger_withInput : (sh.withInput input).debugger = sh.debugger := rfl

@[simp] theorem address_withInput (token : Text) :
    (sh.withInput input).address token = sh.address token := rfl

@[simp] theorem print_withInput (t : Text) :
    (sh.withInput input).print t = (sh.print t).withInput input := rfl

@[simp] theorem printLine_withInput (t : Text) :
    (sh.withInput input).printLine t = (sh.printLine t).withInput input := rfl

@[simp] theorem say_withInput (t : String) :
    (sh.withInput input).say t = (sh.say t).withInput input := rfl

@[simp] theorem showRegisters_withInput (m : Machine) :
    (sh.withInput input).showRegisters m = (sh.showRegisters m).withInput input := rfl

@[simp] theorem setPoints_withInput (points : Points) :
    (sh.withInput input).setPoints points = (sh.setPoints points).withInput input := rfl

@[simp] theorem note_withInput (notice : Notice) :
    (sh.withInput input).note notice = (sh.note notice).withInput input := rfl

@[simp] theorem image_withInput : (sh.withInput input).image = sh.image := rfl

@[simp] theorem range_withInput (m : Machine) (arguments : List Text) (count : Nat) :
    (sh.withInput input).range m arguments count = sh.range m arguments count := rfl

theorem breakpoint_withInput (action : PointAction) :
    (sh.withInput input).breakpoint action = (sh.breakpoint action).withInput input := by
  cases action with
  | add arguments =>
      change (sh.withInput input).addBreakpoint arguments =
        (sh.addBreakpoint arguments).withInput input
      fun_cases addBreakpoint sh arguments <;> simp_all [addBreakpoint]
  | remove arguments =>
      change (sh.withInput input).removeBreakpoint arguments =
        (sh.removeBreakpoint arguments).withInput input
      fun_cases removeBreakpoint sh arguments <;> simp_all [removeBreakpoint]
  | _ => rfl

theorem watchpoint_withInput (action : PointAction) :
    (sh.withInput input).watchpoint action = (sh.watchpoint action).withInput input := by
  cases action with
  | add arguments =>
      change (sh.withInput input).addWatchpoint arguments =
        (sh.addWatchpoint arguments).withInput input
      fun_cases addWatchpoint sh arguments <;> simp_all [addWatchpoint]
  | remove arguments =>
      change (sh.withInput input).removeWatchpoint arguments =
        (sh.removeWatchpoint arguments).withInput input
      fun_cases removeWatchpoint sh arguments <;> simp_all [removeWatchpoint]
  | _ => rfl

theorem showSource_withInput (m : Machine) (arguments : List Text) :
    (sh.withInput input).showSource m arguments = (sh.showSource m arguments).withInput input := by
  unfold showSource
  split
  · rfl
  · cases hsymbols : sh.debugger.symbols.isNone with
    | false =>
        simp only [debugger_withInput, hsymbols, Bool.false_eq_true, if_false, range_withInput]
        split <;> rfl
    | true =>
        simp only [debugger_withInput, hsymbols, if_true, say_withInput, range_withInput]
        split <;> rfl

theorem showMemory_withInput (m : Machine) (arguments : List Text) :
    (sh.withInput input).showMemory m arguments = (sh.showMemory m arguments).withInput input := by
  unfold showMemory
  split
  · rfl
  · simp only [range_withInput]
    split <;> rfl

theorem perform_withInput (command : Command) (m : Machine) :
    perform (m, sh.withInput input) command =
      ((perform (m, sh) command).1, (perform (m, sh) command).2.withInput input) := by
  cases command with
  | breakpoint action => exact congrArg (m, ·) (sh.breakpoint_withInput input action)
  | watchpoint action => exact congrArg (m, ·) (sh.watchpoint_withInput input action)
  | register arguments =>
      simp only [perform]
      fun_cases register (m, sh) arguments <;> simp_all [register]
  | source arguments => exact congrArg (m, ·) (sh.showSource_withInput input m arguments)
  | labels =>
      change (m, (sh.withInput input).showLabels) = (m, sh.showLabels.withInput input)
      fun_cases showLabels sh <;> simp_all [showLabels]
  | jump arguments =>
      simp only [perform]
      fun_cases jump (m, sh) arguments <;> simp_all [jump]
  | memory arguments => exact congrArg (m, ·) (sh.showMemory_withInput input m arguments)
  | set arguments =>
      simp only [perform]
      fun_cases setWord (m, sh) arguments with
      | case3 token word address haddress value hvalue =>
          simp only [setWord, address_withInput, haddress, hvalue]
          rfl
      | _ => simp_all [setWord]
  | reset =>
      simp only [perform]
      fun_cases reset (m, sh) <;> simp_all [reset]
  | _ => rfl

end Commands

/-! ## Inputs that stand for the same words -/

/-- Two lists of lines that stand for the same words, line by line, after the given last words. -/
inductive SameWords : List Text → List Reading → List Reading → Prop
  | nil (last : List Text) : SameWords last [] []
  | line {last : List Text} {text text' : Text} {rest rest' : List Reading}
      (head : Reading.words last (.line text') = Reading.words last (.line text))
      (tail : SameWords (Reading.words last (.line text)) rest rest') :
      SameWords last (.line text :: rest) (.line text' :: rest')

/-- Two shells that differ only in what they have to read, and have to read lines that stand for the
same words. -/
structure ReadsAlike (sh sh' : Shell) : Prop where
  shell : sh' = sh.withInput sh'.input
  closing : sh'.input.closing = sh.input.closing
  pending : SameWords sh.lastWords sh.input.pending sh'.input.pending

namespace ReadsAlike

variable {sh sh' : Shell} (h : ReadsAlike sh sh')

include h

theorem debugger : sh'.debugger = sh.debugger := by rw [h.shell, debugger_withInput]

theorem quit : sh'.quit = sh.quit := by
  rw [h.shell]
  rfl

/-- Something is shown or logged in both shells. -/
theorem map (change : Shell → Shell)
    (hframe : ∀ sh input, change (sh.withInput input) = (change sh).withInput input)
    (hkeeps : sh.Keeps (change sh)) : ReadsAlike (change sh) (change sh') := by
  have hinput : (change sh').input = sh'.input := by
    rw [h.shell, hframe]
    rfl
  refine ⟨?_, ?_, ?_⟩
  · rw [hinput, h.shell, hframe]
    rfl
  · rw [hinput, hkeeps.input]
    exact h.closing
  · rw [hinput, hkeeps.input, hkeeps.lastWords]
    exact h.pending

end ReadsAlike

/-! ## Conversations -/

theorem lastWords_of_wordsOf {sh : Shell} {text : Text} (h : sh.wordsOf text = []) :
    sh.lastWords = [] := by
  unfold wordsOf at h
  split at h
  · exact h
  · contradiction

/-- The conversations over lines that stand for the same words are the same. -/
theorem converse_alike (closing : Closing) {last : List Text} {pending pending' : List Reading}
    (h : SameWords last pending pending') (m : Machine) {sh : Shell} (hlast : sh.lastWords = last)
    (input : Input) :
    Corresponds ReadsAlike (converse closing pending (m, sh))
      (converse closing pending' (m, sh.withInput input)) := by
  induction h generalizing m sh with
  | nil last =>
      cases closing with
      | ended => exact ⟨rfl, rfl, rfl, .nil _⟩
      | overlong => exact ⟨rfl, rfl, rfl, .nil _⟩
  | @line last text text' rest rest' hhead htail ih =>
      subst hlast
      have hsame : (sh.withInput input).wordsOf text' = sh.wordsOf text := hhead
      cases hwords : sh.wordsOf text with
      | nil =>
          have hnone : sh.ask.wordsOf text = [] := hwords
          have hnone' : (sh.withInput input).ask.wordsOf text' = [] := hsame.trans hwords
          simp only [converse, hnone, hnone']
          apply ih
          exact (lastWords_of_wordsOf hwords).trans hwords.symm
      | cons name arguments =>
          let named : Shell := { sh.ask with lastWords := name :: arguments }
          let command := Command.parse name arguments
          have hlast : (perform (m, named) command).2.lastWords = name :: arguments :=
            (perform_quit command m named).1
          rw [converse_line hwords rfl,
            converse_line (hsame.trans hwords) (named.perform_withInput input command m)]
          have hrest : SameWords (name :: arguments) rest rest' := hwords ▸ htail
          split
          · refine ⟨rfl, rfl, rfl, ?_⟩
            change SameWords (perform (m, named) command).2.lastWords rest rest'
            rwa [hlast]
          · exact ih _ (hlast.trans hwords.symm)

/-- A prompt that opens after something has been shown. -/
theorem talk_alike {s s' : Machine × Shell} (h : Corresponds ReadsAlike s s') :
    Corresponds ReadsAlike (talk s) (talk s') := by
  obtain ⟨m, sh⟩ := s
  obtain ⟨m', sh'⟩ := s'
  obtain ⟨rfl, halike⟩ := h
  have htalk : talk (m', sh') =
      converse sh.input.closing sh'.input.pending (m', sh.withInput sh'.input) := by
    rw [← halike.shell, ← halike.closing]
    rfl
  rw [htalk]
  exact converse_alike sh.input.closing halike.pending m' rfl sh'.input

/-! ## Sessions -/

section Sessions

variable {s s' : Machine × Shell} (h : Corresponds ReadsAlike s s')

include h

/-- Something is shown or logged in both sessions. -/
theorem corresponds_shown (shown : Machine → Shell → Shell)
    (hframe : ∀ m sh input, shown m (sh.withInput input) = (shown m sh).withInput input)
    (hkeeps : ∀ m (sh : Shell), sh.Keeps (shown m sh)) :
    Corresponds ReadsAlike (s.1, shown s.1 s.2) (s'.1, shown s'.1 s'.2) := by
  refine ⟨h.machine, ?_⟩
  rw [h.machine]
  exact h.host.map (shown s.1) (hframe s.1) (hkeeps s.1 s.2)

theorem atAccess_alike (address : Word) :
    Corresponds ReadsAlike (atAccess address s) (atAccess address s') := by
  apply talk_alike
  exact corresponds_shown h
    (fun m sh => (sh.say "Program stopped").print (Display.memory m address 1))
    (fun _ _ _ => rfl) fun _ _ => ⟨rfl, rfl, rfl, rfl⟩

theorem atBreak_alike : Corresponds ReadsAlike (atBreak s) (atBreak s') := by
  unfold atBreak
  rw [h.host.debugger]
  apply talk_alike
  cases s.2.debugger.breaking with
  | true =>
      exact corresponds_shown h showNext (fun _ _ _ => rfl) fun _ _ => ⟨rfl, rfl, rfl, rfl⟩
  | false =>
      exact corresponds_shown h (fun m sh => (sh.say "Program stopped").showNext m)
        (fun _ _ _ => rfl) fun _ _ => ⟨rfl, rfl, rfl, rfl⟩

theorem opening_alike : Corresponds ReadsAlike (opening s) (opening s') := by
  apply talk_alike
  exact corresponds_shown h showNext (fun _ _ _ => rfl) fun _ _ => ⟨rfl, rfl, rfl, rfl⟩

theorem closing_alike : Corresponds ReadsAlike (closing s) (closing s') := by
  unfold closing
  rw [h.machine]
  split
  · have hshown := corresponds_shown h
      (fun m sh => (sh.say "Program halted").showRegisters m)
      (fun _ _ _ => rfl) fun _ _ => ⟨rfl, rfl, rfl, rfl⟩
    rwa [h.machine] at hshown
  · exact h

end Sessions

/-- At every signal the monitors of shells that read alike do the same. -/
theorem monitor_respects (tracing : Bool) : (monitor tracing).Respects ReadsAlike := by
  constructor
  · intro address s s' h
    simp only [monitor, Debugger.monitor, h.host.debugger]
    split
    · exact atAccess_alike h address
    · exact h
  · intro address s s' h
    simp only [monitor, Debugger.monitor, h.host.debugger]
    split
    · exact atAccess_alike h address
    · exact h
  · intro address word sh sh' h
    simp only [monitor, Debugger.monitor]
    split
    · exact h.map (fun sh => sh.note (Machine.fetchNotice address word)) (fun _ _ => rfl)
        ⟨rfl, rfl, rfl, rfl⟩
    · exact h
  · intro s s' h
    simp only [monitor, Debugger.monitor, h.host.debugger, h.machine]
    split
    · exact atBreak_alike h
    · exact h

/-- The loops of two sessions that read alike take the same steps. -/
theorem proceed_alike (tracing : Bool) (limit : Int) (budget : Nat) {s s' : Machine × Shell}
    (h : Corresponds ReadsAlike s s') :
    (proceed tracing limit budget s').1 = (proceed tracing limit budget s).1 ∧
      Corresponds ReadsAlike (proceed tracing limit budget s).2
        (proceed tracing limit budget s').2 := by
  induction budget generalizing s s' with
  | zero =>
      have hgoes : GoesOn s' ↔ GoesOn s := by simp only [GoesOn, h.machine, h.host.quit]
      by_cases hs : GoesOn s
      · rw [proceed_zero hs, proceed_zero (hgoes.mpr hs)]
        exact ⟨rfl, h⟩
      · rw [proceed_of_stop hs, proceed_of_stop (mt hgoes.mp hs)]
        exact ⟨rfl, h⟩
  | succ budget ih =>
      have hgoes : GoesOn s' ↔ GoesOn s := by simp only [GoesOn, h.machine, h.host.quit]
      by_cases hs : GoesOn s
      · obtain ⟨hfault, hnext⟩ := h.stepWith (monitor_respects tracing)
        rcases hstep : Machine.stepWith (monitor tracing) s with ⟨_ | fault, next⟩
        · rcases hstep' : Machine.stepWith (monitor tracing) s' with ⟨fault', next'⟩
          rw [hstep, hstep'] at hfault hnext
          obtain rfl : fault' = none := hfault
          rw [proceed_of_step hs hstep, proceed_of_step (hgoes.mpr hs) hstep']
          exact ih hnext
        · rcases hstep' : Machine.stepWith (monitor tracing) s' with ⟨fault', next'⟩
          rw [hstep, hstep'] at hfault hnext
          obtain rfl : fault' = some fault := hfault
          rw [proceed_of_fault hs hstep, proceed_of_fault (hgoes.mpr hs) hstep']
          refine ⟨rfl, corresponds_shown hnext (fun m sh => sh.showRegisters m) ?_ ?_⟩
          · exact fun _ _ _ => rfl
          · exact fun _ _ => ⟨rfl, rfl, rfl, rfl⟩
      · rw [proceed_of_stop hs, proceed_of_stop (mt hgoes.mp hs)]
        exact ⟨rfl, h⟩

/-- Two sessions that read alike come to the same end. -/
theorem session_alike (tracing : Bool) (limit : Int) {s s' : Machine × Shell}
    (h : Corresponds ReadsAlike s s') :
    (session tracing limit s').1 = (session tracing limit s).1 ∧
      Corresponds ReadsAlike (session tracing limit s).2 (session tracing limit s').2 := by
  obtain ⟨hfault, hlast⟩ := proceed_alike tracing limit (Machine.budget limit) (opening_alike h)
  unfold session
  rcases hloop : proceed tracing limit (Machine.budget limit) (opening s) with ⟨_ | fault, last⟩
  · rcases hloop' : proceed tracing limit (Machine.budget limit) (opening s') with ⟨fault', last'⟩
    rw [hloop, hloop'] at hfault hlast
    obtain rfl : fault' = none := hfault
    exact ⟨rfl, closing_alike hlast⟩
  · rcases hloop' : proceed tracing limit (Machine.budget limit) (opening s') with ⟨fault', last'⟩
    rw [hloop, hloop'] at hfault hlast
    obtain rfl : fault' = some fault := hfault
    exact ⟨rfl, hlast⟩

/-! ## Scripts -/

theorem Input.ofText_of_short {t : Text} (h : ∀ l ∈ Text.rawLines t, l.length < lineLimit) :
    Input.ofText t =
      ⟨(Text.rawLines t).map fun l => .line (Text.dropLastByte Text.carriageReturn l), .ended⟩ := by
  simp only [Input.ofText, Text.readLines_of_short h, List.map_map]
  rfl

/-- The words that stand after a line of a script. -/
theorem words_line (last : List Text) (t : Text) :
    Reading.words last (.line (Text.dropLastByte Text.carriageReturn t)) =
      if t.isBlankLine then last else Text.fields t := by
  simp only [Reading.words, Text.fields_dropLastByte]
  split
  · next hnone => rw [if_pos ((Text.fields_eq_nil_iff t).mp hnone)]
  · next hsome => rw [if_neg (mt (Text.fields_eq_nil_iff t).mpr hsome)]

/-- Blank lines that are written out stand for the same words. -/
theorem sameWords_repeatBlanks (last : Option Text) (hlast : ∀ t ∈ last, t.isBlankLine = false)
    (lines : List Text) :
    SameWords ((last.map Text.fields).getD [])
      (lines.map fun l => .line (Text.dropLastByte Text.carriageReturn l))
      ((Text.repeatBlanks last lines).map
        fun l => .line (Text.dropLastByte Text.carriageReturn l)) := by
  induction lines generalizing last with
  | nil => exact .nil _
  | cons t rest ih =>
      cases hblank : t.isBlankLine with
      | false =>
          simp only [Text.repeatBlanks, hblank, Bool.false_eq_true, if_false, List.map_cons]
          refine .line rfl ?_
          rw [words_line, hblank]
          exact ih (some t) (by simpa using hblank)
      | true =>
          simp only [Text.repeatBlanks, hblank, if_true, List.map_cons]
          refine .line ?_ ?_
          · cases last with
            | none => rfl
            | some u =>
                have hu : u.isBlankLine = false := hlast u rfl
                simp [words_line, hblank, hu]
          · rw [words_line, hblank]
            exact ih last hlast

/-- The whole session over a script whose blank lines are written out. Both sessions have as many
prompts before each command, so that they search labels in the same orders. -/
theorem debug_repeatBlanks {script script' : Text}
    (hcomplete : (Text.readLines lineLimit script).ending = .complete)
    (hrepeats : Text.rawLines script' = Text.repeatBlanks none (Text.rawLines script))
    (support : Support) (tracing : Bool) (limit : Int) (image : Image) (symbols : Option Symbols)
    (m : Machine) :
    ∃ unread, debug support tracing limit image symbols script' m =
      ((debug support tracing limit image symbols script m).1,
        (debug support tracing limit image symbols script m).2.1,
        (debug support tracing limit image symbols script m).2.2.withInput unread) := by
  have hshort := Text.short_of_complete hcomplete
  have hshort' : ∀ l ∈ Text.rawLines script', l.length < lineLimit := by
    intro l hl
    rw [hrepeats] at hl
    rcases Text.mem_of_mem_repeatBlanks hl with hl | hl
    · cases hl
    · exact hshort l hl
  have hstart : ReadsAlike (start support image symbols (.ofText script))
      (start support image symbols (.ofText script')) := by
    rw [Input.ofText_of_short hshort, Input.ofText_of_short hshort', hrepeats]
    exact ⟨rfl, rfl, sameWords_repeatBlanks none (by simp) _⟩
  have hstarts : Corresponds ReadsAlike (m, start support image symbols (.ofText script))
      (m, start support image symbols (.ofText script')) := ⟨rfl, hstart⟩
  obtain ⟨hfault, hend⟩ := session_alike tracing limit hstarts
  exact ⟨(debug support tracing limit image symbols script' m).2.2.input,
    Prod.ext hfault (Prod.ext hend.machine hend.host.shell)⟩

end Shell

namespace CommandLine

theorem runSession_repeatBlanks {script script' : Text}
    (hcomplete : (Text.readLines Shell.lineLimit script).ending = .complete)
    (hrepeats : Text.rawLines script' = Text.repeatBlanks none (Text.rawLines script))
    (equipment : Equipment) (o : SimulateOptions) (told : List Message) (image : Image)
    (symbols : Option Symbols) (m : Machine) :
    runSession equipment o told image symbols script' m =
      runSession equipment o told image symbols script m := by
  unfold runSession
  cases o.place equipment.support symbols m with
  | error e => rfl
  | ok m =>
      obtain ⟨unread, hdebug⟩ := Shell.debug_repeatBlanks hcomplete hrepeats equipment.support
        o.tracing o.limit image symbols m
      unfold Shell.debug at hdebug
      simp only [hdebug]
      rfl

theorem simulateFile_repeatBlanks {script script' : Text}
    (hcomplete : (Text.readLines Shell.lineLimit script).ending = .complete)
    (hrepeats : Text.rawLines script' = Text.repeatBlanks none (Text.rawLines script))
    {m : Type → Type} [Monad m] [LawfulMonad m] (equipment : Equipment) (files : Files m)
    (o : SimulateOptions) (path : Text) :
    simulateFile equipment { files with input := pure script' } o path =
      simulateFile equipment { files with input := pure script } o path := by
  simp only [simulateFile, readImage, readSymbols, pure_bind,
    runSession_repeatBlanks hcomplete hrepeats]

end CommandLine

/-- A blank line repeats the last command. Let all lines of a script be short enough to be read, and
let another script be the same except that every blank line with a line before it that is not blank
is replaced by a copy of the last such line. Then the debug sessions over both scripts end with the
same fault, or without one, in the same machine and in shells that differ only in the lines left
unread: they have printed and logged the same, and have the same points. This holds for every
support, in whatever order it has the labels searched at each prompt. The simulating command has the
same outcome for both, with any equipment, files and options. -/
theorem blank_lines_repeat_last_command (script script' : Text)
    (hcomplete : (Text.readLines Shell.lineLimit script).ending = .complete)
    (hrepeats : Text.rawLines script' = Text.repeatBlanks none (Text.rawLines script)) :
    (∀ (support : Shell.Support) (tracing : Bool) (limit : Int) (image : Image)
        (symbols : Option Symbols) (m : Machine),
      ∃ unread, Shell.debug support tracing limit image symbols script' m =
        ((Shell.debug support tracing limit image symbols script m).1,
          (Shell.debug support tracing limit image symbols script m).2.1,
          { (Shell.debug support tracing limit image symbols script m).2.2 with
            input := unread })) ∧
    ∀ {m : Type → Type} [Monad m] [LawfulMonad m] (equipment : CommandLine.Equipment)
        (files : Files m) (o : CommandLine.SimulateOptions) (path : Text),
      CommandLine.simulateFile equipment { files with input := pure script' } o path =
        CommandLine.simulateFile equipment { files with input := pure script } o path := by
  constructor
  · intro support tracing limit image symbols m
    exact Shell.debug_repeatBlanks hcomplete hrepeats support tracing limit image symbols m
  · intro m _ _ equipment files o path
    exact CommandLine.simulateFile_repeatBlanks hcomplete hrepeats equipment files o path

/-- A script that begins with a blank line, repeats a watchpoint and a step, and whose last line is
blank without a line feed. -/
def terseScript : Text := Text.ascii "\nw add 9 rw\n\nm 9 1\r\nn\n \r\n\t\nw\n  "

/-- The same script with its blank lines written out. -/
def explicitScript : Text := Text.ascii "\nw add 9 rw\nw add 9 rw\nm 9 1\r\nn\nn\nn\nw\nw\n"

/-- The session of a machine that stores register zero at the watched address and then halts. -/
def scriptedSession (script : Text) : Option Fault × (Machine × Shell) :=
  Shell.debug .standard false 5 .empty none script (Machine.initial.store 0 2057)

/-- Both sessions print the same, and the watchpoint is there once. -/
theorem terseScript_session :
    (scriptedSession explicitScript).2.2.printed = (scriptedSession terseScript).2.2.printed ∧
      (scriptedSession explicitScript).2.1 = (scriptedSession terseScript).2.1 ∧
      (scriptedSession terseScript).2.2.debugger.points.watchpoints = [⟨9, .readWrite⟩] := by
  have hcomplete : (Text.readLines Shell.lineLimit terseScript).ending = .complete := by
    decide +kernel
  have hrepeats : Text.rawLines explicitScript =
      Text.repeatBlanks none (Text.rawLines terseScript) := by decide +kernel
  have hpoints : (scriptedSession terseScript).2.2.debugger.points.watchpoints =
      [⟨9, .readWrite⟩] := by decide +kernel
  obtain ⟨hsession, -⟩ :=
    blank_lines_repeat_last_command terseScript explicitScript hcomplete hrepeats
  obtain ⟨unread, hunread⟩ := hsession .standard false 5 .empty none (Machine.initial.store 0 2057)
  have heq : scriptedSession explicitScript =
      ((scriptedSession terseScript).1, (scriptedSession terseScript).2.1,
        { (scriptedSession terseScript).2.2 with input := unread }) := hunread
  exact ⟨by rw [heq], by rw [heq], hpoints⟩

end WordMachine
