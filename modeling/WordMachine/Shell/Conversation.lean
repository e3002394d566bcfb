import WordMachine.Machine.Trace
import WordMachine.Shell.Editing
import WordMachine.Shell.Inspection
import WordMachine.Shell.Points

/-!
# Conversations at a prompt

A shell opens a prompt whenever its debugger stops, and carries out commands until one of them
resumes the machine or quits. A blank line repeats the last command. At the end of its input the
shell quits.

## Implementation notes

A prompt can open in the middle of an instruction, where an access to memory is watched, so
commands act on the machine together with the shell. Quitting is taken note of between steps: the
step in progress is finished, and a further stop in it opens a further prompt.
-/

namespace WordMachine.Shell

/-- Carries out a command. -/
def perform (s : Machine × Shell) : Command → Machine × Shell
  | .breakpoint action => (s.1, s.2.breakpoint action)
  | .watchpoint action => (s.1, s.2.watchpoint action)
  | .register arguments => register s arguments
  | .source arguments => (s.1, s.2.showSource s.1 arguments)
  | .labels => (s.1, s.2.showLabels)
  | .jump arguments => jump s arguments
  | .memory arguments => (s.1, s.2.showMemory s.1 arguments)
  | .set arguments => setWord s arguments
  | .continue => (s.1, s.2.setBreaking false)
  | .next => (s.1, s.2.setBreaking true)
  | .quit => (s.1, { s.2 with quit := true })
  | .clear => (s.1, s.2.print (Text.ascii "\x1b[H\x1b[2J"))
  | .reset => reset s
  | .unknown name =>
    (s.1, s.2.printLine (Text.ascii "error: " ++ Text.inQuotes name ++
      Text.ascii " is not a valid command"))

/-- Quits because there is no further line. -/
def hangUp (sh : Shell) : Shell := { sh.printLine [] with quit := true }

/-- Quits because a line is too long. -/
def giveUp (sh : Shell) : Shell := (sh.note (.error Text.overlongMessage)).hangUp

/-- The words that a line stands for: its own, or those of the last command if it is blank. -/
def wordsOf (sh : Shell) (line : Text) : List Text :=
  match Text.fields line with
  | [] => sh.lastWords
  | words => words

/-- Prompts and carries out commands until one leaves the prompt. The readings that are left come as
a list, and the shell keeps those that are not used. -/
def converse (closing : Closing) : List Reading → Machine × Shell → Machine × Shell
  | [], (m, sh) =>
    let sh := { sh.ask with input := ⟨[], closing⟩ }
    match closing with
    | .ended => (m, sh.hangUp)
    | .overlong => (m, sh.giveUp)
  | .overlong :: rest, (m, sh) => (m, { sh.ask with input := ⟨rest, closing⟩ }.giveUp)
  | .line text :: rest, (m, sh) =>
    let sh := sh.ask
    match sh.wordsOf text with
    | [] => converse closing rest (m, sh)
    | name :: arguments =>
      let command := Command.parse name arguments
      let (m, sh) := perform (m, { sh with lastWords := name :: arguments }) command
      if command.leavesPrompt then (m, { sh with input := ⟨rest, closing⟩ })
      else converse closing rest (m, sh)

/-- Opens a prompt. -/
def talk (s : Machine × Shell) : Machine × Shell :=
  converse s.2.input.closing s.2.input.pending s

/-! ## Stops -/

/-- Shows the instruction at the program counter. -/
def showNext (m : Machine) (sh : Shell) : Shell :=
  sh.print (Display.source sh.debugger.symbols m m.counter 1)

/-- Opens a prompt at the end of a step. -/
def atBreak (s : Machine × Shell) : Machine × Shell :=
  let sh := if s.2.debugger.breaking then s.2 else s.2.say "Program stopped"
  talk (s.1, sh.showNext s.1)

/-- Opens a prompt at an access to memory. -/
def atAccess (address : Word) (s : Machine × Shell) : Machine × Shell :=
  talk (s.1, (s.2.say "Program stopped").print (Display.memory s.1 address 1))

/-- The monitor of a shell. When `tracing`, it logs every fetched instruction. -/
def monitor (tracing : Bool) : Monitor Shell :=
  Debugger.monitor Shell.debugger
    { atBreak := some atBreak, atRead := some atAccess, atWrite := some atAccess }
    fun address word sh => if tracing then sh.note (Machine.fetchNotice address word) else sh

end WordMachine.Shell
