import WordMachine.Text.Basic

/-!
# Shell commands

A command line is a command name and its arguments. Most names have short forms.
-/

namespace WordMachine.Shell

/-- What is to be done with breakpoints or watchpoints. -/
inductive PointAction where
  | add (arguments : List Text)
  | list
  | remove (arguments : List Text)
  | clear
  | unknown (name : Text)
  deriving DecidableEq, Repr

/-- A command of the shell. -/
inductive Command where
  | breakpoint (action : PointAction)
  | watchpoint (action : PointAction)
  | register (arguments : List Text)
  | source (arguments : List Text)
  | labels
  | jump (arguments : List Text)
  | memory (arguments : List Text)
  | set (arguments : List Text)
  /-- Resume until the next stop. -/
  | continue
  /-- Resume for one step. -/
  | next
  | quit
  /-- Clear the screen. -/
  | clear
  /-- Load the program again. -/
  | reset
  | unknown (name : Text)
  deriving DecidableEq, Repr

/-- Whether a name is one of those listed. -/
def isOneOf (names : List String) (name : Text) : Bool :=
  names.any fun candidate => Text.ascii candidate == name

/-- The action of the words after a point command. Without words the points are listed. -/
def PointAction.parse : List Text → PointAction
  | [] => list
  | name :: arguments =>
    if isOneOf ["a", "add"] name then add arguments
    else if isOneOf ["l", "ls", "list"] name then list
    else if isOneOf ["r", "rm", "remove"] name then remove arguments
    else if isOneOf ["clear"] name then clear
    else unknown name

/-- The command of a name and its arguments. -/
def Command.parse (name : Text) (arguments : List Text) : Command :=
  if isOneOf ["b", "bp", "break", "breakpoint"] name then
    breakpoint (PointAction.parse arguments)
  else if isOneOf ["w", "wp", "watch", "watchpoint"] name then
    watchpoint (PointAction.parse arguments)
  else if isOneOf ["r", "reg", "register", "registers"] name then register arguments
  else if isOneOf ["s", "src", "source"] name then source arguments
  else if isOneOf ["l", "label", "labels"] name then labels
  else if isOneOf ["j", "jmp", "jump"] name then jump arguments
  else if isOneOf ["m", "mem", "memory"] name then memory arguments
  else if isOneOf ["set"] name then set arguments
  else if isOneOf ["c", "continue"] name then .continue
  else if isOneOf ["n", "next"] name then next
  else if isOneOf ["q", "quit", "exit"] name then quit
  else if isOneOf ["clear"] name then clear
  else if isOneOf ["reset"] name then reset
  else unknown name

/-- Whether a command ends the conversation at a prompt. -/
def Command.leavesPrompt : Command → Bool
  | .continue => true
  | .next => true
  | .quit => true
  | _ => false

end WordMachine.Shell
