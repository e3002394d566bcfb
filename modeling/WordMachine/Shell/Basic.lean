import WordMachine.Debugger.Monitor
import WordMachine.Log
import WordMachine.Shell.Argument
import WordMachine.Shell.Input
import WordMachine.Shell.Support

/-!
# The state of a debug shell

A shell has its support, a debugger, the image that it debugs, the rest of its input, and what it
has printed and logged so far.
-/

namespace WordMachine

/-- What a shell prints: prompts, and the text between them. -/
inductive Printed where
  | prompt
  | text (t : Text)
  deriving DecidableEq, Repr

/-- The text of what is printed. -/
def Printed.render : Printed → Text
  | prompt => Text.ascii "(dbg) "
  | text t => t

/-- The state of a shell. -/
structure Shell where
  support : Shell.Support
  debugger : Debugger
  /-- The image that a reset loads again. -/
  image : Image
  input : Shell.Input
  /-- The words of the last command, which a blank line repeats. -/
  lastWords : List Text
  quit : Bool
  /-- The number of prompts so far. -/
  asked : Nat
  printed : Array Printed
  log : Array Notice

namespace Shell

/-- A shell that has printed nothing. -/
def start (support : Support) (image : Image) (symbols : Option Symbols) (input : Input) : Shell :=
  { support
    debugger := { Debugger.idle with symbols }
    image
    input
    lastWords := []
    quit := false
    asked := 0
    printed := #[]
    log := #[] }

/-- Prints a text. -/
def print (sh : Shell) (t : Text) : Shell := { sh with printed := sh.printed.push (.text t) }

/-- Prints a text on a line of its own. -/
def printLine (sh : Shell) (t : Text) : Shell := sh.print (Text.line t)

/-- Prints an ASCII text on a line of its own. -/
def say (sh : Shell) (t : String) : Shell := sh.printLine (Text.ascii t)

/-- Prints a prompt. -/
def ask (sh : Shell) : Shell :=
  { sh with asked := sh.asked + 1, printed := sh.printed.push .prompt }

/-- Shows the registers. -/
def showRegisters (sh : Shell) (m : Machine) : Shell := sh.print (sh.support.registers m)

/-- Adds a message to the log. -/
def note (sh : Shell) (notice : Notice) : Shell := { sh with log := sh.log.push notice }

/-- Changes the points of the debugger. -/
def setPoints (sh : Shell) (points : Points) : Shell :=
  { sh with debugger := { sh.debugger with points } }

/-- Sets whether the debugger stops at the end of the next step. -/
def setBreaking (sh : Shell) (breaking : Bool) : Shell :=
  { sh with debugger := { sh.debugger with breaking } }

/-- The address that a token names for this shell. -/
def address (sh : Shell) (token : Text) : Except ArgumentError Word :=
  Argument.address (sh.support.search sh.asked sh.debugger.symbols) token

end Shell

end WordMachine
