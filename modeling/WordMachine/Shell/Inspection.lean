import WordMachine.Debugger.Display
import WordMachine.Shell.Basic

/-!
# Inspection commands

The shell shows source lines, memory words and labels. None of these commands changes the machine.
-/

namespace WordMachine.Shell

/-- The address range of a display: its arguments, or what the program counter and a default count
give. -/
def range (sh : Shell) (m : Machine) (arguments : List Text) (count : Nat) :
    Except ArgumentError (Word × Nat) :=
  match arguments with
  | [] => .ok (m.counter, count)
  | token :: rest =>
    match sh.address token with
    | .error e => .error e
    | .ok address =>
      match rest with
      | [] => .ok (address, count)
      | word :: _ =>
        match Argument.count word with
        | .error e => .error e
        | .ok count => .ok (address, count)

/-- Shows source lines. -/
def showSource (sh : Shell) (m : Machine) (arguments : List Text) : Shell :=
  if 2 < arguments.length then sh.say "source [address|label] [#]"
  else
    let sh :=
      if sh.debugger.symbols.isNone then
        sh.say "No symbol table loaded, showing disassembly"
      else sh
    match sh.range m arguments 3 with
    | .error e => sh.printLine e.message
    | .ok (address, count) => sh.print (Display.source sh.debugger.symbols m address count)

/-- Shows memory words. -/
def showMemory (sh : Shell) (m : Machine) (arguments : List Text) : Shell :=
  if 2 < arguments.length then sh.say "memory [address|label] [#]"
  else
    match sh.range m arguments 1 with
    | .error e => sh.printLine e.message
    | .ok (address, count) => sh.print (Display.memory m address count)

/-- Shows the labels of the symbols by ascending address. -/
def showLabels (sh : Shell) : Shell :=
  match sh.debugger.symbols with
  | none => sh.say "No symbol table loaded"
  | some symbols =>
    sh.print (Text.unlines (symbols.labels.toList.map fun (address, name) =>
      Display.bold (Display.bracketed address) ++ [Text.space] ++ name))

end WordMachine.Shell
