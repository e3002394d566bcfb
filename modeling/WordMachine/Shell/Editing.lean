import WordMachine.Debugger.Display
import WordMachine.Machine.Trace
import WordMachine.Shell.Basic

/-!
# Editing commands

The shell sets registers, memory words and the program counter, and loads the program again. The
first index register cannot be set.
-/

namespace WordMachine.Shell

/-- A register that can be set. -/
inductive Target where
  | general (slot : Fin 4)
  | index (slot : Fin 4)
  | counter
  deriving DecidableEq, Repr

/-- The register with an upper-case name. -/
def target? (name : Text) : Option Target :=
  if name = Text.ascii "R0" then some (.general (Fields.slot 0))
  else if name = Text.ascii "R1" then some (.general (Fields.slot 1))
  else if name = Text.ascii "R2" then some (.general (Fields.slot 2))
  else if name = Text.ascii "R3" then some (.general (Fields.slot 3))
  else if name = Text.ascii "X1" then some (.index (Fields.slot 1))
  else if name = Text.ascii "X2" then some (.index (Fields.slot 2))
  else if name = Text.ascii "X3" then some (.index (Fields.slot 3))
  else if name = Text.ascii "PC" then some .counter
  else none

/-- Sets a register. -/
def Target.assign (target : Target) (word : Word) (m : Machine) : Machine :=
  match target with
  | general slot => m.setRegister slot word
  | index slot => m.setIndex slot word
  | counter => { m with counter := word }

/-- Shows all registers, or sets one. -/
def register (s : Machine × Shell) : List Text → Machine × Shell
  | [] => (s.1, s.2.showRegisters s.1)
  | [name, token] =>
    match Argument.value token with
    | .error e => (s.1, s.2.printLine e.message)
    | .ok word =>
      match target? (Text.upper name) with
      | none => (s.1, s.2.say "Invalid register")
      | some target =>
        (target.assign word s.1, s.2.printLine (Display.named (Text.upper name) word))
  | _ => (s.1, s.2.say "register [R#|X#|PC] [value]")

/-- Moves the program counter. -/
def jump (s : Machine × Shell) : List Text → Machine × Shell
  | [token] =>
    match s.2.address token with
    | .error e => (s.1, s.2.printLine e.message)
    | .ok address =>
      ({ s.1 with counter := address },
        s.2.printLine (Display.named (Text.ascii "PC") address))
  | _ => (s.1, s.2.say "jump [address|label]")

/-- Sets a memory word. -/
def setWord (s : Machine × Shell) : List Text → Machine × Shell
  | [token, word] =>
    match s.2.address token with
    | .error e => (s.1, s.2.printLine e.message)
    | .ok address =>
      match Argument.value word with
      | .error e => (s.1, s.2.printLine e.message)
      | .ok word =>
        let m := s.1.store address word
        (m, s.2.print (Display.memory m address 1))
  | _ => (s.1, s.2.say "set [address|label] [value]")

/-- Loads the program again. -/
def reset (s : Machine × Shell) : Machine × Shell :=
  match s.1.reload s.2.image with
  | (m, some e) => (m, s.2.printLine e.message)
  | (m, none) =>
    (m, (s.2.note (Machine.loadedNotice s.2.image)).printLine
      (Text.ascii "Machine reset, " ++ Display.named (Text.ascii "PC") m.counter))

end WordMachine.Shell
