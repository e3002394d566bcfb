import WordMachine.Debugger.Display
import WordMachine.Shell.Basic
import WordMachine.Shell.Command

/-!
# Point commands

The shell adds, lists, removes and clears breakpoints and watchpoints. Points are numbered in the
order in which they are listed, from zero.
-/

namespace WordMachine.Shell

/-- Adds a breakpoint. -/
def addBreakpoint (sh : Shell) : List Text → Shell
  | [token] =>
    match sh.address token with
    | .error e => sh.printLine e.message
    | .ok address =>
      match sh.debugger.points.addBreakpoint address with
      | (_, false) => sh
      | (points, true) =>
        (sh.setPoints points).printLine
          (Text.ascii "Breakpoint added " ++ Display.bracketed address)
  | _ => sh.say "break add [address|label]"

/-- Numbered lines. -/
def numbered (ts : List Text) : Text :=
  Text.unlines ((ts.zipIdx).map fun (t, i) =>
    Text.ascii "#" ++ Numeral.decimal i ++ Text.ascii ": " ++ t)

/-- Removes the breakpoint with a number. -/
def removeBreakpoint (sh : Shell) : List Text → Shell
  | [token] =>
    match Argument.position? token with
    | none => sh.say "break rm [#]"
    | some i =>
      match sh.debugger.points.removeBreakpoint i with
      | .error e => sh.printLine e.message
      | .ok points =>
        (sh.setPoints points).printLine
          (Text.ascii "Breakpoint removed [" ++ Numeral.decimal i ++ Text.ascii "]")
  | _ => sh.say "break rm [#]"

/-- Carries out a breakpoint command. -/
def breakpoint (sh : Shell) : PointAction → Shell
  | .add arguments => sh.addBreakpoint arguments
  | .list => sh.print (numbered (sh.debugger.points.breakpoints.map Word.octal))
  | .remove arguments => sh.removeBreakpoint arguments
  | .clear => (sh.setPoints sh.debugger.points.clearBreakpoints).say "Breakpoints reset"
  | .unknown name =>
    (sh.printLine (Text.ascii "break: " ++ Text.inQuotes name ++
      Text.ascii " is not a valid command")).say "break [add|list|rm|clear]"

/-- The kind of watchpoint that a word names. -/
def watchKind? (word : Text) : Option WatchKind :=
  if isOneOf ["r", "read"] word then some .read
  else if isOneOf ["w", "write"] word then some .write
  else if isOneOf ["rw", "readwrite"] word then some .readWrite
  else none

/-- How to add a watchpoint. -/
def watchUsage : String := "watch add [address|label] [read|write|readwrite]"

/-- Adds a watchpoint. -/
def addWatchpoint (sh : Shell) : List Text → Shell
  | [token, word] =>
    match sh.address token with
    | .error e => sh.printLine e.message
    | .ok address =>
      match watchKind? word with
      | none => sh.say watchUsage
      | some kind =>
        match sh.debugger.points.addWatchpoint ⟨address, kind⟩ with
        | (_, false) => sh
        | (points, true) =>
          (sh.setPoints points).printLine
            (Text.ascii "Watchpoint added " ++ Display.bracketed address ++ Text.ascii " (" ++
              kind.name ++ Text.ascii ")")
  | _ => sh.say watchUsage

/-- Removes the watchpoint with a number. -/
def removeWatchpoint (sh : Shell) : List Text → Shell
  | [token] =>
    match Argument.position? token with
    | none => sh.say "watch rm [#]"
    | some i =>
      match sh.debugger.points.removeWatchpoint i with
      | .error e => sh.printLine e.message
      | .ok points =>
        (sh.setPoints points).printLine
          (Text.ascii "Watchpoint removed [" ++ Numeral.decimal i ++ Text.ascii "]")
  | _ => sh.say "watch rm [#]"

/-- Carries out a watchpoint command. -/
def watchpoint (sh : Shell) : PointAction → Shell
  | .add arguments => sh.addWatchpoint arguments
  | .list =>
    sh.print (numbered (sh.debugger.points.watchpoints.map fun w =>
      w.address.octal ++ [Text.space] ++ w.kind.name))
  | .remove arguments => sh.removeWatchpoint arguments
  | .clear => (sh.setPoints sh.debugger.points.clearWatchpoints).say "Watchpoints reset"
  | .unknown name =>
    (sh.printLine (Text.ascii "watch: " ++ Text.inQuotes name ++
      Text.ascii " is not a valid command")).say "watch [add|list|rm|clear]"

end WordMachine.Shell
