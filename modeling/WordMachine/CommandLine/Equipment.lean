import WordMachine.CommandLine.Outcome
import WordMachine.Shell.Support
import WordMachine.Symbols.File

/-!
# The equipment of commands

Commands leave to their equipment how messages are logged, how labels and registers are displayed
and how symbols are kept in a file. The standard equipment is the one that the program has.
-/

namespace WordMachine

/-! ## Logging -/

/-- The bytes that the head of a line of the standard log takes. The head names the speaker. -/
def Speaker.headWidth : Speaker → Nat
  | operands => 46
  | program => 43

/-- The bytes of a line of the standard log, its line feed included. -/
def Log.lineLimit : Nat := 15000

/-- The text of a message as far as a line of the standard log has room for it beside the head and
the line feed. -/
def Notice.cut (n : Notice) : Text := n.text.take (Log.lineLimit - 1 - n.speaker.headWidth)

/-- The log that shows of each head the letter of the severity. Errors and warnings are always
written; information is written when the reader asks for at least its verbosity. -/
def Log.standard : Log :=
  { writes := fun verbosity n =>
      match n.severity with
      | .error => true
      | .warning => true
      | .info level => (level : Int) ≤ verbosity
    head := fun n =>
      match n.severity with
      | .error => Text.ascii "E "
      | .warning => Text.ascii "W "
      | .info _ => Text.ascii "I "
    shown := fun n =>
      n.cut ++ if n.cut.getLast? = some Text.lineFeed then [] else [Text.lineFeed] }

namespace CommandLine

/-! ## Labels -/

/-- The labels of a program, one on a line, ordered by name, with their addresses in one column. -/
def symbolDump (labels : Labels) : Text :=
  let entries := labels.byName.map fun (name, address) =>
    (Text.quote name ++ [Text.colon], address)
  let width := (entries.map fun entry => Text.characters entry.1).foldl max 0 + 1
  let line := fun (entry : Text × Int) =>
    Text.ascii "  " ++ entry.1 ++
      List.replicate (width - Text.characters entry.1) Text.space ++
      Numeral.decimal entry.2 ++ [Text.comma]
  if entries.isEmpty then Text.line (Text.ascii "map[string]int\x7b\x7d")
  else
    Text.unlines ([Text.ascii "map[string]int\x7b"] ++ entries.map line ++ [Text.ascii "\x7d"])

/-! ## Equipment -/

/-- What commands rely on. -/
structure Equipment where
  log : Log
  support : Shell.Support
  /-- Shows the labels of a program. -/
  showLabels : Labels → Text
  /-- The content of a symbol file. -/
  writeSymbols : Symbols → Text
  /-- The symbols of a symbol file, or a message. -/
  readSymbols : Text → Except Text Symbols

/-- The equipment of the program. -/
def Equipment.standard : Equipment :=
  { log := .standard
    support := .standard
    showLabels := symbolDump
    writeSymbols := Symbols.File.write
    readSymbols := fun file =>
      match Symbols.File.read file with
      | .error e => .error e.message
      | .ok symbols => .ok symbols }

end CommandLine

end WordMachine
