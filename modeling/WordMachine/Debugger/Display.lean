import WordMachine.Machine.State
import WordMachine.Symbols

/-!
# Displays

A debugger shows memory as octal words, as source or disassembled instructions, and the registers.
Addresses wrap around at the end of the memory.
-/

namespace WordMachine.Display

/-- The control sequence that starts a style on a terminal. -/
def style (codes : String) : Text := Text.ascii "\x1b[" ++ Text.ascii codes ++ Text.ascii "m"

/-- The control sequence that ends every style. -/
def plain : Text := style "0"

/-- A text in a style. -/
def styled (codes : String) (t : Text) : Text := style codes ++ t ++ plain

/-- A text in bold. -/
def bold (t : Text) : Text := styled "1" t

/-- An address between brackets. -/
def bracketed (address : Word) : Text := Text.ascii "[" ++ address.octal ++ Text.ascii "]"

/-! ## Source -/

/-- The line above an address that has a label. -/
def labelLine (symbols : Option Symbols) (address : Word) : Text :=
  match symbols.bind fun s => s.labels[address]? with
  | none => []
  | some name => Text.line (name ++ [Text.colon])

/-- The source of an address, or the disassembly of the word there. -/
def sourceText (symbols : Option Symbols) (address word : Word) : Text :=
  match symbols.bind fun s => s.lines[address]? with
  | none => Text.ascii "; " ++ word.disassemble
  | some line => line

/-- The lines of one address. An arrow marks the program counter. -/
def sourceLine (symbols : Option Symbols) (m : Machine) (address : Word) : Text :=
  let marker := if address = m.counter then Text.ascii ">" else Text.ascii " "
  let word := m.memory.read address
  labelLine symbols address ++
    Text.line (marker ++ bracketed address ++ [Text.space] ++ word.octal ++ Text.ascii "  " ++
      sourceText symbols address word)

/-- The lines of consecutive addresses. -/
def source (symbols : Option Symbols) (m : Machine) (address : Word) (count : Nat) : Text :=
  (List.range count).flatMap fun i => sourceLine symbols m (address + UInt16.ofNat i)

/-! ## Memory -/

/-- What stands before the word at an offset: the address at the head of each row of four. -/
def rowHead (address : Word) (offset : Nat) : Text :=
  if offset = 0 then bracketed address
  else if offset % 4 = 0 then [Text.lineFeed] ++ bracketed (address + UInt16.ofNat offset)
  else []

/-- The words at consecutive addresses, four in a row. -/
def memory (m : Machine) (address : Word) (count : Nat) : Text :=
  Text.line ((List.range count).flatMap fun i =>
    rowHead address i ++ [Text.space] ++ (m.memory.read (address + UInt16.ofNat i)).octal)

/-! ## Registers -/

/-- A text between coloured quotation marks. -/
def quoted (t : Text) : Text :=
  let mark := style "31" ++ bold (Text.ascii "\"")
  mark ++ style "31" ++ t ++ plain ++ mark

/-- One line of the register display. -/
def entry (indent : Nat) (t : Text) : Text :=
  Text.line (List.replicate indent Text.space ++ t ++ [Text.comma])

/-- The name of a field and the blanks after it. -/
def fieldName (name : String) (gap : Nat) : Text :=
  styled "33" (Text.ascii name) ++ [Text.colon] ++ List.replicate gap Text.space

/-- The registers of a bank. -/
def bankEntry (name : String) (gap : Nat) (bank : Bank) : Text :=
  Text.line (List.replicate 2 Text.space ++ fieldName name gap ++ Text.ascii "[" ++
    styled "34" (Text.ascii "4") ++ Text.ascii "]" ++ styled "32" (Text.ascii "string") ++
    Text.ascii "\x7b") ++
  bank.toList.flatMap (fun w => entry 4 (quoted w.octal)) ++
  entry 2 (Text.ascii "\x7d")

/-- A truth value. -/
def truth (b : Bool) : Text :=
  style "36" ++ bold (Text.ascii (if b then "true" else "false"))

/-- The registers and the state of the machine, in colours. -/
def registers (m : Machine) : Text :=
  Text.line (Text.ascii "debugger." ++ styled "32" (Text.ascii "registerView") ++
    Text.ascii "\x7b") ++
  entry 2 (fieldName "PC" 1 ++ quoted m.counter.octal) ++
  entry 2 (fieldName "IR" 1 ++ quoted (m.instruction.octal ++ Text.ascii " (" ++
    m.instruction.disassemble ++ Text.ascii ")")) ++
  bankEntry "R" 2 m.registers ++
  bankEntry "X" 1 m.index ++
  entry 2 (fieldName "Halted" 1 ++ truth m.halted) ++
  Text.line (Text.ascii "\x7d")

/-- One register with its name in bold. -/
def named (name : Text) (word : Word) : Text :=
  bold (name ++ [Text.colon]) ++ [Text.space] ++ word.octal

/-- Registers in one row, each followed by a tab. -/
def bankRow (letter : String) (first : Nat) (words : List Word) : Text :=
  Text.line ((words.zipIdx first).flatMap fun (word, i) =>
    named (Text.ascii letter ++ Numeral.decimal i) word ++ Text.ascii "\t")

/-- The registers at the end of a run. The first index register is not shown. -/
def finalState (m : Machine) : Text :=
  Text.line (named (Text.ascii "PC") m.counter ++ Text.ascii "\t" ++
    named (Text.ascii "IR") m.instruction) ++
  bankRow "R" 0 m.registers.toList ++
  bankRow "X" 1 (m.index.toList.drop 1)

end WordMachine.Display
