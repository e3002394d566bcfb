import WordMachine.Symbols

/-!
# Symbol files

A symbol file is a sequence of records, each with a tag, an address as six octal digits, and a text
after its length, so that a text may hold any bytes. The first record names the source.
-/

namespace WordMachine.Symbols.File

/-- What a record tells. -/
inductive Tag where
  | source
  | line
  | label
  deriving DecidableEq, Repr

/-- The byte of a tag. -/
def Tag.byte : Tag → UInt8
  | source => 0x53
  | line => 0x4C
  | label => 0x4E

/-- The tag of a byte. -/
def Tag.ofByte? (b : UInt8) : Option Tag :=
  [source, line, label].find? fun tag => tag.byte == b

/-- One record of a symbol file. -/
structure Record where
  tag : Tag
  address : Word
  text : Text
  deriving DecidableEq, Repr

/-- The bytes of a record. -/
def Record.write (r : Record) : Text :=
  [r.tag.byte] ++ r.address.octal ++ [Text.space] ++ Numeral.decimal r.text.length ++
    [Text.colon] ++ Text.line r.text

/-- The records of symbols. -/
def records (symbols : Symbols) : List Record :=
  [⟨.source, 0, symbols.source⟩] ++
  symbols.lines.toList.map (fun entry => ⟨.line, entry.1, entry.2⟩) ++
  symbols.labels.toList.map (fun entry => ⟨.label, entry.1, entry.2⟩)

/-- The symbol file of symbols. -/
def write (symbols : Symbols) : Text := (records symbols).flatMap Record.write

/-- Reads a number up to a given byte, and drops that byte. -/
def readUpTo (stop : UInt8) (base bits : Nat) (t : Text) : Option (Nat × Text) :=
  let (digits, rest) := t.span (· ≠ stop)
  match Numeral.readNat base bits digits, rest with
  | .ok value, _ :: rest => some (value, rest)
  | _, _ => none

/-- Reads one record from the head of a text. -/
def readRecord : Text → Option (Record × Text)
  | [] => none
  | b :: rest => do
    let tag ← Tag.ofByte? b
    let (address, rest) ← readUpTo Text.space 8 Word.bits rest
    let (length, rest) ← readUpTo Text.colon 10 64 rest
    match rest.drop length with
    | 0x0A :: after => some (⟨tag, UInt16.ofNat address, rest.take length⟩, after)
    | _ => none

/-- Adds what a record tells. -/
def add (symbols : Symbols) (r : Record) : Symbols :=
  match r.tag with
  | .source => { symbols with source := r.text }
  | .line => { symbols with lines := symbols.lines.insert r.address r.text }
  | .label => { symbols with labels := symbols.labels.insert r.address r.text }

/-- Why a symbol file cannot be read. -/
inductive Error where
  /-- The file is empty. -/
  | empty
  /-- A part of the file is no record. -/
  | malformed
  deriving DecidableEq, Repr

/-- The message for a symbol file that cannot be read. -/
def Error.message : Error → Text
  | empty => Text.ascii "EOF"
  | malformed => Text.ascii "malformed symbol file"

/-- Reads at most `fuel` records. -/
def readRecords (symbols : Symbols) : Nat → Text → Except Error Symbols
  | _, [] => .ok symbols
  | 0, _ => .error .malformed
  | fuel + 1, t =>
    match readRecord t with
    | none => .error .malformed
    | some (r, rest) => readRecords (add symbols r) fuel rest

/-- Reads a symbol file. A record takes at least one byte, so there are no more records than
bytes. -/
def read (file : Text) : Except Error Symbols :=
  if file.isEmpty then .error .empty
  else readRecords ⟨[], ∅, ∅⟩ file.length file

end WordMachine.Symbols.File
