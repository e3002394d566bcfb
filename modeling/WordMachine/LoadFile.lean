import WordMachine.Assembly.Image
import WordMachine.Text.Glyph
import WordMachine.Text.Lines

/-!
# Load files

A load file has one line for each word of an image: the address and the word as octal numbers, by
ascending address. Reading allows blank lines, any number of leading zeros and any blanks around
the two numbers; of two lines with one address the later counts.
-/

namespace WordMachine.LoadFile

/-- The line of one word. -/
def entry (pair : Int × Word) : Text :=
  Numeral.padded 8 6 pair.1 ++ [Text.space] ++ pair.2.octal

/-- The load file of an image. -/
def write (image : Image) : Text := Text.unlines (image.pairs.map entry)

/-- What is wrong with a line. -/
inductive Fault where
  | notAPair
  | badAddress
  | badWord
  deriving DecidableEq, Repr

/-- How messages describe a fault. -/
def Fault.description : Fault → Text
  | notAPair => Text.ascii "Expected address and word"
  | badAddress => Text.ascii "Invalid address"
  | badWord => Text.ascii "Invalid word"

/-- A complaint about a numbered line. -/
def complaint (line : Int) (description text : Text) : Text :=
  Numeral.padded 10 2 line ++ Text.ascii ": " ++ description ++ Text.ascii ": " ++ Text.quote text

/-- Why a load file cannot be read. -/
inductive Error where
  /-- A line is too long. -/
  | overlong
  /-- A line, given by its number and its trimmed text, is no pair of address and word. -/
  | malformed (line : Nat) (text : Text) (fault : Fault)
  deriving DecidableEq, Repr

/-- The message for a load file that cannot be read. -/
def Error.message : Error → Text
  | overlong => Text.overlongMessage
  | malformed line text fault => complaint line fault.description text

/-- Reads a line that has been trimmed and is not empty. -/
def readEntry (text : Text) : Except Fault (Int × Word) :=
  match Text.fields text with
  | [address, word] =>
    match Word.readOctal address with
    | .error _ => .error .badAddress
    | .ok a =>
      match Word.readOctal word with
      | .error _ => .error .badWord
      | .ok w => .ok (a.toInt, w)
  | _ => .error .notAPair

/-- Reads lines into an image; `number` is the number of the first of them. -/
def readEntries (number : Nat) (image : Image) : List Text → Except Error Image
  | [] => .ok image
  | line :: rest =>
    let text := Text.trim line
    if text.isEmpty then readEntries (number + 1) image rest
    else
      match readEntry text with
      | .error fault => .error (.malformed number text fault)
      | .ok (address, word) => readEntries (number + 1) (image.insert address word) rest

/-- The bytes of a line, with its line feed, that a reader can hold. -/
def lineLimit : Nat := 65536

/-- Reads a load file. A line that is too long is an error only if every line before it is
good. -/
def read (file : Text) : Except Error Image :=
  let found := Text.readLines lineLimit file
  match readEntries 1 .empty found.lines, found.ending with
  | .error e, _ => .error e
  | .ok image, .complete => .ok image
  | .ok _, .overlong _ => .error .overlong

end WordMachine.LoadFile
