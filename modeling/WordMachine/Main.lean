import WordMachine.CommandLine.Assemble
import WordMachine.CommandLine.Simulate

/-!
# The program

The first argument chooses a command, `assemble` or `simulate`; the others are its arguments. This
module only connects the commands to the files and streams of the system.
-/

namespace WordMachine.System

/-- The bytes of a string. -/
def toText (s : String) : Text := s.toUTF8.toList

/-- The string of bytes, with every byte as a character of its own where they are not valid. -/
def ofText (t : Text) : String :=
  (String.fromUTF8? ⟨t.toArray⟩).getD (String.ofList (t.map fun b => Char.ofNat b.toNat))

/-- The problem behind an error of the system. The code of a directory in place of a file is 21,
that of a name that is too long is 36, and the system may give either with its sign reversed. -/
def problem (e : IO.Error) : FileProblem :=
  match e with
  | .noFileOrDirectory .. => .missing
  | .inappropriateType _ code _ =>
    if code = 21 ∨ code = 0 - 21 then .isDirectory else .notDirectory
  | .invalidArgument _ code details =>
    if code = 36 ∨ code = 0 - 36 then .nameTooLong else .other (toText details)
  | e => .other (toText (toString e))

/-- Reads a file. -/
def read (path : Text) : IO (Except FileError Text) := do
  try
    let content ← IO.FS.readBinFile (ofText path)
    return .ok content.toList
  catch e =>
    let found := problem e
    let action := if found = .isDirectory then FileAction.reading else .opening
    return .error ⟨action, path, found⟩

/-- Writes a file. -/
def write (path content : Text) : IO (Except FileError Unit) := do
  try
    IO.FS.writeBinFile (ofText path) ⟨content.toArray⟩
    return .ok ()
  catch e =>
    return .error ⟨.opening, path, problem e⟩

/-- Reads a stream to its end. -/
partial def readStream (stream : IO.FS.Stream) (found : ByteArray) : IO ByteArray := do
  let chunk ← stream.read 65536
  if chunk.isEmpty then return found
  readStream stream (found ++ chunk)

/-- The files and the standard input of the system. -/
def files (directory : String) : Files IO :=
  { directory := toText directory
    input := do return (← readStream (← IO.getStdin) .empty).toList
    read
    write }

/-- Runs a command. -/
def run (command : Files IO → List Text → IO CommandLine.Outcome) (arguments : List String) :
    IO UInt32 := do
  let directory ← IO.currentDir
  let outcome ← command (files (toString directory)) (arguments.map toText)
  (← IO.getStderr).write ⟨outcome.messages.toArray⟩
  (← IO.getStdout).write ⟨outcome.output.toArray⟩
  return UInt32.ofNat outcome.exitCode

end WordMachine.System

/-- Chooses a command by the first argument. -/
def main (arguments : List String) : IO UInt32 :=
  match arguments with
  | "assemble" :: rest => WordMachine.System.run WordMachine.CommandLine.assemble rest
  | "simulate" :: rest => WordMachine.System.run WordMachine.CommandLine.simulate rest
  | _ => do
    IO.eprintln "usage: assemble [flags] [source], or simulate [flags] loadfile"
    return 1
