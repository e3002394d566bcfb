import WordMachine.Log
import WordMachine.Machine.Step

/-!
# Messages about a machine

Loading an image and fetching an instruction are told to the log.
-/

namespace WordMachine.Machine

/-- The message that an image has been loaded. -/
def loadedNotice (image : Image) : Notice :=
  .info 1 (Text.ascii "Loaded " ++ Numeral.decimal image.size ++ Text.ascii " words")

/-- The message that an instruction has been fetched. -/
def fetchNotice (address word : Word) : Notice :=
  .info 2 (address.octal ++ Text.ascii ": " ++ word.octal ++ [Text.space] ++ word.disassemble)

/-- The monitor that keeps a log of fetched instructions, when `tracing`. -/
def tracer (tracing : Bool) : Monitor (Array Notice) :=
  { Monitor.silent (Array Notice) with
    fetched := fun address word log =>
      if tracing then log.push (fetchNotice address word) else log }

end WordMachine.Machine
