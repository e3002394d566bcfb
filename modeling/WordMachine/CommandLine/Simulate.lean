import WordMachine.CommandLine.Equipment
import WordMachine.CommandLine.Files
import WordMachine.CommandLine.Flag
import WordMachine.CommandLine.Path
import WordMachine.LoadFile
import WordMachine.Shell.Session

/-!
# The simulating command

The command loads a file and runs it from its lowest address, or from an address that it is given.
With the debug flag it opens a debug session instead, whose symbols stand next to the load file.
-/

namespace WordMachine.CommandLine

/-- The options of the simulating command. -/
structure SimulateOptions where
  debug : Bool
  limit : Int
  start : Text
  symbols : Text
  verbosity : Int
  deriving DecidableEq, Repr

namespace SimulateOptions

/-- The options when no flag is set. -/
def default : SimulateOptions :=
  { debug := false, limit := 0, start := [], symbols := [], verbosity := 0 }

/-- The flags of the simulating command. -/
def flags : List (Flag SimulateOptions) :=
  [.toggle "debug" fun on o => { o with debug := on },
    .integer "limit" fun limit o => { o with limit },
    .text "start" none fun value o => { o with start := value },
    .text "symbols" none fun value o => { o with symbols := value },
    .verbosity fun level o => { o with verbosity := level }]

/-- Whether fetched instructions are logged. -/
def tracing (o : SimulateOptions) : Bool := 2 ≤ o.verbosity

/-- The file that symbols are read from: the one that is named, or the one next to the load
file. -/
def symbolPath (o : SimulateOptions) (path : Text) : Text :=
  if o.symbols.isEmpty then Path.withExtension path (Text.ascii ".sym") else o.symbols

/-- Moves the machine to the start that the options name. Labels are searched before any prompt. -/
def place (o : SimulateOptions) (support : Shell.Support) (symbols : Option Symbols) (m : Machine) :
    Except ArgumentError Machine :=
  if o.start.isEmpty then .ok m
  else
    match Argument.address (support.search 0 symbols) o.start with
    | .error e => .error e
    | .ok address => .ok { m with counter := address }

end SimulateOptions

/-- The only argument of the command. -/
def loadPath : List Text → Except FlagError Text
  | [path] => .ok path
  | arguments => .error (.wrongArgumentCount 1 arguments.length)

/-- The image of a load file. -/
def readImage {m : Type → Type} [Monad m] (files : Files m) (path : Text) :
    m (Except Text Image) := do
  match ← files.read path with
  | .error e => return .error e.message
  | .ok content =>
    match LoadFile.read content with
    | .error e => return .error e.message
    | .ok image => return .ok image

/-- The symbols of a symbol file. -/
def readSymbols {m : Type → Type} [Monad m] (equipment : Equipment) (files : Files m)
    (path : Text) : m (Except Text Symbols) := do
  match ← files.read path with
  | .error e => return .error e.message
  | .ok content => return equipment.readSymbols content

/-- Runs a loaded machine and shows its final state. -/
def runToEnd (equipment : Equipment) (o : SimulateOptions) (loaded : List Message)
    (m : Machine) : Outcome :=
  match o.place equipment.support none m with
  | .error e => conclude equipment.log o.verbosity [] loaded (some e.message)
  | .ok m =>
    let (fault, m, log) := Machine.runWith (Machine.tracer o.tracing) o.limit (m, #[])
    conclude equipment.log o.verbosity (Display.finalState m)
      (loaded ++ log.toList.map Message.notice) (fault.map Fault.message)

/-- Runs a loaded machine in a debug session. -/
def runSession (equipment : Equipment) (o : SimulateOptions) (told : List Message) (image : Image)
    (symbols : Option Symbols) (input : Text) (m : Machine) : Outcome :=
  match o.place equipment.support symbols m with
  | .error e => conclude equipment.log o.verbosity [] told (some e.message)
  | .ok m =>
    let sh := Shell.start equipment.support image symbols (.ofText input)
    let (fault, _, sh) := Shell.session o.tracing o.limit (m, sh)
    conclude equipment.log o.verbosity sh.transcript (told ++ sh.log.toList.map Message.notice)
      (fault.map Fault.message)

/-- Simulates a load file. -/
def simulateFile {m : Type → Type} [Monad m] (equipment : Equipment) (files : Files m)
    (o : SimulateOptions) (path : Text) : m Outcome := do
  match ← readImage files path with
  | .error e => return conclude equipment.log o.verbosity [] [] (some e)
  | .ok image =>
    match Machine.load image with
    | (_, some e) => return conclude equipment.log o.verbosity [] [] (some e.message)
    | (machine, none) =>
      let loaded := [Message.notice (Machine.loadedNotice image)]
      if o.debug then
        let symbols ← readSymbols equipment files (o.symbolPath path)
        let input ← files.input
        match symbols with
        | .ok symbols => return runSession equipment o loaded image (some symbols) input machine
        | .error e =>
          let warning := Notice.warning (Text.ascii "Error loading symbol file: " ++ e)
          return runSession equipment o (loaded ++ [.notice warning]) image none input machine
      else return runToEnd equipment o loaded machine

/-- The simulating command with its arguments, as it is equipped. -/
def simulate {m : Type → Type} [Monad m] (files : Files m) (arguments : List Text) : m Outcome :=
  match Flag.readAll SimulateOptions.flags [] arguments SimulateOptions.default with
  | .error e => return conclude Log.standard 0 [] [] (some e.message)
  | .ok (o, rest) =>
    match loadPath rest with
    | .error e => return conclude Log.standard o.verbosity [] [] (some e.message)
    | .ok path => simulateFile Equipment.standard files o path

end WordMachine.CommandLine
