import WordMachine.Assembly.Journal
import WordMachine.CommandLine.Equipment
import WordMachine.CommandLine.Files
import WordMachine.CommandLine.Flag
import WordMachine.CommandLine.Path
import WordMachine.LoadFile

/-!
# The assembling command

The command assembles a source file, or its standard input, into a listing and a load file. Lines
that fail are reported with a marker under their column; the files are written all the same.
-/

namespace WordMachine.CommandLine

/-- The options of the assembling command. -/
structure AssembleOptions where
  listing : Text
  load : Text
  debug : Bool
  legacyLabels : Bool
  dumpSymbols : Bool
  verbosity : Int
  deriving DecidableEq, Repr

namespace AssembleOptions

/-- The options when no flag is set. -/
def default : AssembleOptions :=
  { listing := Text.ascii "listing.txt"
    load := Text.ascii "load.txt"
    debug := false
    legacyLabels := false
    dumpSymbols := false
    verbosity := 0 }

/-- The flags of the assembling command. -/
def flags : List (Flag AssembleOptions) :=
  [.text "listing" (some 0x6C) fun value o => { o with listing := value },
    .text "load" (some 0x6F) fun value o => { o with load := value },
    .toggle "debug" fun on o => { o with debug := on },
    .toggle "legacy-labels" fun on o => { o with legacyLabels := on },
    .toggle "dump-symbols" fun on o => { o with dumpSymbols := on },
    .verbosity fun level o => { o with verbosity := level }]

/-- The label rule that the options ask for. -/
def rule (o : AssembleOptions) : LabelRule := if o.legacyLabels then .legacy else .ordinary

end AssembleOptions

/-- Where a source comes from. -/
inductive Origin where
  | standardInput
  | file (path : Text)
  deriving DecidableEq, Repr

namespace Origin

/-- The origin that the arguments name; a dash, or no argument, is the standard input. -/
def ofArguments : List Text → Except FlagError Origin
  | [] => .ok standardInput
  | [path] => if path = [Text.minus] then .ok standardInput else .ok (file path)
  | arguments => .error (.tooManyArguments 1 arguments.length)

/-- How messages name an origin. -/
def name : Origin → Text
  | standardInput => Text.ascii "<stdin>"
  | file path => path

/-- The name of the source that symbols keep. -/
def recorded (directory : Text) : Origin → Text
  | standardInput => []
  | file path => Path.absolute directory path

end Origin

/-- The marker in a field of as many places as its column says. A field that is too wide is not
filled. -/
def columnMarker (column : Int) : Text :=
  if column ≤ widestField then Text.padLeft column.toNat Text.space (Text.ascii "^")
  else tooWideMark ++ Text.ascii "^"

/-- The report of a diagnostic: the source line, and a marker under the column. -/
def report (origin : Origin) (lines : List Text) (d : Diagnostic) : Text :=
  let head := origin.name ++ [Text.colon] ++ d.message
  let found := if d.position.line < 1 then none else lines[d.position.line.toNat - 1]?
  match found with
  | none => head
  | some line =>
    head ++ [Text.lineFeed] ++ line ++ [Text.lineFeed] ++ Text.ascii "\x1b[31m" ++
      columnMarker d.position.column ++ Text.ascii "\x1b[0m"

/-- A summary of an assembly. -/
def summary (origin : Origin) (lines : List Text) (program : Program) : Notice :=
  .info 1 (origin.name ++ Text.ascii ": " ++ Numeral.decimal lines.length ++
    Text.ascii " lines, " ++ Numeral.decimal program.image.size ++ Text.ascii " words, " ++
    Numeral.decimal program.labels.size ++ Text.ascii " labels")

/-- What is told after the files have been written. -/
def closingMessages (equipment : Equipment) (o : AssembleOptions) (origin : Origin)
    (lines : List Text) (program : Program) : List Message :=
  (if o.dumpSymbols then [.plain (equipment.showLabels program.labels)] else []) ++
  [.notice (summary origin lines program)] ++
  program.diagnostics.map fun d => .notice (.error (report origin lines d))

/-- The error of an assembly in which lines were rejected. -/
def assemblyError (program : Program) : Option Text :=
  if program.diagnostics.isEmpty then none
  else
    some (Text.ascii "assembly failed: " ++ Numeral.decimal program.diagnostics.length ++
      Text.ascii " errors")

/-- The text of a source. -/
def readOrigin {m : Type → Type} [Monad m] (files : Files m) :
    Origin → m (Except Text Text)
  | .standardInput => return .ok (← files.input)
  | .file path => do
    match ← files.read path with
    | .ok content => return .ok content
    | .error e =>
      if e.problem = .isDirectory then
        return .error (path ++ Text.ascii " is not a valid assembly file")
      else return .error e.message

/-- Writes files in order, up to the first that fails. -/
def writeAll {m : Type → Type} [Monad m] (files : Files m) :
    List (Text × Text) → m (Option Text)
  | [] => return none
  | (path, content) :: rest => do
    match ← files.write path content with
    | .ok () => writeAll files rest
    | .error e => return some e.message

/-- The files that an assembly writes. -/
def outputs (equipment : Equipment) (o : AssembleOptions) (directory : Text) (origin : Origin)
    (program : Program) : List (Text × Text) :=
  [(o.listing, program.listing.render), (o.load, LoadFile.write program.image)] ++
  if o.debug then
    [(Path.withExtension o.load (Text.ascii ".sym"),
      equipment.writeSymbols (Symbols.ofProgram (origin.recorded directory) program))]
  else []

/-- Assembles a source. -/
def assembleOrigin {m : Type → Type} [Monad m] (equipment : Equipment) (files : Files m)
    (o : AssembleOptions) (origin : Origin) : m Outcome := do
  match ← readOrigin files origin with
  | .error e => return conclude equipment.log o.verbosity [] [] (some e)
  | .ok source =>
    match Program.readSource source with
    | .error .overlong =>
      return conclude equipment.log o.verbosity [] [] (some Text.overlongMessage)
    | .ok lines =>
      let program := Program.assemble o.rule lines
      let told := (Journal.program o.rule lines).map Message.notice
      match ← writeAll files (outputs equipment o files.directory origin program) with
      | some e => return conclude equipment.log o.verbosity [] told (some e)
      | none =>
        return conclude equipment.log o.verbosity []
          (told ++ closingMessages equipment o origin lines program) (assemblyError program)

/-- The assembling command with its arguments, as it is equipped. -/
def assemble {m : Type → Type} [Monad m] (files : Files m) (arguments : List Text) : m Outcome :=
  match Flag.readAll AssembleOptions.flags [] arguments AssembleOptions.default with
  | .error e => return conclude Log.standard 0 [] [] (some e.message)
  | .ok (o, rest) =>
    match Origin.ofArguments rest with
    | .error e => return conclude Log.standard o.verbosity [] [] (some e.message)
    | .ok origin => assembleOrigin Equipment.standard files o origin

end WordMachine.CommandLine
