import WordMachine.Numeral.Reading

/-!
# Flags

An argument that starts with a dash sets a flag. `--name value` and `--name=value` name it in full,
with underscores for dashes if one likes; `-n value`, `-nvalue` and `-n=value` by its letter. A flag
with an implied value needs none. `--` ends the flags, and a dash alone is an argument. Flags of a
test run, such as `-test.v`, are passed over.
-/

namespace WordMachine.CommandLine

/-- A flag that changes options of type `ω`. -/
structure Flag (ω : Type) where
  name : Text
  letter : Option UInt8
  /-- The value that the flag has when none is given. -/
  implied : Option Text
  /-- Takes over a value. -/
  assign : Text → ω → Except Numeral.Unreadable ω

/-- Why arguments are not accepted. -/
inductive FlagError where
  | badForm (argument : Text)
  | unknownName (name : Text)
  | unknownLetter (letter : UInt8) (cluster : Text)
  | valueMissing (argument : Text)
  | letterValueMissing (letter : UInt8) (cluster : Text)
  | badValue (value shown : Text) (cause : Numeral.Unreadable)
  | tooManyArguments (most received : Nat)
  | wrongArgumentCount (wanted received : Nat)
  deriving DecidableEq, Repr

/-- The message for arguments that are not accepted. -/
def FlagError.message : FlagError → Text
  | badForm argument => Text.ascii "bad flag syntax: " ++ argument
  | unknownName name => Text.ascii "unknown flag: --" ++ name
  | unknownLetter letter cluster =>
    Text.ascii "unknown shorthand flag: " ++ Text.quoteScalar letter.toNat ++
      Text.ascii " in -" ++ cluster
  | valueMissing argument => Text.ascii "flag needs an argument: " ++ argument
  | letterValueMissing letter cluster =>
    Text.ascii "flag needs an argument: " ++ Text.quoteScalar letter.toNat ++
      Text.ascii " in -" ++ cluster
  | badValue value shown cause =>
    Text.ascii "invalid argument " ++ Text.quote value ++ Text.ascii " for " ++
      Text.quote shown ++ Text.ascii " flag: " ++ cause.message
  | tooManyArguments most received =>
    Text.ascii "accepts at most " ++ Numeral.decimal most ++ Text.ascii " arg(s), received " ++
      Numeral.decimal received
  | wrongArgumentCount wanted received =>
    Text.ascii "accepts " ++ Numeral.decimal wanted ++ Text.ascii " arg(s), received " ++
      Numeral.decimal received

namespace Flag

variable {ω : Type}

/-- How messages show a flag. -/
def shown (flag : Flag ω) : Text :=
  let long := Text.ascii "--" ++ flag.name
  match flag.letter with
  | none => long
  | some letter => [Text.minus, letter] ++ Text.ascii ", " ++ long

/-- Sets a flag. -/
def set (flag : Flag ω) (value : Text) (options : ω) : Except FlagError ω :=
  match flag.assign value options with
  | .ok options => .ok options
  | .error cause => .error (.badValue value flag.shown cause)

/-- A flag that holds a text. -/
def text (name : String) (letter : Option UInt8) (assign : Text → ω → ω) : Flag ω :=
  { name := Text.ascii name, letter, implied := none
    assign := fun value options => .ok (assign value options) }

/-- A flag that is on or off. -/
def toggle (name : String) (assign : Bool → ω → ω) : Flag ω :=
  { name := Text.ascii name, letter := none, implied := some (Text.ascii "true")
    assign := fun value options =>
      match Numeral.readBool value with
      | .ok b => .ok (assign b options)
      | .error fault => .error ⟨.truth, value, fault⟩ }

/-- A flag that holds a number with an optional mark of its base. -/
def integer (name : String) (assign : Int → ω → ω) : Flag ω :=
  { name := Text.ascii name, letter := none, implied := none
    assign := fun value options =>
      match Numeral.readMarkedInt 64 value with
      | .ok n => .ok (assign n options)
      | .error fault => .error ⟨.signed, value, fault⟩ }

/-- The flag for the verbosity of the log, a decimal number that is kept in 32 bits. -/
def verbosity (assign : Int → ω → ω) : Flag ω :=
  { name := Text.ascii "v", letter := some 0x76, implied := none
    assign := fun value options =>
      match Numeral.readInt 10 64 value with
      | .ok n => .ok (assign (n.bmod (Nat.pow 2 32)) options)
      | .error fault => .error ⟨.whole, value, fault⟩ }

/-- The name of a flag with dashes for underscores. -/
def canonical (name : Text) : Text :=
  name.map fun b => if b = Numeral.underscore then Text.minus else b

/-! ## Reading arguments -/

/-- What one argument amounts to. -/
inductive Effect (ω : Type) where
  /-- It is no flag. -/
  | argument
  /-- It ends the flags. -/
  | terminator
  /-- It sets flags. -/
  | options (options : ω)
  /-- It names a flag whose value is the next argument. -/
  | awaiting (flag : Flag ω) (options : ω) (missing : FlagError)

/-- Reads a flag that is named in full; `argument` is the whole argument. -/
def readLong (flags : List (Flag ω)) (argument : Text) (options : ω) :
    Except FlagError (Effect ω) :=
  let body := argument.drop 2
  match body with
  | [] => .error (.badForm argument)
  | b :: _ =>
    if b = Text.minus ∨ b = Text.equals then .error (.badForm argument)
    else
      let (name, rest) := body.span (· ≠ Text.equals)
      match flags.find? fun flag => flag.name == canonical name with
      | none => .error (.unknownName name)
      | some flag =>
        match rest, flag.implied with
        | _ :: value, _ => (flag.set value options).map .options
        | [], some value => (flag.set value options).map .options
        | [], none => .ok (.awaiting flag options (.valueMissing argument))

/-- How the flags of a test run begin after their dash. -/
def testRun : Text := Text.ascii "test."

/-- Reads flags that are named by their letters. -/
def readLetters (flags : List (Flag ω)) : Text → ω → Except FlagError (Effect ω)
  | [], options => .ok (.options options)
  | letter :: rest, options =>
    if testRun.isPrefixOf (letter :: rest) then .ok (.options options)
    else
      match flags.find? fun flag => flag.letter == some letter with
      | none => .error (.unknownLetter letter (letter :: rest))
      | some flag =>
        if 1 < rest.length ∧ rest.head? = some Text.equals then
          (flag.set rest.tail options).map .options
        else
          match flag.implied with
          | some value =>
            match flag.set value options with
            | .error e => .error e
            | .ok options => readLetters flags rest options
          | none =>
            if rest.isEmpty then
              .ok (.awaiting flag options (.letterValueMissing letter (letter :: rest)))
            else (flag.set rest options).map .options

/-- Reads one argument. -/
def readOne (flags : List (Flag ω)) (argument : Text) (options : ω) :
    Except FlagError (Effect ω) :=
  match argument with
  | 0x2D :: 0x2D :: [] => .ok .terminator
  | 0x2D :: 0x2D :: _ => readLong flags argument options
  | 0x2D :: b :: rest => readLetters flags (b :: rest) options
  | _ => .ok .argument

/-- Reads all arguments: the options that the flags leave, and the arguments that are no flags, of
which `found` come first. -/
def readAll (flags : List (Flag ω)) (found : List Text) : List Text → ω →
    Except FlagError (ω × List Text)
  | [], options => .ok (options, found)
  | argument :: rest, options =>
    match readOne flags argument options with
    | .error e => .error e
    | .ok .argument => readAll flags (found ++ [argument]) rest options
    | .ok .terminator => .ok (options, found ++ rest)
    | .ok (.options options) => readAll flags found rest options
    | .ok (.awaiting flag options missing) =>
      match rest with
      | [] => .error missing
      | value :: rest =>
        match flag.set value options with
        | .error e => .error e
        | .ok options => readAll flags found rest options

end Flag

end WordMachine.CommandLine
