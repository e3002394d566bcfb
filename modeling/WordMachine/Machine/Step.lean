import WordMachine.Machine.State

/-!
# Execution

One step fetches the word at the program counter and carries out its operation. A run repeats steps
until the machine halts, a step fails, or a limit is reached.

## Implementation notes

A monitor is told of every access to memory and of the end of every step, and may change the
machine at those points: a reading is announced before the word is taken from memory, a writing
after it is there. Steps therefore act on the machine together with the state of its monitor. The
silent monitor does nothing.
-/

namespace WordMachine

/-- Why a step or a run fails. -/
inductive Fault where
  | halted
  | illegalOpcode (address word : Word)
  | stepLimit (limit : Int)
  deriving DecidableEq, Repr

/-- The message for a step or a run that fails. -/
def Fault.message : Fault → Text
  | halted => Text.ascii "Machine is halted"
  | illegalOpcode address word =>
    address.octal ++ Text.ascii ": Illegal opcode\n\thave:" ++
      Numeral.padded 8 2 (Fields.ofWord word).opcode ++ Text.ascii " (" ++ word.octal ++
      Text.ascii ")"
  | stepLimit limit =>
    Text.ascii "Step limit reached\n\twant:<halt>\n\thave:" ++ Numeral.decimal limit ++
      Text.ascii " steps"

/-- What looks on while the machine runs, with a state of type `σ`. -/
structure Monitor (σ : Type) where
  /-- Told of an address that is about to be read. -/
  reading : Word → Machine × σ → Machine × σ
  /-- Told of an address that has been written. -/
  written : Word → Machine × σ → Machine × σ
  /-- Told of the address and the word of an instruction that is about to be carried out. -/
  fetched : Word → Word → σ → σ
  /-- Told that a step has come to its end. -/
  stepped : Machine × σ → Machine × σ

/-- The monitor that leaves everything as it is. -/
def Monitor.silent (σ : Type) : Monitor σ :=
  { reading := fun _ s => s
    written := fun _ s => s
    fetched := fun _ _ host => host
    stepped := fun s => s }

namespace Machine

variable {σ : Type}

/-- Reads a word, after the monitor has been told. -/
def read (monitor : Monitor σ) (address : Word) (s : Machine × σ) : Word × (Machine × σ) :=
  let s := monitor.reading address s
  (s.1.memory.read address, s)

/-- Writes a word, and tells the monitor. -/
def write (monitor : Monitor σ) (address word : Word) (s : Machine × σ) : Machine × σ :=
  monitor.written address (s.1.store address word, s.2)

/-- The address field, with an index register added when the operation and the index field ask for
it. -/
def baseAddress (op : Operation) (f : Fields) (m : Machine) : Word :=
  let address := UInt16.ofNat f.address
  if op.targetsIndex || f.index == 0 then address
  else address + m.index.get (Fields.slot f.index)

/-- The address that an instruction refers to: its base address, or the word there if the
instruction is indirect. -/
def effectiveAddress (monitor : Monitor σ) (op : Operation) (f : Fields) (s : Machine × σ) :
    Word × (Machine × σ) :=
  let base := baseAddress op f s.1
  if f.indirect then read monitor base s else (base, s)

/-- Carries out an operation. -/
def execute (monitor : Monitor σ) (f : Fields) (op : Operation) (s : Machine × σ) :
    Machine × σ :=
  match op with
  | .hlt => ({ s.1 with halted := true }, s.2)
  | .ldr =>
    let (address, s) := effectiveAddress monitor op f s
    let (word, s) := read monitor address s
    (s.1.setRegister (Fields.slot f.register) word, s.2)
  | .str =>
    let (address, s) := effectiveAddress monitor op f s
    write monitor address (s.1.registers.get (Fields.slot f.register)) s
  | .lda =>
    let (address, s) := effectiveAddress monitor op f s
    (s.1.setRegister (Fields.slot f.register) address, s.2)
  | .jz =>
    if s.1.registers.get (Fields.slot f.register) = 0 then
      let (address, s) := effectiveAddress monitor op f s
      ({ s.1 with counter := address }, s.2)
    else s
  | .ldx =>
    let (address, s) := effectiveAddress monitor op f s
    if f.index = 0 then s
    else
      let (word, s) := read monitor address s
      (s.1.setIndex (Fields.slot f.index) word, s.2)
  | .stx =>
    let (address, s) := effectiveAddress monitor op f s
    write monitor address (s.1.index.get (Fields.slot f.index)) s

/-- Takes over a fetched word and moves the program counter past it. -/
def latch (m : Machine) (word : Word) : Machine :=
  { m with instruction := word, counter := m.counter + 1 }

/-- Executes one instruction. An opcode that names no operation halts the machine. -/
def stepWith (monitor : Monitor σ) (s : Machine × σ) : Option Fault × (Machine × σ) :=
  if s.1.halted then (some .halted, s)
  else
    let address := s.1.counter
    let (word, s) := read monitor address s
    let s := (s.1.latch word, monitor.fetched address word s.2)
    let f := Fields.ofWord word
    match Operation.ofOpcode? f.opcode with
    | none => (some (.illegalOpcode address word), ({ s.1 with halted := true }, s.2))
    | some op => (none, monitor.stepped (execute monitor f op s))

/-- How a number of steps ends. -/
inductive Ending where
  | halted
  | failed (fault : Fault)
  | running
  deriving DecidableEq, Repr

/-- Executes at most `budget` instructions. -/
def runSteps (monitor : Monitor σ) : Nat → Machine × σ → Ending × (Machine × σ)
  | budget, s =>
    if s.1.halted then (.halted, s)
    else
      match budget with
      | 0 => (.running, s)
      | budget + 1 =>
        match stepWith monitor s with
        | (some fault, s) => (.failed fault, s)
        | (none, s) => runSteps monitor budget s

/-- The steps after which a run without a limit is given up, as if it had reached one. A machine
would go on, but no clock counts that far. -/
def patience : Nat := Nat.pow 2 62

/-- The number of steps that a limit allows. A limit that is not positive is none. -/
def budget (limit : Int) : Nat := if 0 < limit then limit.toNat else patience

/-- Runs until the machine halts, a step fails or the limit is reached. -/
def runWith (monitor : Monitor σ) (limit : Int) (s : Machine × σ) :
    Option Fault × (Machine × σ) :=
  match runSteps monitor (budget limit) s with
  | (.halted, s) => (none, s)
  | (.failed fault, s) => (some fault, s)
  | (.running, s) => (some (.stepLimit limit), s)

/-! ## Unobserved execution -/

/-- Executes one instruction, with nobody looking on. -/
def step (m : Machine) : Option Fault × Machine :=
  let (fault, s) := stepWith (Monitor.silent Unit) (m, ())
  (fault, s.1)

/-- Runs with nobody looking on. -/
def run (limit : Int) (m : Machine) : Option Fault × Machine :=
  let (fault, s) := runWith (Monitor.silent Unit) limit (m, ())
  (fault, s.1)

end Machine

end WordMachine
