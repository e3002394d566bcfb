import WordMachine.Assembly.Diagnostic
import WordMachine.Assembly.Image
import WordMachine.Instruction

/-!
# Machine states

The machine has four general registers, four index registers of which the first is never used to
index, a program counter, the instruction word last fetched, and one memory word for each of the
65536 addresses.
-/

namespace WordMachine

/-- One word for each address. -/
structure Memory where
  cells : Vector Word 65536

namespace Memory

/-- The memory that holds zero everywhere. -/
def clear : Memory := ⟨Vector.replicate 65536 0⟩

/-- The word at an address. -/
def read (memory : Memory) (address : Word) : Word :=
  memory.cells.get ⟨address.toNat, address.toNat_lt⟩

/-- The memory after a word has been stored at an address. -/
def write (memory : Memory) (address word : Word) : Memory :=
  ⟨memory.cells.set address.toNat word address.toNat_lt⟩

end Memory

/-- Four words, numbered from zero. -/
abbrev Bank := Vector Word 4

/-- The register of a bank that a field names; the field has two bits. -/
def Fields.slot (number : Nat) : Fin 4 := Fin.ofNat 4 number

/-- The state of the machine. -/
structure Machine where
  registers : Bank
  index : Bank
  /-- The address of the next instruction. -/
  counter : Word
  /-- The instruction word last fetched. -/
  instruction : Word
  halted : Bool
  memory : Memory

namespace Machine

/-- The state in which every word is zero. -/
def initial : Machine :=
  { registers := Vector.replicate 4 0
    index := Vector.replicate 4 0
    counter := 0
    instruction := 0
    halted := false
    memory := .clear }

/-- Sets every register and every memory word to zero, and lets the machine run. -/
def reset (m : Machine) : Machine :=
  { registers := m.registers.map fun _ => 0
    index := m.index.map fun _ => 0
    counter := 0
    instruction := 0
    halted := false
    memory := ⟨m.memory.cells.map fun _ => 0⟩ }

/-- Sets a general register. -/
def setRegister (m : Machine) (slot : Fin 4) (word : Word) : Machine :=
  { m with registers := m.registers.set slot word }

/-- Sets an index register. -/
def setIndex (m : Machine) (slot : Fin 4) (word : Word) : Machine :=
  { m with index := m.index.set slot word }

/-- Stores a word in memory. -/
def store (m : Machine) (address word : Word) : Machine :=
  { m with memory := m.memory.write address word }

/-! ## Loading -/

/-- An address that is not in memory. -/
structure LoadError where
  address : Int
  deriving DecidableEq, Repr

/-- The message for an address that is not in memory. -/
def LoadError.message (e : LoadError) : Text :=
  Text.ascii "address " ++ Numeral.padded 8 0 e.address ++ Text.ascii " outside memory"

/-- Stores words in order, up to the first whose address is not in memory. -/
def storeAll (m : Machine) : List (Int × Word) → Machine × Option LoadError
  | [] => (m, none)
  | (address, word) :: rest =>
    if address < 0 ∨ maxAddress < address then (m, some ⟨address⟩)
    else (m.store (Word.ofInt address) word).storeAll rest

/-- The lowest address of an image, or zero. -/
def entryPoint (image : Image) : Word :=
  match image.pairs with
  | [] => 0
  | (address, _) :: _ => Word.ofInt address

/-- Loads an image into a machine. Loading clears all that was there before; it stops at an address
that is not in memory, and the program counter is then left at zero. -/
def reload (m : Machine) (image : Image) : Machine × Option LoadError :=
  match m.reset.storeAll image.pairs with
  | (m, none) => ({ m with counter := entryPoint image }, none)
  | (m, some e) => (m, some e)

/-- A new machine that an image has been loaded into. -/
def load (image : Image) : Machine × Option LoadError := initial.reload image

end Machine

end WordMachine
