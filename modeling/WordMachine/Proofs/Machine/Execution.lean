import WordMachine.Machine.Step
import WordMachine.Proofs.Assembly.Encoding
import WordMachine.Proofs.Machine.Memory

/-!
# Executing an assembled instruction

What a machine does with a word that came from the assembler is said here in terms of the command
that its source denotes, never in terms of the fields of the word.
-/

namespace WordMachine

namespace Machine

variable {σ : Type}

@[simp] theorem read_silent (address : Word) (s : Machine × σ) :
    read (Monitor.silent σ) address s = (s.1.memory.read address, s) := rfl

@[simp] theorem write_silent (address word : Word) (s : Machine × σ) :
    write (Monitor.silent σ) address word s = (s.1.store address word, s.2) := rfl

@[simp] theorem effectiveAddress_silent (op : Operation) (f : Fields) (s : Machine × σ) :
    effectiveAddress (Monitor.silent σ) op f s =
      (if f.indirect then s.1.memory.read (baseAddress op f s.1) else baseAddress op f s.1, s) := by
  cases h : f.indirect with
  | false => simp [effectiveAddress, h]
  | true => simp [effectiveAddress, h]

theorem step_of_halted {m : Machine} (hm : m.halted = true) : m.step = (some .halted, m) := by
  simp only [step, stepWith, hm, if_true]

/-- A word that names no operation halts the machine. -/
theorem step_of_illegal {m : Machine} (hm : m.halted = false)
    (hop : Operation.ofOpcode? (Fields.ofWord (m.memory.read m.counter)).opcode = none) :
    m.step = (some (.illegalOpcode m.counter (m.memory.read m.counter)),
      { m.latch (m.memory.read m.counter) with halted := true }) := by
  simp only [step, stepWith, hm, read_silent, hop]
  rfl

/-- An unobserved machine that is not halted fetches the word at its program counter, moves past it
and carries out its operation. -/
theorem step_of_operation {m : Machine} {op : Operation} (hm : m.halted = false)
    (hop : Operation.ofOpcode? (Fields.ofWord (m.memory.read m.counter)).opcode = some op) :
    m.step = (none, (execute (Monitor.silent Unit)
      (Fields.ofWord (m.memory.read m.counter)) op (m.latch (m.memory.read m.counter), ())).1) := by
  simp only [step, stepWith, hm, read_silent, hop]
  rfl

end Machine

namespace Command

variable (c : Command) (m : Machine)

/-- The address of a command before indirection. Index register zero stands for none, and only an
operation that acts on a general register adds an index register. -/
def base : Word :=
  if c.index.val ≠ 0 ∧ c.operation ∈ [Operation.ldr, .str, .lda, .jz] then
    Word.ofInt (c.address % 32) + m.index.get c.index
  else Word.ofInt (c.address % 32)

/-- The address that a command refers to. -/
def effective : Word := if c.indirect then m.memory.read (c.base m) else c.base m

/-- The machine after a command with the word `w` has been carried out. -/
def perform (w : Word) : Machine :=
  let next : Machine := { m with instruction := w, counter := m.counter + 1 }
  match c.operation with
  | .ldr => { next with registers := m.registers.set c.register (m.memory.read (c.effective m)) }
  | .str =>
    { next with memory := m.memory.write (c.effective m) (m.registers.get c.register) }
  | .lda => { next with registers := m.registers.set c.register (c.effective m) }
  | .jz => if m.registers.get c.register = 0 then { next with counter := c.effective m } else next
  | .ldx => { next with index := m.index.set c.index (m.memory.read (c.effective m)) }
  | .stx => { next with memory := m.memory.write (c.effective m) (m.index.get c.index) }
  | .hlt => { next with halted := true }

variable {c}

theorem IsEncodable.ofNat_address (hc : c.IsEncodable) :
    UInt16.ofNat c.fields.address = Word.ofInt (c.address % 32) := by
  have hnonneg := hc.address_nonneg
  have hvalue : (c.address % 32 % 65536).toNat = c.fields.address := by
    simp only [fields, Fields.addressLimit]
    omega
  rw [Word.ofInt, hvalue]

/-- The index field modifies the address of just those operations that act on a general
register. -/
theorem IsEncodable.baseAddress_fields (hc : c.IsEncodable) (hop : c.operation ≠ .hlt) (w : Word) :
    Machine.baseAddress c.operation c.fields (m.latch w) = c.base m := by
  have hslot : Fields.slot c.fields.index = c.index := by simp [Fields.slot, fields]
  have hzero : c.fields.index = 0 ↔ c.index = 0 := Fin.val_eq_zero_iff
  simp only [Machine.baseAddress, base, hc.ofNat_address, hslot, Machine.latch]
  cases hoperation : c.operation with
  | hlt => exact absurd hoperation hop
  | ldr => by_cases h : c.index = 0 <;> simp [Operation.targetsIndex, hzero, h]
  | str => by_cases h : c.index = 0 <;> simp [Operation.targetsIndex, hzero, h]
  | lda => by_cases h : c.index = 0 <;> simp [Operation.targetsIndex, hzero, h]
  | jz => by_cases h : c.index = 0 <;> simp [Operation.targetsIndex, hzero, h]
  -- The index field names the register that is stored or loaded here, and nothing is added.
  | stx => simp [Operation.targetsIndex]
  | ldx => simp [Operation.targetsIndex]

theorem IsEncodable.effectiveAddress_fields (hc : c.IsEncodable) (hop : c.operation ≠ .hlt)
    (w : Word) :
    Machine.effectiveAddress (Monitor.silent Unit) c.operation c.fields (m.latch w, ()) =
      (c.effective m, (m.latch w, ())) := by
  rw [Machine.effectiveAddress_silent, hc.baseAddress_fields m hop w]
  rfl

/-- Carrying out the fields of a command does what the command says. -/
theorem IsEncodable.execute_fields (hc : c.IsEncodable) (w : Word) :
    Machine.execute (Monitor.silent Unit) c.fields c.operation (m.latch w, ()) =
      (c.perform m w, ()) := by
  have hregister : Fields.slot c.fields.register = c.register := by simp [Fields.slot, fields]
  have hindex : Fields.slot c.fields.index = c.index := by simp [Fields.slot, fields]
  have heffective := hc.effectiveAddress_fields m
  have htarget := hc.index_ne_zero
  unfold perform
  cases hop : c.operation with
  | hlt => rfl
  | ldr =>
      rw [hop] at heffective
      simp only [Machine.execute, heffective (by decide), Machine.read_silent, hregister]
      rfl
  | str =>
      rw [hop] at heffective
      simp only [Machine.execute, heffective (by decide), Machine.write_silent, hregister]
      rfl
  | lda =>
      rw [hop] at heffective
      simp only [Machine.execute, heffective (by decide), hregister]
      rfl
  | jz =>
      rw [hop] at heffective
      simp only [Machine.execute, heffective (by decide), hregister]
      by_cases hzero : m.registers.get c.register = 0
      · simp [Machine.latch, hzero]
      · simp [Machine.latch, hzero]
  | stx =>
      rw [hop] at heffective
      simp only [Machine.execute, heffective (by decide), Machine.write_silent, hindex]
      rfl
  | ldx =>
      rw [hop] at heffective htarget
      have hfield : c.fields.index ≠ 0 := fun h => htarget rfl (Fin.val_eq_zero_iff.mp h)
      simp only [Machine.execute, heffective (by decide), Machine.read_silent, hindex, hfield,
        if_false]
      rfl

end Command

/-- An assembled instruction does what its source says. A machine that is about to execute the word
of an instruction executes it without fault, and ends in the state that the command denoted by the
mnemonic and its operands asks for: nothing else changes. -/
theorem step_encoded (labels : Labels) (keyword : Text) (operands : List Text) (w : Word)
    (m : Machine) (hw : encode labels keyword operands = .ok w) (hm : m.halted = false)
    (hfetch : m.memory.read m.counter = w) :
    (∃ c, Denotes labels keyword operands c) ∧
      ∀ c, Denotes labels keyword operands c → m.step = (none, c.perform m w) := by
  refine ⟨exists_denotes_of_encode hw, ?_⟩
  intro c hc
  obtain ⟨hencodable, hword⟩ := hc.word_of_encode hw
  have hfields : Fields.ofWord (m.memory.read m.counter) = c.fields := by
    rw [hfetch, hword, c.ofWord_word]
  have hop : Operation.ofOpcode? (Fields.ofWord (m.memory.read m.counter)).opcode =
      some c.operation := by
    rw [hfields]
    exact Operation.ofOpcode?_opcode c.operation
  rw [Machine.step_of_operation hm hop, hfields, hfetch, hencodable.execute_fields]

/-- A machine that is about to load register one, indirectly, from the address of a label that does
not fit in its field, modified by index register two. -/
theorem step_encoded_indirect_load :
    (Machine.initial.store 0 1450).step =
      (none, Command.perform ⟨.ldr, 1, 2, 42, true⟩ (Machine.initial.store 0 1450) 1450) := by
  have hsays : Denotes ⟨[(Text.ascii "table", 42)]⟩ (Text.ascii "LDR")
      [Text.ascii "1", Text.ascii "2", Text.ascii "table", Text.ascii "I"]
      ⟨.ldr, 1, 2, 42, true⟩ :=
    @Denotes.full _ .ldr _ _ _ [Text.ascii "I"] 1 2 42 (by decide) (by decide) rfl rfl rfl
  have hfetch : (Machine.initial.store 0 1450).memory.read 0 = 1450 := by
    simp [Machine.store]
  exact (step_encoded _ _ _ 1450 (Machine.initial.store 0 1450) rfl rfl hfetch).2 _ hsays

end WordMachine
