import WordMachine.Proofs.Machine.Observation

/-!
# What one step touches

Memory words, general registers and index registers are the *cells* of a machine. An operation
writes one cell at most, which its fields and the state before it determine, and every other cell
stays as it is. This holds of each word that can stand in memory, also of those that no source line
is assembled to.
-/

namespace WordMachine

/-- A place that holds a word. -/
inductive Cell where
  | memory (address : Word)
  | register (slot : Fin 4)
  | index (slot : Fin 4)
  deriving DecidableEq, Repr

namespace Machine

/-- The word in a cell. -/
def cell (m : Machine) : Cell → Word
  | .memory address => m.memory.read address
  | .register slot => m.registers.get slot
  | .index slot => m.index.get slot

section Cells

variable (m : Machine) (c : Cell) (word : Word)

theorem cell_store_of_ne {address : Word} (h : c ≠ .memory address) :
    (m.store address word).cell c = m.cell c := by
  cases c with
  | memory other => exact Memory.read_write_of_ne m.memory word fun heq => h (heq ▸ rfl)
  | register slot => rfl
  | index slot => rfl

theorem get_set_of_ne (bank : Bank) {slot other : Fin 4} (h : other ≠ slot) :
    (bank.set slot.val word slot.isLt).get other = bank.get other := by
  have hne : slot.val ≠ other.val := fun heq => h (Fin.ext heq.symm)
  exact Vector.getElem_set_ne slot.isLt other.isLt hne

theorem cell_setRegister_of_ne {slot : Fin 4} (h : c ≠ .register slot) :
    (m.setRegister slot word).cell c = m.cell c := by
  cases c with
  | memory address => rfl
  | register other => exact get_set_of_ne word m.registers fun heq => h (heq ▸ rfl)
  | index other => rfl

theorem cell_setIndex_of_ne {slot : Fin 4} (h : c ≠ .index slot) :
    (m.setIndex slot word).cell c = m.cell c := by
  cases c with
  | memory address => rfl
  | register other => rfl
  | index other => exact get_set_of_ne word m.index fun heq => h (heq ▸ rfl)

end Cells

/-! ## One operation -/

section Operations

variable (f : Fields) (op : Operation) (m : Machine)

/-- What an operation does to a machine with nobody looking on. -/
def operate : Machine :=
  let address := operandAddress op f m
  match op with
  | .hlt => { m with halted := true }
  | .ldr => m.setRegister (Fields.slot f.register) (m.memory.read address)
  | .str => m.store address (m.registers.get (Fields.slot f.register))
  | .lda => m.setRegister (Fields.slot f.register) address
  | .jz =>
    if m.registers.get (Fields.slot f.register) = 0 then { m with counter := address } else m
  | .ldx => if f.index = 0 then m else m.setIndex (Fields.slot f.index) (m.memory.read address)
  | .stx => m.store address (m.index.get (Fields.slot f.index))

theorem execute_silent : execute (Monitor.silent Unit) f op (m, ()) = (operate f op m, ()) := by
  have hsilent : effectiveAddress (Monitor.silent Unit) op f (m, ()) =
      (operandAddress op f m, m, ()) := effectiveAddress_silent op f (m, ())
  cases op with
  | hlt => rfl
  | ldr => simp only [execute, operate, hsilent, read_silent]
  | str => simp only [execute, operate, hsilent, write_silent]
  | lda => simp only [execute, operate, hsilent]
  | jz =>
      simp only [execute, operate, hsilent]
      split <;> rfl
  | stx => simp only [execute, operate, hsilent, write_silent]
  | ldx =>
      simp only [execute, operate, hsilent, read_silent]
      split <;> rfl

/-- The cell that an operation writes, if there is one. -/
def target? : Option Cell :=
  match op with
  | .ldr => some (.register (Fields.slot f.register))
  | .lda => some (.register (Fields.slot f.register))
  | .str => some (.memory (operandAddress op f m))
  | .stx => some (.memory (operandAddress op f m))
  | .ldx => if f.index = 0 then none else some (.index (Fields.slot f.index))
  | .hlt => none
  | .jz => none

/-- Every cell but the one that an operation writes stays as it is. -/
theorem cell_operate {c : Cell} (h : target? f op m ≠ some c) :
    (operate f op m).cell c = m.cell c := by
  cases op with
  | hlt => cases c <;> rfl
  | ldr => exact cell_setRegister_of_ne m c _ fun heq => h (heq ▸ rfl)
  | str => exact cell_store_of_ne m c _ fun heq => h (heq ▸ rfl)
  | lda => exact cell_setRegister_of_ne m c _ fun heq => h (heq ▸ rfl)
  | jz =>
      simp only [operate]
      split
      · cases c <;> rfl
      · rfl
  | stx => exact cell_store_of_ne m c _ fun heq => h (heq ▸ rfl)
  | ldx =>
      simp only [operate, target?] at h ⊢
      split
      · rfl
      · next hindex =>
          rw [if_neg hindex] at h
          exact cell_setIndex_of_ne m c _ fun heq => h (heq ▸ rfl)

theorem instruction_operate : (operate f op m).instruction = m.instruction := by
  cases op with
  | jz => simp only [operate]; split <;> rfl
  | ldx => simp only [operate]; split <;> rfl
  | _ => rfl

/-- Only a jump that is taken moves the program counter. -/
theorem counter_operate :
    (operate f op m).counter =
      if op = .jz ∧ m.registers.get (Fields.slot f.register) = 0 then operandAddress .jz f m
      else m.counter := by
  cases op with
  | jz =>
      by_cases hzero : m.registers.get (Fields.slot f.register) = 0
      · simp only [operate, hzero, if_true, true_and]
      · simp only [operate, hzero, if_false, and_false]
  | ldx => simp only [operate]; split <;> rfl
  | _ => rfl

theorem halted_operate (hm : m.halted = false) : (operate f op m).halted = true ↔ op = .hlt := by
  cases op with
  | hlt => exact iff_of_true rfl rfl
  | jz => simp only [operate]; split <;> simp [hm]
  | ldx => simp only [operate]; split <;> simp [hm, setIndex]
  | _ => simp [operate, hm, setRegister, store]

end Operations

/-! ## One step -/

section Steps

variable (m : Machine)

/-- The fields of the word at the program counter. -/
def current : Fields := Fields.ofWord (m.memory.read m.counter)

/-- The operation at the program counter, if the word there names one. -/
def operation? : Option Operation := Operation.ofOpcode? m.current.opcode

/-- The jump at the program counter is taken. -/
def Jumps : Prop := m.operation? = some .jz ∧ m.registers.get (Fields.slot m.current.register) = 0

variable {m}

/-- A step carries out its operation once the instruction has been latched, which touches no
cell. -/
theorem step_eq_operate {op : Operation} (hm : m.halted = false) (hop : m.operation? = some op) :
    m.step = (none, operate m.current op (m.latch (m.memory.read m.counter))) := by
  rw [step_of_operation hm hop, execute_silent]
  rfl

theorem cell_latch (word : Word) (c : Cell) : (m.latch word).cell c = m.cell c := by
  cases c <;> rfl

/-- The cell that a step writes is the target of its operation. -/
theorem target_of_cell_ne {c : Cell} (hm : m.halted = false) (h : m.step.2.cell c ≠ m.cell c) :
    ∃ op, m.operation? = some op ∧ target? m.current op m = some c := by
  cases hop : m.operation? with
  | none =>
      rw [step_of_illegal hm hop] at h
      exact absurd (by cases c <;> rfl) h
  | some op =>
      refine ⟨op, rfl, Decidable.byContradiction fun htarget => h ?_⟩
      have hlatched : target? m.current op (m.latch (m.memory.read m.counter)) ≠ some c := htarget
      rw [step_eq_operate hm hop, cell_operate m.current op _ hlatched, cell_latch]

/-- A step leaves all cells but one as they are. -/
theorem exists_only_cell (hm : m.halted = false) :
    ∃ c, ∀ other, other ≠ c → m.step.2.cell other = m.cell other := by
  refine ⟨(m.operation?.bind fun op => target? m.current op m).getD (.memory 0), ?_⟩
  intro other hother
  refine Decidable.byContradiction fun hchanged => hother ?_
  obtain ⟨op, hop, htarget⟩ := target_of_cell_ne hm hchanged
  rw [hop, Option.bind_some, htarget, Option.getD_some]

theorem target?_eq_memory_iff {f : Fields} {op : Operation} {address : Word} :
    target? f op m = some (.memory address) ↔
      (op = .str ∨ op = .stx) ∧ operandAddress op f m = address := by
  cases op with
  | ldx => simp only [target?]; split <;> simp
  | _ => simp [target?]

theorem target?_eq_register_iff {f : Fields} {op : Operation} {slot : Fin 4} :
    target? f op m = some (.register slot) ↔
      (op = .ldr ∨ op = .lda) ∧ Fields.slot f.register = slot := by
  cases op with
  | ldx => simp only [target?]; split <;> simp
  | _ => simp [target?]

theorem target?_eq_index_iff {f : Fields} {op : Operation} {slot : Fin 4} :
    target? f op m = some (.index slot) ↔
      op = .ldx ∧ f.index ≠ 0 ∧ Fields.slot f.index = slot := by
  cases op with
  | ldx => by_cases hindex : f.index = 0 <;> simp [target?, hindex]
  | _ => simp [target?]

/-! ## The parts of a step -/

theorem instruction_step (hm : m.halted = false) :
    m.step.2.instruction = m.memory.read m.counter := by
  cases hop : m.operation? with
  | none =>
      rw [step_of_illegal hm hop]
      rfl
  | some op =>
      rw [step_eq_operate hm hop]
      exact instruction_operate m.current op _

theorem counter_step_of_not_jumps (hm : m.halted = false) (h : ¬ m.Jumps) :
    m.step.2.counter = m.counter + 1 := by
  cases hop : m.operation? with
  | none =>
      rw [step_of_illegal hm hop]
      rfl
  | some op =>
      rw [Jumps, hop, Option.some.injEq] at h
      rw [step_eq_operate hm hop, counter_operate]
      exact if_neg h

theorem counter_step_of_jumps (hm : m.halted = false) (h : m.Jumps) :
    m.step.2.counter = operandAddress .jz m.current m := by
  rw [step_eq_operate hm h.1, counter_operate]
  exact if_pos ⟨rfl, h.2⟩

theorem halted_step_iff (hm : m.halted = false) :
    m.step.2.halted = true ↔ m.operation? = some .hlt ∨ m.operation? = none := by
  cases hop : m.operation? with
  | none =>
      rw [step_of_illegal hm hop]
      exact iff_of_true rfl (.inr rfl)
  | some op =>
      have hhalted := halted_operate m.current op (m.latch (m.memory.read m.counter)) hm
      rw [step_eq_operate hm hop]
      exact hhalted.trans (by simp)

theorem memory_of_step_ne {address : Word} (hm : m.halted = false)
    (h : m.step.2.memory.read address ≠ m.memory.read address) :
    ∃ op, m.operation? = some op ∧ (op = .str ∨ op = .stx) ∧
      operandAddress op m.current m = address := by
  obtain ⟨op, hop, htarget⟩ := target_of_cell_ne (c := .memory address) hm h
  exact ⟨op, hop, target?_eq_memory_iff.mp htarget⟩

theorem register_of_step_ne {slot : Fin 4} (hm : m.halted = false)
    (h : m.step.2.registers.get slot ≠ m.registers.get slot) :
    (m.operation? = some .ldr ∨ m.operation? = some .lda) ∧
      Fields.slot m.current.register = slot := by
  obtain ⟨op, hop, htarget⟩ := target_of_cell_ne (c := .register slot) hm h
  obtain ⟨hload, hslot⟩ := target?_eq_register_iff.mp htarget
  rw [hop]
  exact ⟨hload.imp (congrArg some) (congrArg some), hslot⟩

theorem index_of_step_ne {slot : Fin 4} (hm : m.halted = false)
    (h : m.step.2.index.get slot ≠ m.index.get slot) :
    m.operation? = some .ldx ∧ m.current.index ≠ 0 ∧ Fields.slot m.current.index = slot := by
  obtain ⟨op, hop, htarget⟩ := target_of_cell_ne (c := .index slot) hm h
  obtain ⟨rfl, hfield⟩ := target?_eq_index_iff.mp htarget
  exact ⟨hop, hfield⟩

end Steps

/-- What a step may do to a machine: with the result `(fault, after)` it has touched one cell at
most, besides the program counter, the instruction word and the halt flag. -/
structure TouchesOneCell (m : Machine) (fault : Option Fault) (after : Machine) : Prop where
  /-- The instruction word is the one at the program counter. -/
  instruction : after.instruction = m.memory.read m.counter
  /-- All cells but one are as before. -/
  cells : ∃ c, ∀ other, other ≠ c → after.cell other = m.cell other
  /-- Memory changes for a store only, and only at the address that the instruction refers to. -/
  memory : ∀ address, after.memory.read address ≠ m.memory.read address →
    ∃ op, m.operation? = some op ∧ (op = .str ∨ op = .stx) ∧
      operandAddress op m.current m = address
  /-- A general register changes for a load only, and only the one that the instruction names. -/
  registers : ∀ slot, after.registers.get slot ≠ m.registers.get slot →
    (m.operation? = some .ldr ∨ m.operation? = some .lda) ∧ Fields.slot m.current.register = slot
  /-- An index register changes for the load of an index register other than the first. -/
  index : ∀ slot, after.index.get slot ≠ m.index.get slot →
    m.operation? = some .ldx ∧ m.current.index ≠ 0 ∧ Fields.slot m.current.index = slot
  /-- The program counter moves on by one, from the last address to the first, if no jump is
  taken. -/
  counter : ¬ m.Jumps → after.counter = m.counter + 1
  /-- A jump that is taken leads to the address that the instruction refers to. -/
  jump : m.Jumps → after.counter = operandAddress .jz m.current m
  /-- The machine halts at the halt operation and at a word that names none. -/
  halted : after.halted = true ↔ m.operation? = some .hlt ∨ m.operation? = none
  /-- A word that names no operation is a fault, and leaves all cells as they were. -/
  illegal : m.operation? = none →
    fault = some (.illegalOpcode m.counter (m.memory.read m.counter)) ∧
      after.memory = m.memory ∧ after.registers = m.registers ∧ after.index = m.index
  /-- Every other word is carried out without a fault. -/
  legal : m.operation? ≠ none → fault = none

end Machine

/-- One step touches one thing. A machine that is not halted, whatever its memory and its registers
hold, fetches the word at its program counter. Besides the program counter, the instruction word and
the halt flag, the step changes one cell at most, and only one that the operation of that word is
meant to change. -/
theorem step_touches_one_cell (m : Machine) (hm : m.halted = false) :
    m.TouchesOneCell m.step.1 m.step.2 where
  instruction := Machine.instruction_step hm
  cells := Machine.exists_only_cell hm
  memory _ := Machine.memory_of_step_ne hm
  registers _ := Machine.register_of_step_ne hm
  index _ := Machine.index_of_step_ne hm
  counter := Machine.counter_step_of_not_jumps hm
  jump := Machine.counter_step_of_jumps hm
  halted := Machine.halted_step_iff hm
  illegal hop := by
    rw [Machine.step_of_illegal hm hop]
    exact ⟨rfl, rfl, rfl, rfl⟩
  legal hop := by
    obtain ⟨op, hop⟩ := Option.ne_none_iff_exists'.mp hop
    rw [Machine.step_eq_operate hm hop]

/-- A machine at the last address, where the word stores a register over itself. -/
def selfOverwriting : Machine :=
  let prepared := (Machine.initial.setIndex (Fields.slot 1) 65530).setRegister (Fields.slot 0) 7
  { prepared.store 65535 2117 with counter := 65535 }

/-- The word is fetched before it is overwritten, no other address changes, and the program counter
moves on to the first address. -/
theorem selfOverwriting_step :
    selfOverwriting.halted = false ∧ selfOverwriting.step.2.instruction = 2117 ∧
      selfOverwriting.step.2.counter = 0 ∧
      ∀ address, selfOverwriting.step.2.memory.read address ≠ selfOverwriting.memory.read address →
        address = 65535 := by
  have hword : selfOverwriting.memory.read selfOverwriting.counter = 2117 :=
    Memory.read_write_self _ 65535 2117
  have hcurrent : selfOverwriting.current = Fields.ofWord 2117 := congrArg Fields.ofWord hword
  have hop : selfOverwriting.operation? = some .str := by
    rw [Machine.operation?, hcurrent]
    rfl
  have htouches := step_touches_one_cell selfOverwriting rfl
  refine ⟨rfl, htouches.instruction.trans hword, htouches.counter ?_, ?_⟩
  · rintro ⟨hjump, -⟩
    exact absurd (hop.symm.trans hjump) (by decide)
  · intro address hchanged
    obtain ⟨op, hfound, -, rfl⟩ := htouches.memory address hchanged
    obtain rfl : .str = op := Option.some.inj (hop.symm.trans hfound)
    rw [hcurrent]
    rfl

end WordMachine
