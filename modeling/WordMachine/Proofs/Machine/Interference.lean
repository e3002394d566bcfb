import WordMachine.Proofs.Machine.Observation

/-!
# Words that a run does not read

The only way in which a word of memory can influence a run is that it is read: as an instruction, as
an indirect address or as an operand. So two machines that differ in one word stay together, except
in that word, until its address is read; and neither reads it if the other does not.
-/

namespace WordMachine.Machine

open Monitor

/-- Two machines differ at most in the word at one address. -/
structure AgreeExcept (a : Word) (m m' : Machine) : Prop where
  registers : m'.registers = m.registers
  index : m'.index = m.index
  counter : m'.counter = m.counter
  instruction : m'.instruction = m.instruction
  halted : m'.halted = m.halted
  memory : ∀ b, b ≠ a → m'.memory.read b = m.memory.read b

/-- Among these signals there is no reading of an address. -/
def Unread (a : Word) (signals : List (Machine × Signal)) : Prop :=
  Signal.reading a ∉ signals.map Prod.snd

theorem unread_append {a : Word} {first second : List (Machine × Signal)} :
    Unread a (first ++ second) ↔ Unread a first ∧ Unread a second := by
  simp only [Unread, List.map_append, List.mem_append, not_or]

theorem unread_reading {a b : Word} {m : Machine} : Unread a [(m, .reading b)] ↔ b ≠ a := by
  simp [Unread, eq_comm]

namespace AgreeExcept

variable {a : Word} {m m' : Machine} (h : AgreeExcept a m m')

include h

/-! ## Parts of an instruction -/

theorem latch (word : Word) : AgreeExcept a (m.latch word) (m'.latch word) :=
  { h with
    counter := congrArg (· + 1) h.counter
    instruction := rfl }

theorem setRegister (slot : Fin 4) (word : Word) :
    AgreeExcept a (m.setRegister slot word) (m'.setRegister slot word) :=
  { h with registers := congrArg (fun bank => bank.set slot word) h.registers }

theorem setIndex (slot : Fin 4) (word : Word) :
    AgreeExcept a (m.setIndex slot word) (m'.setIndex slot word) :=
  { h with index := congrArg (fun bank => bank.set slot word) h.index }

theorem store (address word : Word) :
    AgreeExcept a (m.store address word) (m'.store address word) := by
  refine { h with memory := ?_ }
  intro b hb
  by_cases hstored : b = address
  · simp only [Machine.store, hstored, Memory.read_write_self]
  · simp only [Machine.store, Memory.read_write_of_ne _ _ hstored, h.memory b hb]

theorem baseAddress_eq (op : Operation) (f : Fields) :
    baseAddress op f m' = baseAddress op f m := by
  simp only [baseAddress, h.index]

theorem addressSignals_eq (op : Operation) (f : Fields) :
    (addressSignals op f m').map Prod.snd = (addressSignals op f m).map Prod.snd := by
  unfold addressSignals
  rw [h.baseAddress_eq]
  split <;> rfl

theorem operandAddress_eq {op : Operation} {f : Fields}
    (hread : Unread a (addressSignals op f m)) :
    operandAddress op f m' = operandAddress op f m := by
  unfold operandAddress
  rw [h.baseAddress_eq]
  split
  · next hindirect =>
      apply h.memory
      rw [addressSignals, if_pos hindirect] at hread
      exact unread_reading.mp hread
  · rfl

/-! ## One instruction -/

/-- An operation that does not read the word in question does the same to both machines. -/
theorem execute {f : Fields} {op : Operation} (hread : Unread a (executeSignals f op m)) :
    AgreeExcept a (execute (silent Unit) f op (m, ())).1
        (Machine.execute (silent Unit) f op (m', ())).1 ∧
      (executeSignals f op m').map Prod.snd = (executeSignals f op m).map Prod.snd := by
  have hsilent (n : Machine) :
      effectiveAddress (silent Unit) op f (n, ()) = (operandAddress op f n, n, ()) :=
    effectiveAddress_silent op f (n, ())
  have hfound := h.addressSignals_eq op f
  cases op with
  | hlt => exact ⟨{ h with halted := rfl }, rfl⟩
  | lda =>
      have haddress := h.operandAddress_eq hread
      simp only [Machine.execute, executeSignals, hsilent, haddress]
      exact ⟨h.setRegister _ _, hfound⟩
  | ldr =>
      obtain ⟨hpointer, hoperand⟩ := unread_append.mp hread
      have haddress := h.operandAddress_eq hpointer
      have hword := h.memory _ (unread_reading.mp hoperand)
      simp only [Machine.execute, executeSignals, hsilent, haddress, read_silent, hword,
        List.map_append, hfound]
      exact ⟨h.setRegister _ _, rfl⟩
  | str =>
      have haddress := h.operandAddress_eq (unread_append.mp hread).1
      simp only [Machine.execute, executeSignals, hsilent, haddress, write_silent, h.registers,
        List.map_append, hfound]
      exact ⟨h.store _ _, rfl⟩
  | stx =>
      have haddress := h.operandAddress_eq (unread_append.mp hread).1
      simp only [Machine.execute, executeSignals, hsilent, haddress, write_silent, h.index,
        List.map_append, hfound]
      exact ⟨h.store _ _, rfl⟩
  | jz =>
      by_cases hzero : m.registers.get (Fields.slot f.register) = 0
      · rw [executeSignals, if_pos hzero] at hread
        have haddress := h.operandAddress_eq hread
        simp only [Machine.execute, executeSignals, h.registers, hzero, if_true, hsilent, haddress]
        exact ⟨{ h with registers := rfl, counter := rfl }, hfound⟩
      · simp only [Machine.execute, executeSignals, h.registers, hzero, if_false]
        exact ⟨h, trivial⟩
  | ldx =>
      by_cases hindex : f.index = 0
      · simp only [Machine.execute, executeSignals, hsilent, hindex, if_true]
        exact ⟨h, hfound⟩
      · rw [executeSignals, if_neg hindex] at hread
        obtain ⟨hpointer, hoperand⟩ := unread_append.mp hread
        have haddress := h.operandAddress_eq hpointer
        have hword := h.memory _ (unread_reading.mp hoperand)
        simp only [Machine.execute, executeSignals, hsilent, hindex, if_false, haddress,
          read_silent, hword, List.map_append, hfound]
        exact ⟨h.setIndex _ _, rfl⟩

end AgreeExcept

/-- What two machines have in common that take a step: the fault, the next state except for one
word, and the signals. -/
structure StepsWith (a : Word) (m m' : Machine) : Prop where
  fault : m'.step.1 = m.step.1
  next : AgreeExcept a m.step.2 m'.step.2
  signals : m'.stepSignals.map Prod.snd = m.stepSignals.map Prod.snd

/-- A step that does not read the word in question does the same to both machines. -/
theorem AgreeExcept.step {a : Word} {m m' : Machine} (h : AgreeExcept a m m')
    (hread : Unread a m.stepSignals) : StepsWith a m m' := by
  cases hm : m.halted with
  | true =>
      have hm' : m'.halted = true := h.halted.trans hm
      constructor
      · rw [step_of_halted hm, step_of_halted hm']
      · rw [step_of_halted hm, step_of_halted hm']
        exact h
      · rw [stepSignals_of_halted hm, stepSignals_of_halted hm']
  | false =>
      have hm' : m'.halted = false := h.halted.trans hm
      -- The instruction is fetched from an address that is not the one in question.
      have hfetch : m.counter ≠ a := by
        intro ha
        apply hread
        simp [stepSignals, hm, ha]
      have hword : m'.memory.read m'.counter = m.memory.read m.counter := by
        rw [h.counter, h.memory _ hfetch]
      have hlatch := h.latch (m.memory.read m.counter)
      cases hop : Operation.ofOpcode? (Fields.ofWord (m.memory.read m.counter)).opcode with
      | none =>
          have hop' := hop
          rw [← hword] at hop'
          constructor
          · rw [step_of_illegal hm hop, step_of_illegal hm' hop', hword, h.counter]
          · rw [step_of_illegal hm hop, step_of_illegal hm' hop', hword]
            exact { hlatch with halted := rfl }
          · rw [stepSignals_of_illegal hm hop, stepSignals_of_illegal hm' hop', hword, h.counter]
            rfl
      | some op =>
          have hop' := hop
          rw [← hword] at hop'
          have hsignals := stepSignals_of_operation hm hop
          rw [hsignals, unread_append, unread_append] at hread
          obtain ⟨hagree, hsame⟩ := hlatch.execute hread.2.1
          constructor
          · rw [step_of_operation hm hop, step_of_operation hm' hop']
          · rw [step_of_operation hm hop, step_of_operation hm' hop', hword]
            exact hagree
          · rw [hsignals, stepSignals_of_operation hm' hop', hword, h.counter, List.map_append,
              List.map_append, List.map_append, List.map_append, hsame]
            rfl

/-! ## Whole runs -/

/-- What two machines have in common that run with the same budget. -/
structure RunsWith (a : Word) (budget : Nat) (m m' : Machine) : Prop where
  ending : (runSteps (silent Unit) budget (m', ())).1 = (runSteps (silent Unit) budget (m, ())).1
  last : AgreeExcept a (runSteps (silent Unit) budget (m, ())).2.1
    (runSteps (silent Unit) budget (m', ())).2.1
  signals : (runSignals budget m').map Prod.snd = (runSignals budget m).map Prod.snd

theorem AgreeExcept.run_of_halted {a : Word} {m m' : Machine} (h : AgreeExcept a m m')
    (hm : m.halted = true) (budget : Nat) : RunsWith a budget m m' := by
  have hm' : m'.halted = true := h.halted.trans hm
  constructor
  · rw [runSteps_of_halted hm, runSteps_of_halted hm']
  · rw [runSteps_of_halted hm, runSteps_of_halted hm']
    exact h
  · rw [runSignals_of_halted hm, runSignals_of_halted hm']

/-- A run that does not read the word in question does the same to both machines. -/
theorem AgreeExcept.run {a : Word} {budget : Nat} {m m' : Machine} (h : AgreeExcept a m m')
    (hread : Unread a (runSignals budget m)) : RunsWith a budget m m' := by
  induction budget generalizing m m' with
  | zero =>
      cases hm : m.halted with
      | true => exact h.run_of_halted hm 0
      | false =>
          have hm' : m'.halted = false := h.halted.trans hm
          constructor
          · rw [runSteps_zero hm, runSteps_zero hm']
          · rw [runSteps_zero hm, runSteps_zero hm']
            exact h
          · rfl
  | succ budget ih =>
      rw [runSignals, unread_append] at hread
      have hstep := h.step hread.1
      cases hm : m.halted with
      | true => exact h.run_of_halted hm (budget + 1)
      | false =>
          have hm' : m'.halted = false := h.halted.trans hm
          cases hfault : m.step.1 with
          | some fault =>
              have hfault' : m'.step.1 = some fault := hstep.fault.trans hfault
              constructor
              · rw [runSteps_of_fault hm hfault, runSteps_of_fault hm' hfault']
              · rw [runSteps_of_fault hm hfault, runSteps_of_fault hm' hfault']
                exact hstep.next
              · simp [runSignals, hfault, hfault', hstep.signals]
          | none =>
              have hfault' : m'.step.1 = none := hstep.fault.trans hfault
              have hrest := ih hstep.next (by simpa [hfault] using hread.2)
              constructor
              · rw [runSteps_of_step hm hfault, runSteps_of_step hm' hfault', hrest.ending]
              · rw [runSteps_of_step hm hfault, runSteps_of_step hm' hfault']
                exact hrest.last
              · simp [runSignals, hfault, hfault', hstep.signals, hrest.signals]

/-- The two machines end a limited run with the same fault, or without one, and still differ at most
in the word in question. -/
theorem RunsWith.run_eq {a : Word} {limit : Int} {m m' : Machine}
    (h : RunsWith a (budget limit) m m') :
    (m'.run limit).1 = (m.run limit).1 ∧ AgreeExcept a (m.run limit).2 (m'.run limit).2 := by
  rw [run_eq_runSteps, run_eq_runSteps, h.ending]
  exact ⟨rfl, h.last⟩

end WordMachine.Machine
