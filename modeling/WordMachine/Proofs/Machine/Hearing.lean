import WordMachine.Proofs.Machine.Observation

/-!
# What a monitor hears

A monitor may change the machine at a signal, and with it the signals that follow. What it hears in
a step depends on the monitor then, and is found along with the step. As for a monitor that leaves
the machine alone, the step leaves it in the state in which the signals, heard one after the other,
leave it.
-/

namespace WordMachine.Machine

variable {σ : Type} (monitor : Monitor σ)

/-- What a monitor hears of carrying out an operation. -/
def executeHeard (f : Fields) (op : Operation) (s : Machine × σ) : List (Machine × Signal) :=
  let (address, found) := effectiveAddress monitor op f s
  match op with
  | .hlt => []
  | .lda => addressSignals op f s.1
  | .ldr => addressSignals op f s.1 ++ [(found.1, .reading address)]
  | .str =>
    addressSignals op f s.1 ++
      [(found.1.store address (found.1.registers.get (Fields.slot f.register)), .written address)]
  | .stx =>
    addressSignals op f s.1 ++
      [(found.1.store address (found.1.index.get (Fields.slot f.index)), .written address)]
  | .jz => if s.1.registers.get (Fields.slot f.register) = 0 then addressSignals op f s.1 else []
  | .ldx =>
    if f.index = 0 then addressSignals op f s.1
    else addressSignals op f s.1 ++ [(found.1, .reading address)]

/-- What a monitor hears of one step. A step that fails has no end. -/
def stepHeard (s : Machine × σ) : List (Machine × Signal) :=
  if s.1.halted then []
  else
    let (word, read) := read monitor s.1.counter s
    let told := (read.1.latch word, monitor.fetched s.1.counter word read.2)
    let f := Fields.ofWord word
    (s.1, .reading s.1.counter) :: (told.1, .fetched s.1.counter word) ::
      match Operation.ofOpcode? f.opcode with
      | none => []
      | some op => executeHeard monitor f op told ++ [((execute monitor f op told).1, .stepped)]

theorem effectiveAddress_host (op : Operation) (f : Fields) (s : Machine × σ) :
    (effectiveAddress monitor op f s).2.2 =
      (addressSignals op f s.1).foldl monitor.hear s.2 := by
  cases hf : f.indirect with
  | false => simp [effectiveAddress, addressSignals, hf]
  | true => simp [effectiveAddress, addressSignals, hf, read, Monitor.hear]

theorem execute_host (f : Fields) (op : Operation) (s : Machine × σ) :
    (execute monitor f op s).2 = (executeHeard monitor f op s).foldl monitor.hear s.2 := by
  have hfound := effectiveAddress_host monitor op f s
  cases op with
  | hlt => rfl
  | lda => exact hfound
  | ldr =>
      rw [executeHeard, List.foldl_append, ← hfound]
      rfl
  | str =>
      rw [executeHeard, List.foldl_append, ← hfound]
      rfl
  | stx =>
      rw [executeHeard, List.foldl_append, ← hfound]
      rfl
  | jz =>
      by_cases hzero : s.1.registers.get (Fields.slot f.register) = 0
      · simpa only [execute, executeHeard, hzero, if_true] using hfound
      · simp only [execute, executeHeard, hzero, if_false, List.foldl_nil]
  | ldx =>
      by_cases hindex : f.index = 0
      · simpa only [execute, executeHeard, hindex, if_true] using hfound
      · simp only [execute, executeHeard, hindex, if_false, List.foldl_append, ← hfound]
        rfl

/-- A step leaves the monitor as what it has heard does. -/
theorem stepWith_host (s : Machine × σ) :
    (stepWith monitor s).2.2 = (stepHeard monitor s).foldl monitor.hear s.2 := by
  rcases hread : read monitor s.1.counter s with ⟨word, m, host⟩
  have hhost : monitor.hear s.2 (s.1, .reading s.1.counter) = host :=
    congrArg (fun result => result.2.2) hread
  cases hm : s.1.halted with
  | true => simp [stepWith, stepHeard, hm]
  | false =>
      let told := (m.latch word, monitor.fetched s.1.counter word host)
      cases hop : Operation.ofOpcode? (Fields.ofWord word).opcode with
      | none =>
          simp only [stepWith, stepHeard, hm, hread, hop, Bool.false_eq_true, if_false,
            List.foldl_cons, hhost]
          rfl
      | some op =>
          have hexecuted := execute_host monitor (Fields.ofWord word) op told
          simp only [stepWith, stepHeard, hm, hread, hop, Bool.false_eq_true, if_false,
            List.foldl_cons, List.foldl_append, hhost]
          exact congrArg (fun after => (monitor.stepped
            ((execute monitor (Fields.ofWord word) op told).1, after)).2) hexecuted

end WordMachine.Machine
