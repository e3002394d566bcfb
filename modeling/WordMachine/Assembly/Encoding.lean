import WordMachine.Assembly.Mnemonic
import WordMachine.Assembly.Operand

/-!
# Encoding instructions

An instruction is checked from left to right: the number of its operands, the register, the index
register, the address. The first check that fails rejects the whole instruction.

## Implementation notes

The encoder reads its operands by their places, and an operand that is read where there is none is
an outcome of its own. The check of the number comes first, so that this never happens, and
encoding leaves a word or a cause.
-/

namespace WordMachine

/-- What an attempt to encode comes to. -/
inductive Attempt (α : Type) where
  | done (value : α)
  | rejected (cause : Cause)
  /-- An operand was read at a place that has none. -/
  | outOfRange (place count : Nat)
  deriving DecidableEq, Repr

namespace Attempt

variable {α β : Type}

/-- Goes on with what an attempt has found. -/
def andThen (attempt : Attempt α) (next : α → Attempt β) : Attempt β :=
  match attempt with
  | done value => next value
  | rejected cause => rejected cause
  | outOfRange place count => outOfRange place count

instance : Monad Attempt where
  pure := done
  bind := andThen

/-- An attempt that reads no operand. -/
def ofExcept : Except Cause α → Attempt α
  | .ok value => done value
  | .error cause => rejected cause

/-- No operand is read where there is none. -/
def InRange (attempt : Attempt α) : Prop := ∀ place count, attempt ≠ outOfRange place count

/-- The value or the cause of an attempt that reads no operand where there is none. -/
def outcome : (attempt : Attempt α) → attempt.InRange → Except Cause α
  | done value, _ => .ok value
  | rejected cause, _ => .error cause
  | outOfRange place count, h => absurd rfl (h place count)

theorem inRange_done (value : α) : (done value).InRange := by
  intro place count h
  cases h

theorem inRange_ofExcept (result : Except Cause α) : (ofExcept result).InRange := by
  intro place count h
  cases result with
  | ok value => cases h
  | error cause => cases h

/-- What follows an attempt needs to stay in range only from what the attempt has found. -/
theorem InRange.andThen {attempt : Attempt α} (h : attempt.InRange) {next : α → Attempt β}
    (hnext : ∀ value, attempt = done value → (next value).InRange) :
    (attempt >>= next).InRange := by
  cases attempt with
  | done value => exact hnext value rfl
  | rejected cause =>
      intro place count hstray
      cases hstray
  | outOfRange place count => exact absurd rfl (h place count)

end Attempt

namespace Encoder

/-- Reads the operand at a place, counted from zero. -/
def operand (operands : List Text) (place : Nat) : Attempt Text :=
  match operands[place]? with
  | some token => .done token
  | none => .outOfRange place operands.length

/-- Checks the number of operands. -/
def arity (keyword : Text) (least most : Nat) (operands : List Text) : Attempt Unit :=
  if operands.length < least then .rejected (.missingOperand keyword least operands.length)
  else if most < operands.length then .rejected (.extraOperand keyword most operands.length)
  else .done ()

/-- The number of the register at a place. -/
def register (field : Field) (least : Nat) (operands : List Text) (place : Nat) :
    Attempt Nat := do
  let token ← operand operands place
  .ofExcept (Operand.register field least 3 token)

/-- The content of the address field for the operand at a place. -/
def address (labels : Labels) (operands : List Text) (place : Nat) : Attempt Nat := do
  let token ← operand operands place
  .ofExcept (Operand.address labels token)

/-- An instruction with a register, an index register and an address. One more operand makes it
indirect. -/
def full (labels : Labels) (op : Operation) (keyword : Text) (operands : List Text) :
    Attempt Word := do
  arity keyword 3 4 operands
  let r ← register .register 0 operands 0
  let x ← register .index 0 operands 1
  let a ← address labels operands 2
  .done (pack op.code (UInt16.ofNat r) (UInt16.ofNat x) (operands.length == 4) (UInt16.ofNat a))

/-- The index register and the address operand of a store. With two operands its index field is
clear, and the second one is its address. -/
def storeTarget (operands : List Text) : Attempt (Nat × Text) := do
  let second ← operand operands 1
  if 2 < operands.length then do
    let x ← register .index 0 operands 1
    let third ← operand operands 2
    .done (x, third)
  else .done (0, second)

/-- A store. -/
def store (labels : Labels) (keyword : Text) (operands : List Text) : Attempt Word := do
  arity keyword 2 4 operands
  let r ← register .register 0 operands 0
  let (x, target) ← storeTarget operands
  let a ← .ofExcept (Operand.address labels target)
  .done (pack Operation.str.code (UInt16.ofNat r) (UInt16.ofNat x) (operands.length == 4)
    (UInt16.ofNat a))

/-- An instruction with the index register that it loads or stores, and an address. One more operand
makes it indirect. -/
def indexing (labels : Labels) (op : Operation) (keyword : Text) (operands : List Text) :
    Attempt Word := do
  arity keyword 2 3 operands
  let x ← register .index 1 operands 0
  let a ← address labels operands 1
  .done (pack op.code 0 (UInt16.ofNat x) (operands.length == 3) (UInt16.ofNat a))

/-- A stop. -/
def stop (keyword : Text) (operands : List Text) : Attempt Word := do
  arity keyword 0 0 operands
  .done Operation.hlt.code

/-- The word of a keyword with its operands. -/
def run (labels : Labels) (keyword : Text) (operands : List Text) : Attempt Word :=
  match Operation.ofKeyword? keyword with
  | none => .rejected (.unknownMnemonic keyword)
  | some .ldr => full labels .ldr keyword operands
  | some .lda => full labels .lda keyword operands
  | some .jz => full labels .jz keyword operands
  | some .str => store labels keyword operands
  | some .ldx => indexing labels .ldx keyword operands
  | some .stx => indexing labels .stx keyword operands
  | some .hlt => stop keyword operands

/-! ## Places -/

section Places

variable {keyword : Text} {least most place : Nat} {operands : List Text}

theorem length_of_arity (h : arity keyword least most operands = .done ()) :
    least ≤ operands.length ∧ operands.length ≤ most := by
  unfold arity at h
  split at h
  · cases h
  · split at h
    · cases h
    · omega

theorem inRange_arity : (arity keyword least most operands).InRange := by
  intro place count h
  unfold arity at h
  split at h
  · cases h
  · split at h
    · cases h
    · cases h

theorem inRange_operand (h : place < operands.length) : (operand operands place).InRange := by
  intro place' count hstray
  rw [operand, List.getElem?_eq_getElem h] at hstray
  cases hstray

theorem inRange_register (h : place < operands.length) (field : Field) (least : Nat) :
    (register field least operands place).InRange :=
  (inRange_operand h).andThen fun _ _ => Attempt.inRange_ofExcept _

theorem inRange_address (h : place < operands.length) (labels : Labels) :
    (address labels operands place).InRange :=
  (inRange_operand h).andThen fun _ _ => Attempt.inRange_ofExcept _

theorem inRange_full (labels : Labels) (op : Operation) :
    (full labels op keyword operands).InRange := by
  refine inRange_arity.andThen fun _ harity => ?_
  have hlength := (length_of_arity harity).1
  refine (inRange_register (by omega) _ _).andThen fun _ _ => ?_
  refine (inRange_register (by omega) _ _).andThen fun _ _ => ?_
  exact (inRange_address (by omega) _).andThen fun _ _ => Attempt.inRange_done _

theorem inRange_storeTarget (h : 2 ≤ operands.length) : (storeTarget operands).InRange := by
  refine (inRange_operand (by omega)).andThen fun _ _ => ?_
  split
  · refine (inRange_register (by omega) _ _).andThen fun _ _ => ?_
    exact (inRange_operand (by omega)).andThen fun _ _ => Attempt.inRange_done _
  · exact Attempt.inRange_done _

theorem inRange_store (labels : Labels) : (store labels keyword operands).InRange := by
  refine inRange_arity.andThen fun _ harity => ?_
  have hlength := (length_of_arity harity).1
  refine (inRange_register (by omega) _ _).andThen fun _ _ => ?_
  refine (inRange_storeTarget hlength).andThen fun found _ => ?_
  exact (Attempt.inRange_ofExcept _).andThen fun _ _ => Attempt.inRange_done _

theorem inRange_indexing (labels : Labels) (op : Operation) :
    (indexing labels op keyword operands).InRange := by
  refine inRange_arity.andThen fun _ harity => ?_
  have hlength := (length_of_arity harity).1
  refine (inRange_register (by omega) _ _).andThen fun _ _ => ?_
  exact (inRange_address (by omega) _).andThen fun _ _ => Attempt.inRange_done _

/-- The encoder reads no operand where there is none. -/
theorem inRange_run (labels : Labels) (keyword : Text) (operands : List Text) :
    (run labels keyword operands).InRange := by
  unfold run
  split
  · exact Attempt.inRange_ofExcept (.error (.unknownMnemonic keyword))
  · exact inRange_full labels .ldr
  · exact inRange_full labels .lda
  · exact inRange_full labels .jz
  · exact inRange_store labels
  · exact inRange_indexing labels .ldx
  · exact inRange_indexing labels .stx
  · exact inRange_arity.andThen fun _ _ => Attempt.inRange_done _

end Places

end Encoder

/-- The word of a keyword with its operands, or the cause why there is none. -/
def encode (labels : Labels) (keyword : Text) (operands : List Text) : Except Cause Word :=
  (Encoder.run labels keyword operands).outcome (Encoder.inRange_run labels keyword operands)

end WordMachine
