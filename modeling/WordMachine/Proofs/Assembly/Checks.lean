import WordMachine.Proofs.Assembly.Encoding
import WordMachine.Proofs.Assembly.Resolution

/-!
# The checks of an instruction

An instruction is checked from left to right: the number of its operands, its register, its index
register and its address. Here each check is given by what it accepts and by what it rejects, in
terms of literals and labels. An instruction has a word exactly if it passes all checks, and
otherwise the first check that fails says why.

## Implementation notes

Which operand is the register, the index register or the address depends on the operation and, for
a store, on the number of operands. The places are therefore functions of both, and an operand that
an instruction does not have counts as zero.
-/

namespace WordMachine

/-! ## Places -/

namespace Operation

/-- The place of the register operand, counted from zero. -/
def registerPlace : Operation → Option Nat
  | hlt | ldx | stx => none
  | ldr | str | lda | jz => some 0

/-- The place of the index operand. A store with two operands has none. -/
def indexPlace (count : Nat) : Operation → Option Nat
  | hlt => none
  | ldx | stx => some 0
  | str => if count = 2 then none else some 1
  | ldr | lda | jz => some 1

/-- The place of the address operand. -/
def addressPlace (count : Nat) : Operation → Option Nat
  | hlt => none
  | ldx | stx => some 1
  | str => if count = 2 then some 1 else some 2
  | ldr | lda | jz => some 2

/-- The least index register that an operation can name. Only an operation that modifies its address
can do without one. -/
def leastIndex : Operation → Nat
  | ldx | stx => 1
  | hlt | ldr | str | lda | jz => 0

/-- Whether there is one more operand after the address. -/
def isIndirect (count : Nat) : Operation → Bool
  | hlt => false
  | ldx | stx => count == 3
  | ldr | str | lda | jz => count == 4

theorem keyword_injective {op other : Operation} (h : op.keyword = other.keyword) :
    op = other := by
  have hfound := ofKeyword?_keyword op
  rw [h, ofKeyword?_keyword] at hfound
  exact (Option.some.inj hfound).symm

theorem fewest_le_most (op : Operation) : op.fewest ≤ op.most := by
  cases op <;> decide

end Operation

/-- The operands of an instruction by what they are for. -/
structure Parts where
  register : Option Text
  index : Option Text
  address : Option Text
  indirect : Bool

/-- The parts of an operation with its operands, each taken from its place. -/
def Operation.parts (op : Operation) (operands : List Text) : Parts :=
  { register := op.registerPlace.bind fun i => operands[i]?
    index := (op.indexPlace operands.length).bind fun i => operands[i]?
    address := (op.addressPlace operands.length).bind fun i => operands[i]?
    indirect := op.isIndirect operands.length }

/-! ## What a check accepts and rejects -/

/-- An operand names a register from `least` to three. -/
inductive NamesRegister (least : Nat) : Option Text → Nat → Prop
  | absent : NamesRegister least none 0
  | present {token : Text} {n : Nat} (h : Numeral.DecimalLiteral token n) (hleast : least ≤ n)
      (hmost : n ≤ 3) : NamesRegister least (some token) n

/-- Why an operand names no register from `least` to three. -/
inductive MisnamesRegister (field : Field) (least : Nat) : Option Text → Cause → Prop
  /-- It is no decimal literal, or one of more than 32 bits. -/
  | unreadable {token : Text} (h : ∀ v, Numeral.DecimalLiteral token v → ¬ Numeral.FitsLiteral v) :
      MisnamesRegister field least (some token) (.unresolvedOperand token false)
  | outside {token : Text} {v : Int} (h : Numeral.DecimalLiteral token v)
      (hfits : Numeral.FitsLiteral v) (hrange : v < least ∨ 3 < v) :
      MisnamesRegister field least (some token) (.operandRange field least 3 v)

/-- An operand resolves to an address, which may lie beyond the field or the memory. -/
inductive NamesAddress (labels : Labels) : Option Text → Int → Prop
  | absent : NamesAddress labels none 0
  | present {token : Text} {address : Int} (h : Operand.resolve labels token = .ok address)
      (hnonneg : 0 ≤ address) : NamesAddress labels (some token) address

/-- Why an operand resolves to no address. -/
inductive MisnamesAddress (labels : Labels) : Option Text → Cause → Prop
  | unresolved {token : Text} {cause : Cause} (h : Operand.resolve labels token = .error cause) :
      MisnamesAddress labels (some token) cause
  | negative {token : Text} {address : Int} (h : Operand.resolve labels token = .ok address)
      (hneg : address < 0) :
      MisnamesAddress labels (some token) (.operandRange .address 0 31 address)

/-- The checks of an instruction. -/
inductive Check where
  | arity
  | register
  | index
  | address
  deriving DecidableEq, Repr

/-- The checks are made in this order. -/
def Check.rank : Check → Nat
  | arity => 0
  | register => 1
  | index => 2
  | address => 3

/-- A check of an operation with its operands fails, and why. -/
inductive Fails (labels : Labels) (op : Operation) (operands : List Text) : Check → Cause → Prop
  | missing (h : operands.length < op.fewest) :
      Fails labels op operands .arity (.missingOperand op.keyword op.fewest operands.length)
  | extra (h : op.most < operands.length) :
      Fails labels op operands .arity (.extraOperand op.keyword op.most operands.length)
  | register {cause : Cause}
      (h : MisnamesRegister .register 0 (op.parts operands).register cause) :
      Fails labels op operands .register cause
  | index {cause : Cause}
      (h : MisnamesRegister .index op.leastIndex (op.parts operands).index cause) :
      Fails labels op operands .index cause
  | address {cause : Cause}
      (h : MisnamesAddress labels (op.parts operands).address cause) :
      Fails labels op operands .address cause

/-- A check fails, and no check before it does. -/
def FailsFirst (labels : Labels) (op : Operation) (operands : List Text) (check : Check)
    (cause : Cause) : Prop :=
  Fails labels op operands check cause ∧
    ∀ earlier, earlier.rank < check.rank → ∀ other, ¬ Fails labels op operands earlier other

/-! ## The checks as they are made -/

/-- The number of the register that an operand names. -/
def checkRegister (field : Field) (least : Nat) : Option Text → Except Cause Nat
  | none => .ok 0
  | some token => Operand.register field least 3 token

/-- The address field of an operand. -/
def checkAddress (labels : Labels) : Option Text → Except Cause Nat
  | none => .ok 0
  | some token => Operand.address labels token

theorem checkRegister_eq_ok_iff {field : Field} {least : Nat} {operand : Option Text} {n : Nat} :
    checkRegister field least operand = .ok n ↔ NamesRegister least operand n := by
  cases operand with
  | none =>
      constructor
      · intro h
        cases h
        exact .absent
      · intro h
        cases h
        rfl
  | some token =>
      rw [checkRegister, Operand.register_eq_ok_iff (Int.natCast_nonneg least)]
      constructor
      · rintro ⟨v, hread, hleast, rfl⟩
        have hlt := v.isLt
        exact .present (Numeral.readDecimal_eq_ok_iff.mp hread).1 (by omega) (by omega)
      · intro h
        cases h with
        | present h hleast hmost =>
            have hfits : Numeral.FitsLiteral n := ⟨by omega, by omega⟩
            exact ⟨⟨n, by omega⟩, Numeral.readDecimal_eq_ok_iff.mpr ⟨h, hfits⟩,
              Int.ofNat_le.mpr hleast, rfl⟩

theorem checkRegister_eq_error_iff {field : Field} {least : Nat} {operand : Option Text}
    {cause : Cause} :
    checkRegister field least operand = .error cause ↔
      MisnamesRegister field least operand cause := by
  cases operand with
  | none =>
      constructor
      · intro h
        cases h
      · intro h
        cases h
  | some token =>
      simp only [checkRegister, Operand.register]
      constructor
      · intro h
        split at h
        · next hread =>
            cases h
            refine .unreadable fun v hliteral hfits => ?_
            rw [Numeral.readDecimal_eq_ok_iff.mpr ⟨hliteral, hfits⟩] at hread
            cases hread
        · next v hread =>
            obtain ⟨hliteral, hfits⟩ := Numeral.readDecimal_eq_ok_iff.mp hread
            split at h
            · next hrange =>
                cases h
                exact .outside hliteral hfits hrange
            · cases h
      · intro h
        cases h with
        | unreadable h =>
            cases hread : Numeral.readDecimal token with
            | error e => rfl
            | ok v =>
                obtain ⟨hliteral, hfits⟩ := Numeral.readDecimal_eq_ok_iff.mp hread
                exact absurd hfits (h v hliteral)
        | outside h hfits hrange =>
            simp only [Numeral.readDecimal_eq_ok_iff.mpr ⟨h, hfits⟩, if_pos hrange]

theorem checkAddress_eq_ok_iff {labels : Labels} {operand : Option Text} {n : Nat} :
    checkAddress labels operand = .ok n ↔
      ∃ address, NamesAddress labels operand address ∧ n = (address % 32).toNat := by
  cases operand with
  | none =>
      constructor
      · intro h
        cases h
        exact ⟨0, .absent, rfl⟩
      · rintro ⟨address, h, rfl⟩
        cases h
        rfl
  | some token =>
      rw [checkAddress, Operand.address_eq_ok_iff, Fields.addressLimit]
      constructor
      · rintro ⟨v, hresolve, hnonneg, rfl⟩
        exact ⟨v, .present hresolve hnonneg, by omega⟩
      · rintro ⟨address, h, rfl⟩
        cases h with
        | present hresolve hnonneg => exact ⟨address, hresolve, hnonneg, by omega⟩

theorem checkAddress_eq_error_iff {labels : Labels} {operand : Option Text} {cause : Cause} :
    checkAddress labels operand = .error cause ↔ MisnamesAddress labels operand cause := by
  cases operand with
  | none =>
      constructor
      · intro h
        cases h
      · intro h
        cases h
  | some token =>
      simp only [checkAddress, Operand.address]
      constructor
      · intro h
        split at h
        · next hresolve =>
            cases h
            exact .unresolved hresolve
        · next hresolve =>
            split at h
            · next hneg =>
                cases h
                exact .negative hresolve hneg
            · cases h
      · intro h
        cases h with
        | unresolved h => simp only [h]
        | negative h hneg =>
            simp only [h, if_pos hneg]
            rfl

/-- The word of an operation whose parts pass the checks, made one after the other. -/
def checkParts (labels : Labels) (op : Operation) (parts : Parts) : Except Cause Word := do
  let register ← checkRegister .register 0 parts.register
  let index ← checkRegister .index op.leastIndex parts.index
  let address ← checkAddress labels parts.address
  .ok (pack op.code (UInt16.ofNat register) (UInt16.ofNat index) parts.indirect
    (UInt16.ofNat address))

section Forms

variable {labels : Labels} {op : Operation} {operands : List Text} {r x target : Text}
  {extra : List Text}

theorem Shape.Form.takes (h : Shape.Form op operands) : op.Takes operands.length := by
  cases h with
  | full hop hextra =>
      simp only [List.mem_cons, List.not_mem_nil, or_false] at hop
      rcases hop with rfl | rfl | rfl | rfl <;>
        simp only [Operation.Takes, Operation.fewest, Operation.most, List.length_cons] <;> omega
  | unindexed => exact ⟨Nat.le_refl 2, by simp [Operation.most]⟩
  | indexing hop hextra =>
      simp only [List.mem_cons, List.not_mem_nil, or_false] at hop
      rcases hop with rfl | rfl <;>
        simp only [Operation.Takes, Operation.fewest, Operation.most, List.length_cons] <;> omega
  | stop => exact ⟨by decide, by decide⟩

theorem parts_full (hop : op ∈ [Operation.ldr, .str, .lda, .jz]) (hextra : extra.length ≤ 1) :
    op.parts (r :: x :: target :: extra) = ⟨some r, some x, some target, !extra.isEmpty⟩ ∧
      op.leastIndex = 0 := by
  match extra, hextra with
  | [], _ =>
      simp only [List.mem_cons, List.not_mem_nil, or_false] at hop
      rcases hop with rfl | rfl | rfl | rfl <;> exact ⟨rfl, rfl⟩
  | [e], _ =>
      simp only [List.mem_cons, List.not_mem_nil, or_false] at hop
      rcases hop with rfl | rfl | rfl | rfl <;> exact ⟨rfl, rfl⟩

theorem parts_indexing (hop : op ∈ [Operation.ldx, .stx]) (hextra : extra.length ≤ 1) :
    op.parts (x :: target :: extra) = ⟨none, some x, some target, !extra.isEmpty⟩ ∧
      op.leastIndex = 1 := by
  match extra, hextra with
  | [], _ =>
      simp only [List.mem_cons, List.not_mem_nil, or_false] at hop
      rcases hop with rfl | rfl <;> exact ⟨rfl, rfl⟩
  | [e], _ =>
      simp only [List.mem_cons, List.not_mem_nil, or_false] at hop
      rcases hop with rfl | rfl <;> exact ⟨rfl, rfl⟩

theorem full_toWord (hleast : op.leastIndex = 0) (indirect : Bool) :
    (Shape.full op r x target indirect >>= fun shape => shape.toWord labels) =
      checkParts labels op ⟨some r, some x, some target, indirect⟩ := by
  have hr : checkRegister .register 0 (some r) = Shape.general r := rfl
  have hx : checkRegister .index 0 (some x) = Shape.modifier x := rfl
  simp only [checkParts, Shape.full, hleast, hr, hx]
  cases Shape.general r with
  | error cause => rfl
  | ok register => cases Shape.modifier x <;> rfl

theorem unindexed_toWord (hleast : op.leastIndex = 0) :
    (Shape.unindexed op r target >>= fun shape => shape.toWord labels) =
      checkParts labels op ⟨some r, none, some target, false⟩ := by
  have hr : checkRegister .register 0 (some r) = Shape.general r := rfl
  simp only [checkParts, Shape.unindexed, hleast, hr]
  cases Shape.general r <;> rfl

theorem indexing_toWord (hleast : op.leastIndex = 1) (indirect : Bool) :
    (Shape.indexing op x target indirect >>= fun shape => shape.toWord labels) =
      checkParts labels op ⟨none, some x, some target, indirect⟩ := by
  have hx : checkRegister .index 1 (some x) = Shape.indexTarget x := rfl
  simp only [checkParts, Shape.indexing, hleast, hx]
  cases Shape.indexTarget x <;> rfl

/-- With the right number of operands, encoding an instruction is checking its parts. -/
theorem encode_of_takes (h : op.Takes operands.length) :
    encode labels op.keyword operands = checkParts labels op (op.parts operands) := by
  rw [encode_eq_shape, Shape.parse, Operation.ofKeyword?_keyword]
  rcases Shape.form_or_wrongCount op operands with hform | ⟨hwrong, -⟩
  · cases hform with
    | full hop hextra =>
        obtain ⟨hparts, hleast⟩ := parts_full hop hextra
        rw [hparts, ← full_toWord hleast, ← Shape.ofOperands_full hop hextra]
    | unindexed => exact unindexed_toWord rfl
    | indexing hop hextra =>
        obtain ⟨hparts, hleast⟩ := parts_indexing hop hextra
        rw [hparts, ← indexing_toWord hleast, ← Shape.ofOperands_indexing hop hextra]
    | stop => rfl
  · exact absurd h hwrong

end Forms

/-! ## The outcome -/

section Outcome

variable {labels : Labels} {op : Operation} {operands : List Text} {cause : Cause}

theorem exists_ok_iff {α : Type} {x : Except Cause α} :
    (∃ a, x = .ok a) ↔ ∀ cause, x ≠ .error cause := by
  cases x with
  | ok a => simp
  | error cause => simp

theorem takes_iff_not_fails (labels : Labels) :
    op.Takes operands.length ↔ ∀ cause, ¬ Fails labels op operands .arity cause := by
  constructor
  · rintro ⟨hfewest, hmost⟩ cause hfails
    cases hfails with
    | missing h => omega
    | extra h => omega
  · intro h
    constructor
    · exact Nat.le_of_not_lt fun hlt => h _ (.missing hlt)
    · exact Nat.le_of_not_lt fun hlt => h _ (.extra hlt)

theorem fails_register_iff :
    Fails labels op operands .register cause ↔
      checkRegister .register 0 (op.parts operands).register = .error cause := by
  rw [checkRegister_eq_error_iff]
  exact ⟨fun h => by cases h; assumption, .register⟩

theorem fails_index_iff :
    Fails labels op operands .index cause ↔
      checkRegister .index op.leastIndex (op.parts operands).index = .error cause := by
  rw [checkRegister_eq_error_iff]
  exact ⟨fun h => by cases h; assumption, .index⟩

theorem fails_address_iff :
    Fails labels op operands .address cause ↔
      checkAddress labels (op.parts operands).address = .error cause := by
  rw [checkAddress_eq_error_iff]
  exact ⟨fun h => by cases h; assumption, .address⟩

theorem NamesRegister.le_three {least n : Nat} {operand : Option Text}
    (h : NamesRegister least operand n) : n ≤ 3 := by
  cases h with
  | absent => decide
  | present _ _ hmost => exact hmost

/-- The parts of an operation have a word exactly if each of them passes its check. -/
theorem checkParts_eq_ok_iff {parts : Parts} {w : Word} :
    checkParts labels op parts = .ok w ↔
      ∃ register index address, NamesRegister 0 parts.register register ∧
        NamesRegister op.leastIndex parts.index index ∧
        NamesAddress labels parts.address address ∧
        pack op.code (UInt16.ofNat register) (UInt16.ofNat index) parts.indirect
          (UInt16.ofNat (address % 32).toNat) = w := by
  constructor
  · intro h
    obtain ⟨register, hregister, h⟩ := bind_eq_ok_iff.mp h
    obtain ⟨index, hindex, h⟩ := bind_eq_ok_iff.mp h
    obtain ⟨n, hn, h⟩ := bind_eq_ok_iff.mp h
    obtain ⟨address, haddress, rfl⟩ := checkAddress_eq_ok_iff.mp hn
    exact ⟨register, index, address, checkRegister_eq_ok_iff.mp hregister,
      checkRegister_eq_ok_iff.mp hindex, haddress, Except.ok.inj h⟩
  · rintro ⟨register, index, address, hregister, hindex, haddress, rfl⟩
    refine bind_eq_ok_iff.mpr ⟨register, checkRegister_eq_ok_iff.mpr hregister, ?_⟩
    refine bind_eq_ok_iff.mpr ⟨index, checkRegister_eq_ok_iff.mpr hindex, ?_⟩
    exact bind_eq_ok_iff.mpr ⟨_, checkAddress_eq_ok_iff.mpr ⟨address, haddress, rfl⟩, rfl⟩

/-- The word of registers and an address that passed their checks, as a number. -/
theorem toNat_pack_of_names {first second : Option Text} {least register index : Nat}
    {address : Int} (hregister : NamesRegister 0 first register)
    (hindex : NamesRegister least second index) (indirect : Bool) :
    (pack op.code (UInt16.ofNat register) (UInt16.ofNat index) indirect
        (UInt16.ofNat (address % 32).toNat)).toNat =
      op.opcode * 1024 + register * 256 + index * 64 + (if indirect then 1 else 0) * 32 +
        (address % 32).toNat := by
  have hfits : Fields.Fits ⟨op.opcode, register, index, indirect, (address % 32).toNat⟩ :=
    { opcode := op.opcode_lt
      register := Nat.lt_succ_of_le hregister.le_three
      index := Nat.lt_succ_of_le hindex.le_three
      address := by
        simp only [Fields.addressLimit]
        omega }
  rw [← op.ofNat_opcode]
  refine hfits.toNat_toWord.trans ?_
  cases indirect <;> simp

/-- A part is looked at only once those before it have passed. -/
theorem checkParts_eq_error_iff :
    checkParts labels op (op.parts operands) = .error cause ↔
      Fails labels op operands .register cause ∨
        (∀ other, ¬ Fails labels op operands .register other) ∧
          (Fails labels op operands .index cause ∨
            (∀ other, ¬ Fails labels op operands .index other) ∧
              Fails labels op operands .address cause) := by
  simp only [fails_register_iff, fails_index_iff, fails_address_iff, ← ne_eq, ← exists_ok_iff]
  simp only [checkParts, bind_eq_error_iff, reduceCtorEq, and_false, exists_const, or_false,
    exists_and_right]

/-- Parts fail with the cause of the first check that does not pass. -/
theorem checkParts_eq_error_iff_failsFirst (h : op.Takes operands.length) :
    checkParts labels op (op.parts operands) = .error cause ↔
      ∃ check, FailsFirst labels op operands check cause := by
  have harity := (takes_iff_not_fails labels).mp h
  rw [checkParts_eq_error_iff]
  constructor
  · rintro (hfails | ⟨hregister, hfails | ⟨hindex, hfails⟩⟩)
    · refine ⟨.register, hfails, fun earlier hrank => ?_⟩
      cases earlier with
      | arity => exact harity
      | register | index | address => exact absurd hrank (by decide)
    · refine ⟨.index, hfails, fun earlier hrank => ?_⟩
      cases earlier with
      | arity => exact harity
      | register => exact hregister
      | index | address => exact absurd hrank (by decide)
    · refine ⟨.address, hfails, fun earlier hrank => ?_⟩
      cases earlier with
      | arity => exact harity
      | register => exact hregister
      | index => exact hindex
      | address => exact absurd hrank (by decide)
  · rintro ⟨check, hfails, hearlier⟩
    cases check with
    | arity => exact absurd hfails (harity cause)
    | register => exact .inl hfails
    | index => exact .inr ⟨hearlier .register (by decide), .inl hfails⟩
    | address =>
        exact .inr ⟨hearlier .register (by decide), .inr ⟨hearlier .index (by decide), hfails⟩⟩

/-- With a wrong number of operands, the first check fails. -/
theorem encode_of_not_takes (h : ¬ op.Takes operands.length) :
    encode labels op.keyword operands =
      .error (Shape.wrongCount op.keyword op.fewest op.most operands) := by
  rw [encode_eq_shape, Shape.parse, Operation.ofKeyword?_keyword]
  rcases Shape.form_or_wrongCount op operands with hform | ⟨-, herror⟩
  · exact absurd hform.takes h
  · simp only [herror]
    rfl

theorem wrongCount_eq_iff_failsFirst (h : ¬ op.Takes operands.length) :
    Shape.wrongCount op.keyword op.fewest op.most operands = cause ↔
      ∃ check, FailsFirst labels op operands check cause := by
  have hfirst (earlier : Check) (hrank : earlier.rank < Check.arity.rank) (other : Cause) :
      ¬ Fails labels op operands earlier other := absurd hrank (Nat.not_lt_zero _)
  constructor
  · rintro rfl
    unfold Shape.wrongCount
    split
    · next hfew => exact ⟨.arity, .missing hfew, hfirst⟩
    · next hfew =>
        have hmany : op.most < operands.length := by
          unfold Operation.Takes at h
          omega
        exact ⟨.arity, .extra hmany, hfirst⟩
  · rintro ⟨check, hfails, hearlier⟩
    have hpasses (hrank : Check.arity.rank < check.rank) : False :=
      h ((takes_iff_not_fails labels).mpr (hearlier .arity hrank))
    cases hfails with
    | missing hfew => exact if_pos hfew
    | extra hmany =>
        have := op.fewest_le_most
        exact if_neg (by omega)
    | register _ | index _ | address _ => exact (hpasses (by decide)).elim

theorem encode_keyword_eq_error_iff :
    encode labels op.keyword operands = .error cause ↔
      ∃ check, FailsFirst labels op operands check cause := by
  by_cases h : op.Takes operands.length
  · rw [encode_of_takes h, checkParts_eq_error_iff_failsFirst h]
  · rw [encode_of_not_takes h, Except.error.injEq, wrongCount_eq_iff_failsFirst h]

theorem encode_keyword_eq_ok_iff {w : Word} :
    encode labels op.keyword operands = .ok w ↔
      op.Takes operands.length ∧
        ∃ register index address, NamesRegister 0 (op.parts operands).register register ∧
          NamesRegister op.leastIndex (op.parts operands).index index ∧
          NamesAddress labels (op.parts operands).address address ∧
          w.toNat = op.opcode * 1024 + register * 256 + index * 64 +
            (if (op.parts operands).indirect then 1 else 0) * 32 + (address % 32).toNat := by
  by_cases h : op.Takes operands.length
  · rw [encode_of_takes h, checkParts_eq_ok_iff]
    constructor
    · rintro ⟨register, index, address, hregister, hindex, haddress, rfl⟩
      exact ⟨h, register, index, address, hregister, hindex, haddress,
        toNat_pack_of_names hregister hindex _⟩
    · rintro ⟨-, register, index, address, hregister, hindex, haddress, hword⟩
      refine ⟨register, index, address, hregister, hindex, haddress, UInt16.toNat_inj.mp ?_⟩
      rw [toNat_pack_of_names hregister hindex, hword]
  · rw [encode_of_not_takes h]
    simp [h]

theorem encode_of_ne_keyword {keyword : Text} (h : ∀ op : Operation, keyword ≠ op.keyword) :
    encode labels keyword operands = .error (.unknownMnemonic keyword) := by
  cases hname : Operation.ofKeyword? keyword with
  | none =>
      simp only [encode_eq_shape, Shape.parse, hname]
      rfl
  | some op => exact absurd (Operation.eq_keyword_of_ofKeyword? hname) (h op)

end Outcome

/-- The encoder never reads an operand where there is none. It comes to a word exactly if the
keyword is that of an operation with this number of operands, its registers are decimal literals in
range and its address resolves to a number that is not negative. The word is then the sum of its
fields. Otherwise the keyword is unknown, or the first check that fails gives the cause. -/
theorem encode_succeeds_iff_checks_pass (labels : Labels) (keyword : Text)
    (operands : List Text) :
    (∀ place count, Encoder.run labels keyword operands ≠ .outOfRange place count) ∧
    (∀ w, Encoder.run labels keyword operands = .done w ↔
      ∃ op : Operation, keyword = op.keyword ∧ op.Takes operands.length ∧
        ∃ register index address, NamesRegister 0 (op.parts operands).register register ∧
          NamesRegister op.leastIndex (op.parts operands).index index ∧
          NamesAddress labels (op.parts operands).address address ∧
          w.toNat = op.opcode * 1024 + register * 256 + index * 64 +
            (if (op.parts operands).indirect then 1 else 0) * 32 + (address % 32).toNat) ∧
    (∀ cause, Encoder.run labels keyword operands = .rejected cause ↔
      (∀ op : Operation, keyword ≠ op.keyword) ∧ cause = .unknownMnemonic keyword ∨
        ∃ op check, keyword = op.keyword ∧ FailsFirst labels op operands check cause) := by
  refine ⟨Encoder.inRange_run labels keyword operands, ?_⟩
  simp only [Encoder.run_eq_done_iff, Encoder.run_eq_rejected_iff]
  by_cases hname : ∃ op : Operation, keyword = op.keyword
  · obtain ⟨op, rfl⟩ := hname
    constructor
    · intro w
      rw [encode_keyword_eq_ok_iff]
      constructor
      · exact fun h => ⟨op, rfl, h⟩
      · rintro ⟨other, hsame, h⟩
        obtain rfl := Operation.keyword_injective hsame
        exact h
    · intro cause
      rw [encode_keyword_eq_error_iff]
      constructor
      · rintro ⟨check, h⟩
        exact .inr ⟨op, check, rfl, h⟩
      · rintro (⟨hunknown, -⟩ | ⟨other, check, hsame, h⟩)
        · exact absurd rfl (hunknown op)
        · obtain rfl := Operation.keyword_injective hsame
          exact ⟨check, h⟩
  · have hunknown : ∀ op : Operation, keyword ≠ op.keyword := fun op h => hname ⟨op, h⟩
    rw [encode_of_ne_keyword hunknown]
    constructor
    · intro w
      constructor
      · intro h
        cases h
      · rintro ⟨op, hop, -⟩
        exact absurd hop (hunknown op)
    · intro cause
      constructor
      · intro h
        exact .inl ⟨hunknown, (Except.error.inj h).symm⟩
      · rintro (⟨-, rfl⟩ | ⟨op, check, hop, -⟩)
        · rfl
        · exact absurd hop (hunknown op)

end WordMachine
