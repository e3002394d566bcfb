import WordMachine.Assembly.Encoding
import WordMachine.Assembly.Shape
import WordMachine.Proofs.Instruction
import WordMachine.Proofs.LowBits

/-!
# What an instruction says

A *command* is an instruction as its source says it: the operation, the numbers of its registers and
the value of its address operand. `Denotes` relates a keyword and its operands to their command,
form by form, without any instruction word. An instruction that can be encoded denotes a command,
and its word has the fields of that command.
-/

namespace WordMachine

/-- An instruction with the values of its operands. -/
structure Command where
  operation : Operation
  register : Fin 4
  index : Fin 4
  address : Int
  indirect : Bool
  deriving DecidableEq, Repr

/-- A keyword with operands says what a command is. Register operands are decimal literals, and an
address operand is a literal or a label. An operand after the address, whatever it is, asks for
indirect addressing. -/
inductive Denotes (labels : Labels) : Text → List Text → Command → Prop
  | full {op : Operation} {r x target : Text} {extra : List Text} {register index : Fin 4}
      {address : Int} (hop : op ∈ [Operation.ldr, .str, .lda, .jz]) (hextra : extra.length ≤ 1)
      (hr : Numeral.readDecimal r = .ok (register : Nat))
      (hx : Numeral.readDecimal x = .ok (index : Nat))
      (htarget : Operand.resolve labels target = .ok address) :
      Denotes labels op.keyword (r :: x :: target :: extra)
        ⟨op, register, index, address, !extra.isEmpty⟩
  | unindexed {r target : Text} {register : Fin 4} {address : Int}
      (hr : Numeral.readDecimal r = .ok (register : Nat))
      (htarget : Operand.resolve labels target = .ok address) :
      Denotes labels Operation.str.keyword [r, target] ⟨.str, register, 0, address, false⟩
  | indexing {op : Operation} {x target : Text} {extra : List Text} {index : Fin 4}
      {address : Int} (hop : op ∈ [Operation.ldx, .stx]) (hextra : extra.length ≤ 1)
      (hx : Numeral.readDecimal x = .ok (index : Nat))
      (htarget : Operand.resolve labels target = .ok address) :
      Denotes labels op.keyword (x :: target :: extra)
        ⟨op, 0, index, address, !extra.isEmpty⟩
  | stop : Denotes labels Operation.hlt.keyword [] ⟨.hlt, 0, 0, 0, false⟩

namespace Operation

/-- The fewest operands that an operation is written with. -/
def fewest : Operation → Nat
  | hlt => 0
  | ldr | lda | jz => 3
  | str | ldx | stx => 2

/-- The most operands that an operation is written with. -/
def most : Operation → Nat
  | hlt => 0
  | ldr | str | lda | jz => 4
  | ldx | stx => 3

/-- An operation can be written with a number of operands. -/
def Takes (op : Operation) (count : Nat) : Prop := op.fewest ≤ count ∧ count ≤ op.most

end Operation

namespace Command

/-- The fields of a command. -/
def fields (c : Command) : Fields :=
  { opcode := c.operation.opcode
    register := c.register
    index := c.index
    indirect := c.indirect
    address := c.address.toNat % Fields.addressLimit }

/-- The word of a command. -/
def word (c : Command) : Word := c.fields.toWord

/-- The address is not negative, and an index register that is loaded or stored is not the one that
stands for none. -/
structure IsEncodable (c : Command) : Prop where
  address_nonneg : 0 ≤ c.address
  index_ne_zero : c.operation.targetsIndex → c.index ≠ 0

theorem fields_fits (c : Command) : c.fields.Fits :=
  { opcode := c.operation.opcode_lt
    register := c.register.isLt
    index := c.index.isLt
    address := Nat.mod_lt _ (by decide) }

theorem ofWord_word (c : Command) : Fields.ofWord c.word = c.fields := c.fields_fits.ofWord_toWord

end Command

/-! ## Operands -/

theorem Operand.register_eq_ok_iff {field : Field} {least : Int} (hleast : 0 ≤ least)
    {token : Text} {n : Nat} :
    register field least 3 token = .ok n ↔
      ∃ v : Fin 4, Numeral.readDecimal token = .ok (v : Nat) ∧ least ≤ (v : Nat) ∧ n = v := by
  unfold register
  cases h : Numeral.readDecimal token with
  | error cause => simp
  | ok value =>
      simp only [Except.ok.injEq]
      constructor
      · intro hn
        split at hn
        · cases hn
        · next hrange =>
            cases hn
            have hlt : value.toNat < 4 := by omega
            exact ⟨⟨value.toNat, hlt⟩, by simp; omega, by simp; omega, rfl⟩
      · rintro ⟨v, rfl, hv, rfl⟩
        have hlt := v.isLt
        rw [if_neg (by omega)]
        simp

/-- The address field keeps the remainder of an address. -/
theorem toNat_lowWord_addressBits {address : Int} (h : 0 ≤ address) :
    (lowWord address Fields.addressBits).toNat = address.toNat % Fields.addressLimit := by
  have hword := toInt_lowWord address (show Fields.addressBits ≤ 16 by decide)
  rw [lowBits, if_pos (by decide)] at hword
  change ((lowWord address Fields.addressBits).toNat : Int) = address % 32 at hword
  rw [Fields.addressLimit]
  omega

theorem Operand.address_eq_ok_iff {labels : Labels} {token : Text} {n : Nat} :
    address labels token = .ok n ↔
      ∃ v, resolve labels token = .ok v ∧ 0 ≤ v ∧ n = v.toNat % Fields.addressLimit := by
  unfold address
  cases h : resolve labels token with
  | error cause => simp
  | ok value =>
      simp only [Except.ok.injEq]
      constructor
      · intro hn
        split at hn
        · cases hn
        · next hrange =>
            cases hn
            exact ⟨value, rfl, by omega, toNat_lowWord_addressBits (by omega)⟩
      · rintro ⟨v, rfl, hv, rfl⟩
        rw [if_neg (by omega), toNat_lowWord_addressBits hv]

/-! ## Shapes -/

theorem bind_eq_ok_iff {α β : Type} {x : Except Cause α} {f : α → Except Cause β} {b : β} :
    (x >>= f) = .ok b ↔ ∃ a, x = .ok a ∧ f a = .ok b := by
  cases x with
  | error cause => simp [bind, Except.bind]
  | ok a => simp [bind, Except.bind]

theorem bind_eq_error_iff {α β : Type} {x : Except Cause α} {f : α → Except Cause β}
    {cause : Cause} :
    (x >>= f) = .error cause ↔ x = .error cause ∨ ∃ a, x = .ok a ∧ f a = .error cause := by
  cases x with
  | error found => simp [bind, Except.bind]
  | ok a => simp [bind, Except.bind]

namespace Shape

variable {op : Operation} {r x target : Text} {extra : List Text} {shape : Shape}

theorem ofOperands_full (hop : op ∈ [Operation.ldr, .str, .lda, .jz])
    (hextra : extra.length ≤ 1) :
    ofOperands op (r :: x :: target :: extra) = full op r x target (!extra.isEmpty) := by
  match extra, hextra with
  | [], _ =>
      simp only [List.mem_cons, List.not_mem_nil, or_false] at hop
      rcases hop with rfl | rfl | rfl | rfl <;> rfl
  | [e], _ =>
      simp only [List.mem_cons, List.not_mem_nil, or_false] at hop
      rcases hop with rfl | rfl | rfl | rfl <;> rfl

theorem ofOperands_indexing (hop : op ∈ [Operation.ldx, .stx]) (hextra : extra.length ≤ 1) :
    ofOperands op (x :: target :: extra) = indexing op x target (!extra.isEmpty) := by
  match extra, hextra with
  | [], _ =>
      simp only [List.mem_cons, List.not_mem_nil, or_false] at hop
      rcases hop with rfl | rfl <;> rfl
  | [e], _ =>
      simp only [List.mem_cons, List.not_mem_nil, or_false] at hop
      rcases hop with rfl | rfl <;> rfl

/-- The forms in which an operation can be written. -/
inductive Form : Operation → List Text → Prop
  | full {op : Operation} {r x target : Text} {extra : List Text}
      (hop : op ∈ [Operation.ldr, .str, .lda, .jz]) (hextra : extra.length ≤ 1) :
      Form op (r :: x :: target :: extra)
  | unindexed {r target : Text} : Form .str [r, target]
  | indexing {op : Operation} {x target : Text} {extra : List Text}
      (hop : op ∈ [Operation.ldx, .stx]) (hextra : extra.length ≤ 1) :
      Form op (x :: target :: extra)
  | stop : Form .hlt []

/-- An operation is written in one of its forms, or it has a wrong number of operands. -/
theorem form_or_wrongCount (op : Operation) (operands : List Text) :
    Form op operands ∨ ¬ op.Takes operands.length ∧
      ofOperands op operands = .error (wrongCount op.keyword op.fewest op.most operands) := by
  simp only [Operation.Takes]
  cases op with
  | hlt =>
      match operands with
      | [] => exact .inl .stop
      | _ :: _ => exact .inr ⟨by simp [Operation.most], rfl⟩
  | str =>
      match operands with
      | [_, _] => exact .inl .unindexed
      | [_, _, _] => exact .inl (.full (by decide) (by decide))
      | [_, _, _, _] => exact .inl (.full (by decide) (by simp))
      | [] | [_] => exact .inr ⟨by simp [Operation.fewest], rfl⟩
      | _ :: _ :: _ :: _ :: _ :: _ => exact .inr ⟨by simp [Operation.most], rfl⟩
  | ldr | lda | jz =>
      match operands with
      | [_, _, _] => exact .inl (.full (by decide) (by decide))
      | [_, _, _, _] => exact .inl (.full (by decide) (by simp))
      | [] | [_] | [_, _] => exact .inr ⟨by simp [Operation.fewest], rfl⟩
      | _ :: _ :: _ :: _ :: _ :: _ => exact .inr ⟨by simp [Operation.most], rfl⟩
  | ldx | stx =>
      match operands with
      | [_, _] => exact .inl (.indexing (by decide) (by decide))
      | [_, _, _] => exact .inl (.indexing (by decide) (by simp))
      | [] | [_] => exact .inr ⟨by simp [Operation.fewest], rfl⟩
      | _ :: _ :: _ :: _ :: _ => exact .inr ⟨by simp [Operation.most], rfl⟩

theorem form_of_ofOperands {operands : List Text} (h : ofOperands op operands = .ok shape) :
    Form op operands := by
  rcases form_or_wrongCount op operands with hform | ⟨-, herror⟩
  · exact hform
  · rw [herror] at h
    cases h

theorem full_eq_ok_iff {indirect : Bool} :
    full op r x target indirect = .ok shape ↔
      ∃ register index : Fin 4, Numeral.readDecimal r = .ok (register : Nat) ∧
        Numeral.readDecimal x = .ok (index : Nat) ∧
        shape = ⟨op, register, index, indirect, some target⟩ := by
  constructor
  · intro h
    obtain ⟨n, hn, h⟩ := bind_eq_ok_iff.mp h
    obtain ⟨k, hk, h⟩ := bind_eq_ok_iff.mp h
    obtain ⟨register, hregister, -, rfl⟩ := (Operand.register_eq_ok_iff (by decide)).mp hn
    obtain ⟨index, hindex, -, rfl⟩ := (Operand.register_eq_ok_iff (by decide)).mp hk
    cases h
    exact ⟨register, index, hregister, hindex, rfl⟩
  · rintro ⟨register, index, hregister, hindex, rfl⟩
    have hr : general r = .ok (register : Nat) :=
      (Operand.register_eq_ok_iff (by decide)).mpr ⟨register, hregister, by omega, rfl⟩
    have hx : modifier x = .ok (index : Nat) :=
      (Operand.register_eq_ok_iff (by decide)).mpr ⟨index, hindex, by omega, rfl⟩
    simp only [full, hr, hx]
    rfl

theorem unindexed_eq_ok_iff :
    unindexed op r target = .ok shape ↔
      ∃ register : Fin 4, Numeral.readDecimal r = .ok (register : Nat) ∧
        shape = ⟨op, register, 0, false, some target⟩ := by
  constructor
  · intro h
    obtain ⟨n, hn, h⟩ := bind_eq_ok_iff.mp h
    obtain ⟨register, hregister, -, rfl⟩ := (Operand.register_eq_ok_iff (by decide)).mp hn
    cases h
    exact ⟨register, hregister, rfl⟩
  · rintro ⟨register, hregister, rfl⟩
    have hr : general r = .ok (register : Nat) :=
      (Operand.register_eq_ok_iff (by decide)).mpr ⟨register, hregister, by omega, rfl⟩
    simp only [unindexed, hr]
    rfl

theorem indexing_eq_ok_iff {indirect : Bool} :
    indexing op x target indirect = .ok shape ↔
      ∃ index : Fin 4, Numeral.readDecimal x = .ok (index : Nat) ∧ index ≠ 0 ∧
        shape = ⟨op, 0, index, indirect, some target⟩ := by
  constructor
  · intro h
    obtain ⟨n, hn, h⟩ := bind_eq_ok_iff.mp h
    obtain ⟨index, hindex, hpos, rfl⟩ := (Operand.register_eq_ok_iff (by decide)).mp hn
    cases h
    refine ⟨index, hindex, ?_, rfl⟩
    rintro rfl
    exact absurd hpos (by decide)
  · rintro ⟨index, hindex, hpos, rfl⟩
    have hx : indexTarget x = .ok (index : Nat) := by
      refine (Operand.register_eq_ok_iff (by decide)).mpr ⟨index, hindex, ?_, rfl⟩
      have := Fin.val_ne_of_ne hpos
      simp only [Fin.val_zero] at this
      omega
    simp only [indexing, hx]
    rfl

theorem toWord_eq_ok_iff {labels : Labels} {register index : Nat} {indirect : Bool} {w : Word} :
    toWord labels ⟨op, register, index, indirect, some target⟩ = .ok w ↔
      ∃ address, Operand.resolve labels target = .ok address ∧ 0 ≤ address ∧
        w = Fields.toWord
          ⟨op.opcode, register, index, indirect, address.toNat % Fields.addressLimit⟩ := by
  constructor
  · intro h
    obtain ⟨n, hn, h⟩ := bind_eq_ok_iff.mp h
    obtain ⟨address, haddress, hnonneg, rfl⟩ := Operand.address_eq_ok_iff.mp hn
    cases h
    exact ⟨address, haddress, hnonneg, by rw [Fields.toWord, op.ofNat_opcode]⟩
  · rintro ⟨address, haddress, hnonneg, rfl⟩
    have htarget := Operand.address_eq_ok_iff.mpr ⟨address, haddress, hnonneg, rfl⟩
    simp only [toWord, htarget, Fields.toWord, op.ofNat_opcode]
    rfl

end Shape

/-! ## The encoder -/

namespace Attempt

variable {α β : Type}

theorem ofExcept_bind (result : Except Cause α) (next : α → Except Cause β) :
    ofExcept (result >>= next) = ofExcept result >>= fun value => ofExcept (next value) := by
  cases result <;> rfl

theorem ofExcept_eq_done_iff {result : Except Cause α} {value : α} :
    ofExcept result = done value ↔ result = .ok value := by
  cases result <;> simp [ofExcept]

theorem ofExcept_eq_rejected_iff {result : Except Cause α} {cause : Cause} :
    ofExcept result = rejected cause ↔ result = .error cause := by
  cases result <;> simp [ofExcept]

theorem bind_of_rejected {attempt : Attempt α} {cause : Cause} (h : attempt = rejected cause)
    (next : α → Attempt β) : attempt >>= next = rejected cause := by
  rw [h]
  rfl

theorem outcome_ofExcept (result : Except Cause α) (h : (ofExcept result).InRange) :
    (ofExcept result).outcome h = result := by
  cases result <;> rfl

end Attempt

namespace Encoder

variable {labels : Labels} {op : Operation} {keyword r x target : Text} {operands extra : List Text}
  {least most : Nat}

theorem arity_of_le (hleast : least ≤ operands.length) (hmost : operands.length ≤ most) :
    arity keyword least most operands = .done () := by
  rw [arity, if_neg (by omega), if_neg (by omega)]

theorem arity_of_wrong (h : ¬ (least ≤ operands.length ∧ operands.length ≤ most)) :
    arity keyword least most operands =
      .rejected (Shape.wrongCount keyword least most operands) := by
  unfold arity Shape.wrongCount
  split
  · rfl
  · rw [if_pos (by omega)]

/-- There is one operand more than those in front just if there is an extra one. -/
theorem length_append_beq (front : List Text) (hextra : extra.length ≤ 1) :
    ((front ++ extra).length == front.length + 1) = !extra.isEmpty := by
  match extra, hextra with
  | [], _ => simp
  | [_], _ => simp

theorem length_append_le (front : List Text) (hextra : extra.length ≤ 1) :
    (front ++ extra).length ≤ front.length + 1 := by
  rw [List.length_append]
  omega

/-- The address is resolved last, and then the word is packed. -/
theorem ofExcept_toWord (op : Operation) (register index : Nat) (indirect : Bool) :
    .ofExcept (Shape.toWord labels ⟨op, register, index, indirect, some target⟩) =
      Attempt.ofExcept (Operand.address labels target) >>= fun address =>
        .done (pack op.code (UInt16.ofNat register) (UInt16.ofNat index) indirect
          (UInt16.ofNat address)) :=
  Attempt.ofExcept_bind _ _

/-- The encoder reads the three operands of an instruction and looks whether there is a fourth. -/
theorem full_eq (hextra : extra.length ≤ 1) :
    full labels op keyword (r :: x :: target :: extra) =
      .ofExcept (Shape.full op r x target (!extra.isEmpty) >>= fun shape =>
        shape.toWord labels) := by
  have hr : register .register 0 (r :: x :: target :: extra) 0 = .ofExcept (Shape.general r) := rfl
  have hx : register .index 0 (r :: x :: target :: extra) 1 = .ofExcept (Shape.modifier x) := rfl
  have htarget : address labels (r :: x :: target :: extra) 2 =
      .ofExcept (Operand.address labels target) := rfl
  have hcount : (r :: x :: target :: extra).length ≤ 4 := length_append_le [r, x, target] hextra
  have hflag : ((r :: x :: target :: extra).length == 4) = !extra.isEmpty :=
    length_append_beq [r, x, target] hextra
  rw [full, arity_of_le (by simp) hcount, hr, hx, htarget, hflag, Shape.full]
  cases Shape.general r with
  | error cause => rfl
  | ok register =>
      cases Shape.modifier x with
      | error cause => rfl
      | ok index => exact (ofExcept_toWord op register index _).symm

/-- A store with three or four operands is read like the other instructions. -/
theorem store_eq_full (hextra : extra.length ≤ 1) :
    store labels keyword (r :: x :: target :: extra) =
      full labels .str keyword (r :: x :: target :: extra) := by
  have hx : register .index 0 (r :: x :: target :: extra) 1 = .ofExcept (Shape.modifier x) := rfl
  have htarget : storeTarget (r :: x :: target :: extra) =
      Attempt.ofExcept (Shape.modifier x) >>= fun index => .done (index, target) := by
    have hlong : 2 < (r :: x :: target :: extra).length := by simp
    simp only [storeTarget, if_pos hlong]
    rfl
  have hcount : (r :: x :: target :: extra).length ≤ 4 := length_append_le [r, x, target] hextra
  rw [store, full, arity_of_le (by simp) hcount, arity_of_le (by simp) hcount, htarget, hx]
  cases Shape.modifier x with
  | error cause => rfl
  | ok index => rfl

theorem store_eq_unindexed :
    store labels keyword [r, target] =
      .ofExcept (Shape.unindexed .str r target >>= fun shape => shape.toWord labels) := by
  have hr : register .register 0 [r, target] 0 = .ofExcept (Shape.general r) := rfl
  rw [store, arity_of_le (by simp) (by simp), hr, Shape.unindexed]
  cases Shape.general r with
  | error cause => rfl
  | ok register => exact (ofExcept_toWord .str register 0 false).symm

theorem indexing_eq (hextra : extra.length ≤ 1) :
    indexing labels op keyword (x :: target :: extra) =
      .ofExcept (Shape.indexing op x target (!extra.isEmpty) >>= fun shape =>
        shape.toWord labels) := by
  have hx : register .index 1 (x :: target :: extra) 0 = .ofExcept (Shape.indexTarget x) := rfl
  have htarget : address labels (x :: target :: extra) 1 =
      .ofExcept (Operand.address labels target) := rfl
  have hcount : (x :: target :: extra).length ≤ 3 := length_append_le [x, target] hextra
  have hflag : ((x :: target :: extra).length == 3) = !extra.isEmpty :=
    length_append_beq [x, target] hextra
  rw [indexing, arity_of_le (by simp) hcount, hx, htarget, hflag, Shape.indexing]
  cases Shape.indexTarget x with
  | error cause => rfl
  | ok index => exact (ofExcept_toWord op 0 index _).symm

/-- With a wrong number of operands nothing else is looked at. -/
theorem run_of_not_takes (h : ¬ op.Takes operands.length) :
    run labels op.keyword operands =
      .rejected (Shape.wrongCount op.keyword op.fewest op.most operands) := by
  have harity : arity op.keyword op.fewest op.most operands =
      .rejected (Shape.wrongCount op.keyword op.fewest op.most operands) := arity_of_wrong h
  rw [run, Operation.ofKeyword?_keyword]
  cases op <;> exact Attempt.bind_of_rejected harity _

/-- Reading the operands by their places comes to what matching on their list comes to. -/
theorem run_eq_ofExcept (labels : Labels) (keyword : Text) (operands : List Text) :
    run labels keyword operands =
      .ofExcept (Shape.parse keyword operands >>= fun shape => shape.toWord labels) := by
  cases hname : Operation.ofKeyword? keyword with
  | none =>
      rw [run, Shape.parse, hname]
      rfl
  | some op =>
      obtain rfl := Operation.eq_keyword_of_ofKeyword? hname
      rw [Shape.parse, hname]
      rcases Shape.form_or_wrongCount op operands with hform | ⟨htakes, hshape⟩
      · rw [run, hname]
        cases hform with
        | full hop hextra =>
            simp only [Shape.ofOperands_full hop hextra]
            simp only [List.mem_cons, List.not_mem_nil, or_false] at hop
            rcases hop with rfl | rfl | rfl | rfl
            · exact full_eq hextra
            · exact (store_eq_full hextra).trans (full_eq hextra)
            · exact full_eq hextra
            · exact full_eq hextra
        | unindexed => exact store_eq_unindexed
        | indexing hop hextra =>
            simp only [Shape.ofOperands_indexing hop hextra]
            simp only [List.mem_cons, List.not_mem_nil, or_false] at hop
            rcases hop with rfl | rfl
            · exact indexing_eq hextra
            · exact indexing_eq hextra
        | stop => rfl
      · rw [run_of_not_takes htakes]
        simp only [hshape]
        rfl

end Encoder

/-- Encoding an instruction is finding its shape and then the word of the shape. -/
theorem encode_eq_shape (labels : Labels) (keyword : Text) (operands : List Text) :
    encode labels keyword operands =
      Shape.parse keyword operands >>= fun shape => shape.toWord labels := by
  unfold encode
  simp only [Encoder.run_eq_ofExcept, Attempt.outcome_ofExcept]

theorem Encoder.run_eq_done_iff {labels : Labels} {keyword : Text} {operands : List Text}
    {w : Word} :
    run labels keyword operands = .done w ↔ encode labels keyword operands = .ok w := by
  rw [run_eq_ofExcept, encode_eq_shape, Attempt.ofExcept_eq_done_iff]

theorem Encoder.run_eq_rejected_iff {labels : Labels} {keyword : Text} {operands : List Text}
    {cause : Cause} :
    run labels keyword operands = .rejected cause ↔
      encode labels keyword operands = .error cause := by
  rw [run_eq_ofExcept, encode_eq_shape, Attempt.ofExcept_eq_rejected_iff]

theorem encode_keyword {labels : Labels} {op : Operation} {operands : List Text} {w : Word} :
    encode labels op.keyword operands = .ok w ↔
      ∃ shape, Shape.ofOperands op operands = .ok shape ∧ shape.toWord labels = .ok w := by
  rw [encode_eq_shape, Shape.parse, Operation.ofKeyword?_keyword]
  exact bind_eq_ok_iff

/-- What can be encoded says something. -/
theorem exists_denotes_of_encode {labels : Labels} {keyword : Text} {operands : List Text}
    {w : Word} (h : encode labels keyword operands = .ok w) :
    ∃ c, Denotes labels keyword operands c := by
  cases hname : Operation.ofKeyword? keyword with
  | none =>
      rw [encode_eq_shape, Shape.parse, hname] at h
      cases h
  | some op =>
      obtain rfl := Operation.eq_keyword_of_ofKeyword? hname
      obtain ⟨shape, hshape, hword⟩ := encode_keyword.mp h
      cases Shape.form_of_ofOperands hshape with
      | full hop hextra =>
          rw [Shape.ofOperands_full hop hextra] at hshape
          obtain ⟨register, index, hr, hx, rfl⟩ := Shape.full_eq_ok_iff.mp hshape
          obtain ⟨address, htarget, -, -⟩ := Shape.toWord_eq_ok_iff.mp hword
          exact ⟨_, .full hop hextra hr hx htarget⟩
      | unindexed =>
          obtain ⟨register, hr, rfl⟩ := Shape.unindexed_eq_ok_iff.mp hshape
          obtain ⟨address, htarget, -, -⟩ := Shape.toWord_eq_ok_iff.mp hword
          exact ⟨_, .unindexed hr htarget⟩
      | indexing hop hextra =>
          rw [Shape.ofOperands_indexing hop hextra] at hshape
          obtain ⟨index, hx, -, rfl⟩ := Shape.indexing_eq_ok_iff.mp hshape
          obtain ⟨address, htarget, -, -⟩ := Shape.toWord_eq_ok_iff.mp hword
          exact ⟨_, .indexing hop hextra hx htarget⟩
      | stop => exact ⟨_, .stop⟩

namespace Denotes

variable {labels : Labels} {keyword : Text} {operands : List Text} {c : Command}

private theorem number_unique {token : Text} {m n : Fin 4}
    (hm : Numeral.readDecimal token = .ok (m : Nat))
    (hn : Numeral.readDecimal token = .ok (n : Nat)) : m = n := by
  have h := Except.ok.inj (hm.symm.trans hn)
  exact Fin.ext (by omega)

/-- The word of an instruction is the word of any command that it denotes. -/
theorem word_of_encode (h : Denotes labels keyword operands c) {w : Word}
    (hw : encode labels keyword operands = .ok w) : c.IsEncodable ∧ w = c.word := by
  cases h with
  | full hop hextra hr hx htarget =>
      obtain ⟨shape, hshape, hword⟩ := encode_keyword.mp hw
      rw [Shape.ofOperands_full hop hextra] at hshape
      obtain ⟨register, index, hr', hx', rfl⟩ := Shape.full_eq_ok_iff.mp hshape
      obtain ⟨address, htarget', hnonneg, rfl⟩ := Shape.toWord_eq_ok_iff.mp hword
      obtain rfl := number_unique hr hr'
      obtain rfl := number_unique hx hx'
      obtain rfl := Except.ok.inj (htarget.symm.trans htarget')
      refine ⟨⟨hnonneg, ?_⟩, rfl⟩
      simp only [List.mem_cons, List.not_mem_nil, or_false] at hop
      rcases hop with rfl | rfl | rfl | rfl <;> simp [Operation.targetsIndex]
  | unindexed hr htarget =>
      obtain ⟨shape, hshape, hword⟩ := encode_keyword.mp hw
      obtain ⟨register, hr', rfl⟩ := Shape.unindexed_eq_ok_iff.mp hshape
      obtain ⟨address, htarget', hnonneg, rfl⟩ := Shape.toWord_eq_ok_iff.mp hword
      obtain rfl := number_unique hr hr'
      obtain rfl := Except.ok.inj (htarget.symm.trans htarget')
      exact ⟨⟨hnonneg, by simp [Operation.targetsIndex]⟩, rfl⟩
  | indexing hop hextra hx htarget =>
      obtain ⟨shape, hshape, hword⟩ := encode_keyword.mp hw
      rw [Shape.ofOperands_indexing hop hextra] at hshape
      obtain ⟨index, hx', hindex, rfl⟩ := Shape.indexing_eq_ok_iff.mp hshape
      obtain ⟨address, htarget', hnonneg, rfl⟩ := Shape.toWord_eq_ok_iff.mp hword
      obtain rfl := number_unique hx hx'
      obtain rfl := Except.ok.inj (htarget.symm.trans htarget')
      exact ⟨⟨hnonneg, fun _ => hindex⟩, rfl⟩
  | stop =>
      obtain ⟨shape, hshape, hword⟩ := encode_keyword.mp hw
      cases hshape
      cases hword
      exact ⟨⟨Int.le_refl 0, by simp [Operation.targetsIndex]⟩, rfl⟩

/-- An instruction that denotes an encodable command is encoded as the word of that command. -/
theorem encode_eq (h : Denotes labels keyword operands c) (hc : c.IsEncodable) :
    encode labels keyword operands = .ok c.word := by
  cases h with
  | full hop hextra hr hx htarget =>
      refine encode_keyword.mpr
        ⟨_, ?_, Shape.toWord_eq_ok_iff.mpr ⟨_, htarget, hc.address_nonneg, rfl⟩⟩
      rw [Shape.ofOperands_full hop hextra]
      exact Shape.full_eq_ok_iff.mpr ⟨_, _, hr, hx, rfl⟩
  | unindexed hr htarget =>
      refine encode_keyword.mpr
        ⟨_, ?_, Shape.toWord_eq_ok_iff.mpr ⟨_, htarget, hc.address_nonneg, rfl⟩⟩
      exact Shape.unindexed_eq_ok_iff.mpr ⟨_, hr, rfl⟩
  | @indexing op _ _ _ _ _ hop hextra hx htarget =>
      have htargets : op.targetsIndex = true := by
        simp only [List.mem_cons, List.not_mem_nil, or_false] at hop
        rcases hop with rfl | rfl <;> rfl
      refine encode_keyword.mpr
        ⟨_, ?_, Shape.toWord_eq_ok_iff.mpr ⟨_, htarget, hc.address_nonneg, rfl⟩⟩
      rw [Shape.ofOperands_indexing hop hextra]
      exact Shape.indexing_eq_ok_iff.mpr ⟨_, hx, hc.index_ne_zero htargets, rfl⟩
  | stop => exact encode_keyword.mpr ⟨_, rfl, rfl⟩

end Denotes

end WordMachine
