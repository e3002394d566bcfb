import WordMachine.Proofs.Assembly.Diagnostics
import WordMachine.Proofs.Assembly.Encoding
import WordMachine.Proofs.Numeral.Digits
import WordMachine.Proofs.Source.Writing

/-!
# Assembling what has been disassembled

The disassembly of a word that came from the assembler is a line of source. Its operands are
numbers, so it means the same against every label table: the word itself, with the address as it was
cut to its field.
-/

namespace WordMachine

namespace Fields

/-- The operands that the fields of an operation show, one by one. -/
def shownOperands (op : Operation) (f : Fields) : List Text :=
  (if op.targetsIndex then [] else [Numeral.decimal f.register]) ++
    Numeral.decimal f.index :: Numeral.decimal f.address ::
      if f.indirect then [Text.ascii "I"] else []

theorem operands_eq_intercalate (op : Operation) (f : Fields) :
    operands op f = [Text.comma].intercalate (shownOperands op f) := by
  have hmark : Text.ascii ",I" = Text.comma :: Text.ascii "I" := rfl
  cases htargets : op.targetsIndex <;> cases hindirect : f.indirect <;>
    simp [operands, shownOperands, htargets, hindirect, hmark, List.intercalate]

/-- A shown operand is plain text, with no byte that has a meaning between operands or after
them. -/
theorem plain_of_mem_shownOperands {op : Operation} {f : Fields} {t : Text}
    (h : t ∈ shownOperands op f) :
    t ≠ [] ∧ ∀ b ∈ t, Text.isPlain b ∧ b ≠ Text.comma ∧ b ≠ Text.semicolon := by
  have hnumber (n : Nat) : Numeral.decimal n ≠ [] ∧
      ∀ b ∈ Numeral.decimal n, Text.isPlain b ∧ b ≠ Text.comma ∧ b ≠ Text.semicolon := by
    rw [Numeral.decimal_natCast]
    refine ⟨Numeral.digits_ne_nil 10 n, ?_⟩
    intro b hb
    have hdigit := Numeral.isDecimalDigit_of_mem_digits (by decide) (by decide) hb
    refine ⟨(Text.isPlain_of_isDecimalDigit hdigit).1, ?_, ?_⟩
    · rintro rfl
      exact absurd hdigit (by decide)
    · rintro rfl
      exact absurd hdigit (by decide)
  rw [shownOperands, List.mem_append, List.mem_cons, List.mem_cons] at h
  rcases h with h | rfl | rfl | h
  · split at h
    · cases h
    · rw [List.mem_singleton.mp h]
      exact hnumber f.register
  · exact hnumber f.index
  · exact hnumber f.address
  · split at h
    · rw [List.mem_singleton.mp h]
      refine ⟨by decide, ?_⟩
      intro b hb
      rw [List.mem_singleton.mp (show b ∈ [73] from hb)]
      decide
    · cases h

theorem plain_of_mem_operands {op : Operation} {f : Fields} {b : UInt8} (h : b ∈ operands op f) :
    Text.isPlain b ∧ b ≠ Text.semicolon := by
  rw [operands_eq_intercalate] at h
  rcases Text.mem_intercalate h with rfl | ⟨t, ht, hb⟩
  · decide
  · obtain ⟨hplain, -, hsemicolon⟩ := (plain_of_mem_shownOperands ht).2 b hb
    exact ⟨hplain, hsemicolon⟩

theorem operands_ne_nil (op : Operation) (f : Fields) : operands op f ≠ [] := by
  cases htargets : op.targetsIndex <;> simp [operands, htargets]

theorem splitOperands_operands (op : Operation) (f : Fields) :
    Statement.splitOperands (operands op f) = shownOperands op f := by
  rw [operands_eq_intercalate]
  apply Statement.splitOperands_intercalate
  · intro t ht
    exact (plain_of_mem_shownOperands ht).1
  · intro t ht b hb
    exact ((plain_of_mem_shownOperands ht).2 b hb).1
  · intro t ht hcomma
    exact ((plain_of_mem_shownOperands ht).2 Text.comma hcomma).2.1 rfl

end Fields

/-- The mnemonic of an operation is a keyword that is neither a directive nor a label. -/
theorem Operation.mnemonic_isKeyword (op : Operation) :
    op.mnemonic.all Text.isPlain = true ∧ Text.semicolon ∉ op.mnemonic ∧ op.mnemonic ≠ [] ∧
      Statement.labelName? op.mnemonic = none ∧ op.mnemonic ≠ Keyword.loc ∧
      op.mnemonic ≠ Keyword.data := by
  cases op <;> decide

/-- The statement on the disassembled line of an operation that has operands. -/
theorem Statement.parse_render {op : Operation} (hop : op ≠ .hlt) {f : Fields}
    (hf : f.opcode = op.opcode) :
    parse f.render =
      some ⟨none, op.mnemonic ++ [Text.space] ++ f.operands op, op.mnemonic, f.operands op, 1⟩ := by
  obtain ⟨hplain, hsemicolon, hne, hlabel, -, -⟩ := op.mnemonic_isKeyword
  have hrender : f.render = op.mnemonic ++ [Text.space] ++ f.operands op := by
    rw [Fields.render, hf, Operation.ofOpcode?_opcode]
    cases op with
    | hlt => exact absurd rfl hop
    | _ => rfl
  have hcomment : Text.semicolon ∉ op.mnemonic ++ [Text.space] ++ f.operands op := by
    simp only [List.mem_append, not_or]
    exact ⟨⟨hsemicolon, by decide⟩, fun h => (Fields.plain_of_mem_operands h).2 rfl⟩
  rw [hrender]
  exact parse_keyword_operands (List.all_eq_true.mp hplain)
    (fun b hb => (Fields.plain_of_mem_operands hb).1) hne (f.operands_ne_nil op) hcomment hlabel

/-! ## Commands -/

namespace Command

/-- A command with its address as the address field holds it. -/
def wrapped (c : Command) : Command :=
  { c with address := (c.address.toNat % Fields.addressLimit : Nat) }

theorem word_wrapped (c : Command) : c.wrapped.word = c.word := by
  have haddress : c.address.toNat % Fields.addressLimit % Fields.addressLimit =
      c.address.toNat % Fields.addressLimit := Nat.mod_mod _ _
  simp only [word, fields, wrapped, Int.toNat_natCast, haddress]

theorem IsEncodable.wrapped {c : Command} (h : c.IsEncodable) : c.wrapped.IsEncodable :=
  { address_nonneg := Int.natCast_nonneg _
    index_ne_zero := h.index_ne_zero }

/-- The operands that the word of a command shows denote the command, against any labels. -/
theorem denotes_shownOperands (c : Command) (hop : c.operation ≠ .hlt)
    (hregister : c.operation.targetsIndex = true → c.register = 0) (labels : Labels) :
    Denotes labels c.operation.mnemonic (c.fields.shownOperands c.operation) c.wrapped := by
  rw [← Operation.keyword_eq_mnemonic]
  obtain ⟨op, register, index, address, indirect⟩ := c
  have hnumber (n : Fin 4) : Numeral.readDecimal (Numeral.decimal (n : Nat)) = .ok (n : Nat) :=
    Numeral.readDecimal_decimal (by omega)
  have hfield (n : Nat) : Operand.resolve labels (Numeral.decimal (n % Fields.addressLimit : Nat)) =
      .ok (n % Fields.addressLimit : Nat) := by
    have hlt : n % Fields.addressLimit < 32 := Nat.mod_lt _ (by decide)
    rw [Operand.resolve, Numeral.readNumber_decimal (by omega)]
  obtain ⟨extra, hextra, hlength, hindirect⟩ : ∃ extra : List Text,
      (if indirect then [Text.ascii "I"] else []) = extra ∧ extra.length ≤ 1 ∧
        (!extra.isEmpty) = indirect := by
    cases indirect <;> exact ⟨_, rfl, by decide, rfl⟩
  cases htargets : op.targetsIndex with
  | false =>
      have hin : op ∈ [Operation.ldr, .str, .lda, .jz] := by
        cases op with
        | hlt => exact absurd rfl hop
        | ldx | stx => cases htargets
        | _ => decide
      have hfull := Denotes.full hin hlength (hnumber register) (hnumber index)
        (hfield address.toNat)
      rw [hindirect, ← hextra] at hfull
      simp only [Fields.shownOperands, htargets, Bool.false_eq_true, if_false]
      exact hfull
  | true =>
      have hin : op ∈ [Operation.ldx, .stx] := by
        cases op with
        | ldx | stx => decide
        | _ => cases htargets
      obtain rfl : register = 0 := hregister htargets
      have hindexing := Denotes.indexing hin hlength (hnumber index)
        (hfield address.toNat)
      rw [hindirect, ← hextra] at hindexing
      simp only [Fields.shownOperands, htargets, if_true]
      exact hindexing

end Command

/-- What an instruction leaves out of its command: an operation on an index register has no general
register, and a stop has no operands at all. -/
theorem Denotes.unused {labels : Labels} {keyword : Text} {operands : List Text} {c : Command}
    (h : Denotes labels keyword operands c) :
    (c.operation.targetsIndex = true → c.register = 0) ∧
      (c.operation = .hlt → c = ⟨.hlt, 0, 0, 0, false⟩) := by
  cases h with
  | full hop =>
      simp only [List.mem_cons, List.not_mem_nil, or_false] at hop
      rcases hop with rfl | rfl | rfl | rfl <;> exact ⟨nofun, nofun⟩
  | unindexed => exact ⟨nofun, nofun⟩
  | indexing hop =>
      simp only [List.mem_cons, List.not_mem_nil, or_false] at hop
      rcases hop with rfl | rfl <;> exact ⟨fun _ => rfl, nofun⟩
  | stop => exact ⟨nofun, fun _ => rfl⟩

/-! ## Lines -/

/-- The disassembly of an encoded word is the line of a statement without label, whose keyword and
operands are encoded as that word. -/
theorem exists_statement_of_encode {labels : Labels} {keyword : Text} {operands : List Text}
    {w : Word} (h : encode labels keyword operands = .ok w) (others : Labels) :
    ∃ (op : Operation) (statement : Statement),
      Statement.parse w.disassemble = some statement ∧ statement.label = none ∧
      statement.keyword = op.mnemonic ∧
      encode others op.mnemonic (Statement.splitOperands statement.operands) = .ok w := by
  obtain ⟨c, hc⟩ := exists_denotes_of_encode h
  obtain ⟨hencodable, rfl⟩ := hc.word_of_encode h
  obtain ⟨hregister, hstop⟩ := hc.unused
  by_cases hop : c.operation = .hlt
  · rw [hstop hop]
    exact ⟨.hlt, ⟨none, Operation.hlt.mnemonic, Operation.hlt.mnemonic, [], 1⟩, by decide, rfl, rfl,
      Denotes.stop.encode_eq ⟨Int.le_refl 0, nofun⟩⟩
  · have hfields : Fields.ofWord c.word = c.fields := c.ofWord_word
    rw [Word.disassemble, hfields]
    refine ⟨c.operation, _, Statement.parse_render hop rfl, rfl, rfl, ?_⟩
    rw [Fields.splitOperands_operands, ← c.word_wrapped]
    exact (c.denotes_shownOperands hop hregister others).encode_eq hencodable.wrapped

/-- A statement without label whose word can be encoded asks for that word. -/
theorem Demand.ofStatement_of_encode (rule : LabelRule) {labels : Labels} {statement : Statement}
    {op : Operation} {w : Word} (hlabel : statement.label = none)
    (hkeyword : statement.keyword = op.mnemonic)
    (h : encode labels op.mnemonic (Statement.splitOperands statement.operands) = .ok w) :
    ofStatement rule labels statement = .emit w := by
  obtain ⟨-, -, -, -, hloc, hdata⟩ := op.mnemonic_isKeyword
  simp only [ofStatement, hlabel, Option.isSome_none, Bool.false_eq_true, if_false,
    ofKeyword, hkeyword, hloc, hdata, h, ofWord]

namespace Emission

/-- A single line that asks for a word gives the image of this word at address zero. -/
theorem run_singleton {rule : LabelRule} {labels : Labels} {raw : Text} {statement : Statement}
    {w : Word} (hparse : Statement.parse raw = some statement) (hlabel : statement.label = none)
    (hdemand : Demand.ofStatement rule labels statement = .emit w) :
    (run rule labels [raw]).diagnostics.toList = [] ∧
      (run rule labels [raw]).image = Image.ofPairs [(0, w)] := by
  have hstep : run rule labels [raw] = step rule labels start raw := rfl
  have hplace : ¬ maxAddress < start.counter := by decide
  rw [hstep, step_diagnostics, step_image]
  constructor
  · simp only [complaints, hparse, redeclaration, hlabel, hdemand, failure, hplace, if_false,
      Option.toList_none, List.append_nil]
    rfl
  · simp only [row, hparse, hdemand, Demand.content, hplace, if_false, Content.place]
    rfl

end Emission

/-- A word that an instruction is encoded as is disassembled to a line of source that assembles to
the same word: alone, against any label table and under either rule for statements after a label,
the line has no diagnostics, and its image holds the word at address zero and nothing else. -/
theorem disassembly_reassembles {labels : Labels} {keyword : Text} {operands : List Text}
    {w : Word} (h : encode labels keyword operands = .ok w) (rule : LabelRule) (others : Labels) :
    (Emission.run rule others [w.disassemble]).diagnostics.toList = [] ∧
      (Emission.run rule others [w.disassemble]).image = Image.ofPairs [(0, w)] := by
  obtain ⟨op, statement, hparse, hlabel, hkeyword, hword⟩ := exists_statement_of_encode h others
  exact Emission.run_singleton hparse hlabel
    (Demand.ofStatement_of_encode rule hlabel hkeyword hword)

/-- An indexed store through a label beyond the address field is disassembled to the address that
the field holds, and this line gives the same word where the label is not declared. -/
theorem disassembly_reassembles_stx :
    encode ⟨[(Text.ascii "FAR", 45)]⟩ (Text.ascii "STX")
        [Text.ascii "2", Text.ascii "FAR", Text.ascii "I"] = .ok 18605 ∧
      (18605 : Word).disassemble = Text.ascii "STX 2,13,I" ∧
      (Emission.run .legacy .empty [(18605 : Word).disassemble]).diagnostics.toList = [] ∧
      (Emission.run .legacy .empty [(18605 : Word).disassemble]).image =
        Image.ofPairs [(0, 18605)] :=
  have h : encode ⟨[(Text.ascii "FAR", 45)]⟩ (Text.ascii "STX")
      [Text.ascii "2", Text.ascii "FAR", Text.ascii "I"] = .ok 18605 := by decide
  ⟨h, by decide, disassembly_reassembles h .legacy .empty⟩

end WordMachine
