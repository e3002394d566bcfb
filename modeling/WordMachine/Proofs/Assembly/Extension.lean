import WordMachine.Proofs.Assembly.Diagnostics
import WordMachine.Proofs.Assembly.Encoding
import WordMachine.Proofs.Assembly.LabelTable

/-!
# Appending lines to a program

Lines that are appended to a program can declare further labels, and can do nothing else to the
lines before them: a label that is there keeps its address, and the second reading comes to each
line with the same counter whatever the label table is. So the only result that can change is that
of a statement whose operand is a label that was missing.
-/

namespace WordMachine

/-! ## Results against two tables -/

/-- Every label of one table is in another one, at the same address. A label without a name is in
neither of them. -/
structure Labels.Extends (small large : Labels) : Prop where
  keeps : ∀ name address, small.lookup name = some address → large.lookup name = some address
  named : large.lookup [] = none

/-- A result that does not depend on labels yet to come: the later result is the same, unless the
earlier one is that a label is missing. -/
def Settled {α : Type} (earlier later : Except Cause α) : Prop :=
  later = earlier ∨ ∃ token, earlier = .error (.unresolvedOperand token true)

namespace Operand

variable {small large : Labels} (h : small.Extends large)

include h

theorem resolve_settled (token : Text) : Settled (resolve small token) (resolve large token) := by
  unfold resolve
  split
  · exact .inl rfl
  · cases hsmall : small.lookup token with
    | some address =>
        left
        simp only [h.keeps token address hsmall]
    | none =>
        by_cases htoken : token = []
        -- The empty token is no label of the larger table either.
        · left
          simp only [htoken, h.named]
        · right
          exact ⟨token, by simp [htoken]⟩
  · exact .inl rfl

theorem address_settled (token : Text) : Settled (address small token) (address large token) := by
  rcases resolve_settled h token with hsame | ⟨missing, herror⟩
  · left
    simp only [address, hsame]
  · right
    exact ⟨missing, by simp only [address, herror]⟩

theorem data_settled (operands : Text) : Settled (data small operands) (data large operands) := by
  unfold data
  split
  · exact .inl rfl
  · next token hsingle =>
      rcases resolve_settled h token with hsame | ⟨missing, herror⟩
      · left
        simp only [hsame]
      · right
        exact ⟨missing, by simp only [herror]⟩

end Operand

section Statements

variable {small large : Labels} (h : small.Extends large)

include h

theorem Shape.toWord_settled (shape : Shape) :
    Settled (shape.toWord small) (shape.toWord large) := by
  unfold toWord
  split
  · exact .inl rfl
  · next token htarget =>
      rcases Operand.address_settled h token with hsame | ⟨missing, herror⟩
      · left
        rw [hsame]
      · right
        exact ⟨missing, by rw [herror]; rfl⟩

/-- The shape of an instruction does not depend on labels, so that only its address can. -/
theorem encode_settled (keyword : Text) (operands : List Text) :
    Settled (encode small keyword operands) (encode large keyword operands) := by
  rw [encode_eq_shape, encode_eq_shape]
  cases Shape.parse keyword operands with
  | error cause => exact .inl rfl
  | ok shape => exact Shape.toWord_settled h shape

theorem Statement.word_settled (s : Statement) : Settled (s.word small) (s.word large) := by
  unfold word
  split
  · exact Operand.data_settled h s.operands
  · exact encode_settled h s.keyword (splitOperands s.operands)

end Statements

namespace Demand

variable {small large : Labels} (h : small.Extends large)

include h

theorem ofKeyword_settled (s : Statement) :
    ofKeyword large s.keyword s.operands = ofKeyword small s.keyword s.operands ∨
      ∃ token, ofKeyword small s.keyword s.operands =
        .reject (.unresolvedOperand token true) := by
  by_cases hloc : s.keyword = Keyword.loc
  · left
    simp only [ofKeyword, hloc, if_true]
  · rw [ofKeyword_of_ne_loc large hloc, ofKeyword_of_ne_loc small hloc]
    rcases s.word_settled h with hsame | ⟨missing, herror⟩
    · left
      rw [hsame]
    · right
      exact ⟨missing, by rw [herror]; rfl⟩

/-- A statement asks for the same against both tables, unless it asks for a word that a missing
label prevents. -/
theorem ofStatement_settled (rule : LabelRule) (s : Statement) :
    ofStatement rule large s = ofStatement rule small s ∨
      ∃ token, ofStatement rule small s = .reject (.unresolvedOperand token true) := by
  unfold ofStatement
  split
  · split
    · exact .inl rfl
    · split
      · exact .inl rfl
      · exact ofKeyword_settled h s
  · exact ofKeyword_settled h s

end Demand

/-! ## Where the second reading stands -/

theorem Demand.next_ofStatement_labels (rule : LabelRule) (labels labels' : Labels) (counter : Int)
    (s : Statement) :
    (ofStatement rule labels' s).next counter = (ofStatement rule labels s).next counter := by
  have hkeyword : (ofKeyword labels' s.keyword s.operands).next counter =
      (ofKeyword labels s.keyword s.operands).next counter := by
    rw [next_ofKeyword, next_ofKeyword]
  unfold ofStatement
  split
  · split
    · rfl
    · split
      · rfl
      · exact hkeyword
  · exact hkeyword

namespace Emission

/-- Two states of the second reading stand at the same place: they agree in all that a row can show
of them. -/
structure StandsWith (e e' : Emission) : Prop where
  counter : e'.counter = e.counter
  linesRead : e'.linesRead = e.linesRead
  declared : e'.declared = e.declared

theorem StandsWith.step {e e' : Emission} (h : e.StandsWith e') (rule : LabelRule)
    (labels labels' : Labels) (raw : Text) :
    (step rule labels e raw).StandsWith (step rule labels' e' raw) := by
  constructor
  · cases hparse : Statement.parse raw with
    | none => rw [step_blank _ hparse, step_blank _ hparse, h.counter]
    | some statement =>
        rw [step_counter _ hparse, step_counter _ hparse, h.counter,
          Demand.next_ofStatement_labels rule labels labels']
  · rw [step_linesRead, step_linesRead, h.linesRead]
  · cases hparse : Statement.parse raw with
    | none => simpa only [Emission.step, hparse, addRow] using h.declared
    | some statement =>
        rw [step_declared _ hparse, step_declared _ hparse, h.declared]

/-- Whatever the tables are, the second reading comes to each line in the same place. -/
theorem run_standsWith (rule : LabelRule) (labels labels' : Labels) (lines : List Text) :
    (run rule labels lines).StandsWith (run rule labels' lines) := by
  induction lines using List.reverseRecOn with
  | nil => exact ⟨rfl, rfl, rfl⟩
  | append_singleton lines raw ih =>
      rw [run_append_singleton, run_append_singleton]
      exact ih.step rule labels labels' raw

end Emission

/-! ## Rows -/

/-- A row whose remark is that a label is missing. -/
def Row.MissesLabel (row : Row) : Prop :=
  ∃ position token, row.diagnostic = some ⟨position, .unresolvedOperand token true⟩

namespace Emission

variable {e e' : Emission}

theorem StandsWith.remark_eq (h : e.StandsWith e') (column : Int) (note : Option Diagnostic)
    (d : Demand) : e'.remark column note d = e.remark column note d := by
  have hposition (c : Int) : e'.position c = e.position c := by
    simp only [position, lineNumber, h.linesRead]
  cases d <;> simp only [remark, overflow, h.counter, hposition]

theorem StandsWith.redeclaration_eq (h : e.StandsWith e') (statement : Statement) :
    e'.redeclaration statement = e.redeclaration statement := by
  simp only [redeclaration, position, lineNumber, h.linesRead, h.declared]

/-- Against a larger table a line has the same row, unless its row remarks that a label is
missing. -/
theorem StandsWith.row_settled (h : e.StandsWith e') {small large : Labels}
    (hlabels : small.Extends large) (rule : LabelRule) (raw : Text) :
    e'.row rule large raw = e.row rule small raw ∨ (e.row rule small raw).MissesLabel := by
  cases hparse : Statement.parse raw with
  | none =>
      left
      simp only [row, hparse]
  | some statement =>
      simp only [row, hparse]
      rcases Demand.ofStatement_settled hlabels rule statement with hsame | ⟨token, hreject⟩
      · left
        rw [hsame, h.counter, h.remark_eq, h.redeclaration_eq]
      · right
        exact ⟨e.position statement.column, token, by rw [hreject]; rfl⟩

end Emission

/-! ## Programs -/

theorem Statement.label_ne_nil {raw : Text} {s : Statement} (h : parse raw = some s) :
    s.label ≠ some [] := by
  obtain ⟨column, gs, -, rfl⟩ := exists_glyphs_of_parse h
  rw [label_ofGlyphs, labelName?]
  split
  · next hlabel =>
      intro hempty
      have hlength := congrArg List.length (Option.some.inj hempty)
      rw [List.length_dropLast, List.length_nil] at hlength
      omega
  · simp

theorem lookup_nil_layoutLabels (rule : LabelRule) (lines : List Text) :
    (layoutLabels rule lines).lookup [] = none := by
  have habsent : ∀ raw ∈ lines, declared? raw ≠ some [] := by
    intro raw _ hdeclared
    obtain ⟨s, hparse, hlabel⟩ := Option.bind_eq_some_iff.mp hdeclared
    exact Statement.label_ne_nil hparse hlabel
  exact Layout.lookup_foldl_of_absent habsent

/-- The labels of a program keep their addresses when lines are appended to it. -/
theorem layoutLabels_extends (rule : LabelRule) (lines rest : List Text) :
    (layoutLabels rule lines).Extends (layoutLabels rule (lines ++ rest)) := by
  constructor
  · intro name address hlookup
    rw [layoutLabels, Layout.run, List.foldl_append]
    exact Layout.lookup_foldl_of_some hlookup
  · exact lookup_nil_layoutLabels rule (lines ++ rest)

/-- Appending lines to a program changes nothing that is assembled already. Every label keeps its
address, and every line keeps its row, with its content, its source and its diagnostic, unless that
row remarks that a label is missing. -/
theorem assemble_append_keeps (rule : LabelRule) (lines rest : List Text) :
    (∀ name address, (Program.assemble rule lines).labels.lookup name = some address →
      (Program.assemble rule (lines ++ rest)).labels.lookup name = some address) ∧
    ∀ i < lines.length, ∃ row, (Program.assemble rule lines).listing[i]? = some row ∧
      (row.MissesLabel ∨ (Program.assemble rule (lines ++ rest)).listing[i]? = some row) := by
  have hlabels := layoutLabels_extends rule lines rest
  refine ⟨hlabels.keeps, ?_⟩
  intro i hi
  let small := layoutLabels rule lines
  let large := layoutLabels rule (lines ++ rest)
  have hplace : (Emission.before rule small lines i).StandsWith
      (Emission.before rule large (lines ++ rest) i) := by
    rw [Emission.before_append_left rule large (Nat.le_of_lt hi)]
    exact Emission.run_standsWith rule small large (lines.take i)
  refine ⟨(Emission.before rule small lines i).row rule small (lines.get ⟨i, hi⟩), ?_, ?_⟩
  · apply (Emission.listing_run_getElem? rule small lines i).trans
    rw [List.getElem?_eq_getElem hi]
    rfl
  · rcases hplace.row_settled hlabels rule (lines.get ⟨i, hi⟩) with hsame | hmissing
    · right
      apply (Emission.listing_run_getElem? rule large (lines ++ rest) i).trans
      rw [List.getElem?_append_left hi, List.getElem?_eq_getElem hi, Option.map_some]
      exact congrArg some hsame
    · exact .inl hmissing

/-- A program that refers to a label that it declares and to one that it does not. -/
def unfinished : List Text :=
  ["here: LDR 0,0,there", "Data here", "here: STR 0,there"].map Text.ascii

/-- The line that declares the missing label. -/
def unfinishedRest : List Text := [Text.ascii "there: HLT"]

/-- Once the missing label is there, the first row shows a word. The second row is as it was. -/
theorem unfinished_append :
    (∃ row, (Program.assemble .ordinary unfinished).listing[0]? = some row ∧ row.MissesLabel ∧
      (Program.assemble .ordinary (unfinished ++ unfinishedRest)).listing[0]? ≠ some row) ∧
    ∃ row, (Program.assemble .ordinary unfinished).listing[1]? = some row ∧
      (Program.assemble .ordinary (unfinished ++ unfinishedRest)).listing[1]? = some row := by
  obtain ⟨-, hrows⟩ := assemble_append_keeps .ordinary unfinished unfinishedRest
  constructor
  · refine ⟨⟨Text.ascii "here: LDR 0,0,there", .rejected 0,
      some ⟨⟨1, 7⟩, .unresolvedOperand (Text.ascii "there") true⟩⟩, by decide +kernel,
      ⟨⟨1, 7⟩, Text.ascii "there", rfl⟩, by decide +kernel⟩
  · obtain ⟨row, hrow, hkept⟩ := hrows 1 (by decide)
    refine ⟨row, hrow, ?_⟩
    have hcontent : (Program.assemble .ordinary unfinished).listing[1]? =
        some ⟨Text.ascii "Data here", .word 1 0, none⟩ := by decide +kernel
    rw [hcontent] at hrow
    obtain rfl := Option.some.inj hrow
    rcases hkept with ⟨position, token, hmissing⟩ | hkept
    · cases hmissing
    · exact hkept

end WordMachine
