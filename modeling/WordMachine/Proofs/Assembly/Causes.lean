import WordMachine.Proofs.Assembly.Checks
import WordMachine.Proofs.Assembly.Diagnostics
import WordMachine.Proofs.Source.Column

/-!
# What a diagnostic is about

A diagnostic is about the label of a line, about its statement, or about the address that the
statement would stand at. The checks of a statement find fault with the statement only. So the cause
of a diagnostic tells where it points: to the statement, or to the head of the line if there is no
place for a word.
-/

namespace WordMachine

/-- Whether a cause lies in a statement, and not in its label or in its address. -/
def Cause.inStatement : Cause → Bool
  | redeclaredLabel _ => false
  | addressOverflow _ => false
  | _ => true

/-! ## The checks of a statement -/

namespace Operand

variable {labels : Labels} {operands : Text} {cause : Cause}

theorem inStatement_of_single {keyword : Text} (h : single keyword operands = .error cause) :
    cause.inStatement := by
  unfold single at h
  split at h <;> cases h <;> rfl

theorem inStatement_of_resolve {token : Text} (h : resolve labels token = .error cause) :
    cause.inStatement := by
  obtain ⟨-, asLabel, rfl, -⟩ := resolve_eq_error_iff.mp h
  rfl

theorem inStatement_of_location (h : location operands = .error cause) : cause.inStatement := by
  unfold location at h
  split at h
  · next hsingle =>
      cases h
      exact inStatement_of_single hsingle
  · split at h
    · cases h
      rfl
    · split at h <;> cases h
      rfl

theorem inStatement_of_data (h : data labels operands = .error cause) : cause.inStatement := by
  unfold data at h
  split at h
  · next hsingle =>
      cases h
      exact inStatement_of_single hsingle
  · split at h
    · next hresolve =>
        cases h
        exact inStatement_of_resolve hresolve
    · split at h <;> cases h
      rfl

end Operand

theorem MisnamesRegister.inStatement {field : Field} {least : Nat} {operand : Option Text}
    {cause : Cause} (h : MisnamesRegister field least operand cause) : cause.inStatement := by
  cases h <;> rfl

theorem MisnamesAddress.inStatement {labels : Labels} {operand : Option Text} {cause : Cause}
    (h : MisnamesAddress labels operand cause) : cause.inStatement := by
  cases h with
  | unresolved h => exact Operand.inStatement_of_resolve h
  | negative _ _ => rfl

theorem Fails.inStatement {labels : Labels} {op : Operation} {operands : List Text} {check : Check}
    {cause : Cause} (h : Fails labels op operands check cause) : cause.inStatement := by
  cases h with
  | missing _ | extra _ => rfl
  | register h | index h | address h => exact h.inStatement

theorem inStatement_of_encode {labels : Labels} {keyword : Text} {operands : List Text}
    {cause : Cause} (h : encode labels keyword operands = .error cause) : cause.inStatement := by
  by_cases hname : ∃ op : Operation, keyword = op.keyword
  · obtain ⟨op, rfl⟩ := hname
    obtain ⟨check, hfails, -⟩ := encode_keyword_eq_error_iff.mp h
    exact hfails.inStatement
  · rw [encode_of_ne_keyword fun op hop => hname ⟨op, hop⟩] at h
    cases h
    rfl

theorem Statement.inStatement_of_word {s : Statement} {labels : Labels} {cause : Cause}
    (h : s.word labels = .error cause) : cause.inStatement := by
  unfold Statement.word at h
  split at h
  · exact Operand.inStatement_of_data h
  · exact inStatement_of_encode h

/-! ## Demands -/

namespace Demand

/-- Why a demand cannot be met, wherever its statement stands. -/
def cause? : Demand → Option Cause
  | badMove cause => some cause
  | reject cause => some cause
  | _ => none

variable {labels : Labels} {s : Statement} {cause : Cause}

theorem inStatement_of_ofKeyword (h : (ofKeyword labels s.keyword s.operands).cause? = some cause) :
    cause.inStatement := by
  by_cases hloc : s.keyword = Keyword.loc
  · rw [ofKeyword, if_pos hloc] at h
    cases hlocation : Operand.location s.operands with
    | ok address =>
        rw [hlocation] at h
        cases h
    | error found =>
        rw [hlocation] at h
        cases h
        exact Operand.inStatement_of_location hlocation
  · rw [ofKeyword_of_ne_loc labels hloc] at h
    cases hword : s.word labels with
    | ok word =>
        rw [hword] at h
        cases h
    | error found =>
        rw [hword] at h
        cases h
        exact Statement.inStatement_of_word hword

theorem inStatement_of_ofStatement {rule : LabelRule}
    (h : (ofStatement rule labels s).cause? = some cause) : cause.inStatement := by
  unfold ofStatement at h
  split at h
  · split at h
    · cases h
    · split at h
      · split at h <;> cases h
      · exact inStatement_of_ofKeyword h
  · exact inStatement_of_ofKeyword h

end Demand

/-! ## Where diagnostics point -/

namespace Emission

variable {rule : LabelRule} {labels : Labels}

theorem failure_eq_some {e : Emission} {column : Int} {demand : Demand} {d : Diagnostic}
    (h : e.failure column demand = some d) :
    (∃ cause, demand.cause? = some cause ∧ d = ⟨e.position column, cause⟩) ∨ d = e.overflow := by
  cases demand with
  | nothing => cases h
  | moveTo address => cases h
  | badMove cause | reject cause =>
      cases h
      exact .inl ⟨cause, rfl, rfl⟩
  | emit word =>
      simp only [failure] at h
      split at h
      · cases h
        exact .inr rfl
      · cases h

/-- A complaint about a line points to the column of its statement, and the complaint that there is
no place for a word points to the head of the line. -/
theorem column_of_mem_complaints {e : Emission} {raw : Text} {d : Diagnostic}
    (h : d ∈ e.complaints rule labels raw) :
    ∃ s, Statement.parse raw = some s ∧
      ((d.position.column = s.column ∧ ∀ address, d.cause ≠ .addressOverflow address) ∨
        (d.position.column = 1 ∧ ∃ address, d.cause = .addressOverflow address)) := by
  unfold complaints at h
  split at h
  · cases h
  · next s hparse =>
      refine ⟨s, hparse, ?_⟩
      rcases List.mem_append.mp h with h | h
      · obtain ⟨name, -, rfl⟩ := redeclaration_eq_some (Option.mem_toList.mp h)
        exact .inl ⟨rfl, fun address hcause => by cases hcause⟩
      · rcases failure_eq_some (Option.mem_toList.mp h) with ⟨cause, hcause, rfl⟩ | rfl
        · refine .inl ⟨rfl, ?_⟩
          rintro address rfl
          -- The checks of a statement never blame its address.
          have hlies := Demand.inStatement_of_ofStatement hcause
          cases hlies
        · exact .inr ⟨rfl, _, rfl⟩

/-- A diagnostic is a complaint about the line that its number names. -/
theorem exists_complaint_of_mem_diagnostics {lines : List Text} {d : Diagnostic}
    (h : d ∈ (run rule labels lines).diagnostics.toList) :
    ∃ (i : Nat) (raw : Text), lines[i]? = some raw ∧ d.position.line = i + 1 ∧
      d ∈ (before rule labels lines i).complaints rule labels raw := by
  obtain ⟨hfirst, hlast⟩ := line_of_mem_diagnostics rule labels h
  obtain ⟨i, hi⟩ : ∃ i : Nat, d.position.line = i + 1 := ⟨(d.position.line - 1).toNat, by omega⟩
  have hlength : i < lines.length := by omega
  have hraw : lines[i]? = some lines[i] := List.getElem?_eq_getElem hlength
  refine ⟨i, lines[i], hraw, hi, ?_⟩
  rw [← diagnosticsOn_run rule labels hraw, diagnosticsOn, List.mem_filter, beq_iff_eq]
  exact ⟨h, hi⟩

end Emission

/-- A diagnostic points into the line `raw`, which is number `i` if lines are counted from zero, at
the byte in `column`, which is counted from one. -/
structure Diagnostic.PointsInto (d : Diagnostic) (lines : List Text) (i : Nat) (raw : Text)
    (column : Nat) : Prop where
  line : lines[i]? = some raw
  position : d.position = ⟨i + 1, column⟩
  first : 1 ≤ column
  last : column ≤ raw.length
  /-- The line goes on with its keyword, or with a label and a colon that have the line for
  themselves. -/
  statement : (∀ address, d.cause ≠ .addressOverflow address) →
    ∃ s, Statement.parse raw = some s ∧ s.pointed ≠ [] ∧ s.pointed <+: raw.drop (column - 1)
  overflow : ∀ address, d.cause = .addressOverflow address → column = 1

/-- A diagnostic points to one place only. -/
theorem Diagnostic.PointsInto.eq_of_position {d : Diagnostic} {lines : List Text} {raw : Text}
    {i j column column' : Nat} (h : d.PointsInto lines i raw column)
    (hposition : d.position = ⟨j + 1, column'⟩) : i = j ∧ column = column' := by
  have hsame : (⟨i + 1, column⟩ : Position) = ⟨j + 1, column'⟩ := h.position.symm.trans hposition
  injection hsame with hline hcolumn
  omega

theorem Emission.exists_pointsInto {rule : LabelRule} {labels : Labels} {lines : List Text}
    {d : Diagnostic} (h : d ∈ (run rule labels lines).diagnostics.toList) :
    ∃ (i : Nat) (raw : Text) (column : Nat), d.PointsInto lines i raw column := by
  obtain ⟨i, raw, hraw, hline, hcomplaint⟩ := exists_complaint_of_mem_diagnostics h
  obtain ⟨s, hparse, hcolumn⟩ := column_of_mem_complaints hcomplaint
  obtain ⟨hfirst, hlast, hpointed⟩ := Statement.pointed_at_column hparse
  have hposition {column : Nat} (h : d.position.column = column) :
      d.position = ⟨i + 1, column⟩ := by
    rw [← hline, ← h]
  rcases hcolumn with ⟨hcolumn, hcause⟩ | ⟨hcolumn, address, hcause⟩
  · exact ⟨i, raw, s.column,
      { line := hraw
        position := hposition hcolumn
        first := hfirst
        last := hlast
        statement := fun _ => ⟨s, hparse, hpointed⟩
        overflow := fun address h => absurd h (hcause address) }⟩
  · exact ⟨i, raw, 1,
      { line := hraw
        position := hposition hcolumn
        first := Nat.le_refl 1
        last := Nat.le_trans hfirst hlast
        statement := fun h => absurd hcause (h address)
        overflow := fun _ _ => rfl }⟩

end WordMachine
