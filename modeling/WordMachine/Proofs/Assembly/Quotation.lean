import WordMachine.Proofs.Assembly.Diagnostics
import WordMachine.Proofs.Assembly.Encoding

/-!
# What a diagnostic quotes

A diagnostic quotes at most one text: a label, a keyword, or an operand. Whatever it is, its bytes
stand in the line that the diagnostic is about.
-/

namespace WordMachine

/-- The text that a cause quotes. -/
def Cause.quoted : Cause → Text
  | missingOperand keyword _ _ => keyword
  | extraOperand keyword _ _ => keyword
  | unresolvedOperand token _ => token
  | operandRange _ _ _ _ => []
  | unknownMnemonic name => name
  | invalidLocation token => token
  | redeclaredLabel name => name
  | addressOverflow _ => []

variable {cause : Cause} {labels : Labels} {token operands : Text}

/-! ## Operands -/

namespace Operand

theorem quoted_of_resolve (h : resolve labels token = .error cause) : cause.quoted = token := by
  unfold resolve at h
  split at h
  · cases h
  · split at h
    · cases h
    · cases h
      rfl
  · cases h
    rfl

theorem quoted_subset_of_register {field : Field} {least greatest : Int}
    (h : register field least greatest token = .error cause) : cause.quoted ⊆ token := by
  unfold register at h
  split at h
  · cases h
    exact List.Subset.refl token
  · split at h
    · cases h
      exact List.nil_subset token
    · cases h

theorem quoted_subset_of_address (h : address labels token = .error cause) :
    cause.quoted ⊆ token := by
  unfold address at h
  split at h
  · next hresolve =>
      cases h
      rw [quoted_of_resolve hresolve]
      exact List.Subset.refl token
  · split at h
    · cases h
      exact List.nil_subset token
    · cases h

theorem quoted_of_single {keyword : Text} (h : single keyword operands = .error cause) :
    cause.quoted = keyword := by
  unfold single at h
  split at h
  · cases h
    rfl
  · cases h
  · cases h
    rfl

theorem subset_of_single {keyword : Text} (h : single keyword operands = .ok token) :
    token ⊆ operands := by
  unfold single at h
  split at h
  · cases h
  · next hfields =>
      cases h
      apply Text.subset_of_mem_fields
      rw [hfields]
      exact List.mem_singleton_self token
  · cases h

theorem quoted_subset_of_location (h : location operands = .error cause) :
    cause.quoted ⊆ Keyword.loc ∨ cause.quoted ⊆ operands := by
  unfold location at h
  split at h
  · next hsingle =>
      cases h
      rw [quoted_of_single hsingle]
      exact .inl (List.Subset.refl _)
  · next hsingle =>
      right
      split at h
      · cases h
        exact subset_of_single hsingle
      · split at h
        · cases h
          exact subset_of_single hsingle
        · cases h

theorem quoted_subset_of_data (h : data labels operands = .error cause) :
    cause.quoted ⊆ Keyword.data ∨ cause.quoted ⊆ operands := by
  unfold data at h
  split at h
  · next hsingle =>
      cases h
      rw [quoted_of_single hsingle]
      exact .inl (List.Subset.refl _)
  · next hsingle =>
      right
      split at h
      · next hresolve =>
          cases h
          rw [quoted_of_resolve hresolve]
          exact subset_of_single hsingle
      · split at h
        · cases h
          exact List.nil_subset operands
        · cases h

end Operand

/-! ## Instructions -/

namespace Shape

variable {op : Operation} {r x target : Text} {indirect : Bool}

theorem quoted_subset_of_full (h : full op r x target indirect = .error cause) :
    cause.quoted ⊆ r ∨ cause.quoted ⊆ x := by
  rcases bind_eq_error_iff.mp h with h | ⟨register, -, h⟩
  · exact .inl (Operand.quoted_subset_of_register h)
  · rcases bind_eq_error_iff.mp h with h | ⟨index, -, h⟩
    · exact .inr (Operand.quoted_subset_of_register h)
    · cases h

theorem quoted_subset_of_unindexed (h : unindexed op r target = .error cause) :
    cause.quoted ⊆ r := by
  rcases bind_eq_error_iff.mp h with h | ⟨register, -, h⟩
  · exact Operand.quoted_subset_of_register h
  · cases h

theorem quoted_subset_of_indexing (h : indexing op x target indirect = .error cause) :
    cause.quoted ⊆ x := by
  rcases bind_eq_error_iff.mp h with h | ⟨index, -, h⟩
  · exact Operand.quoted_subset_of_register h
  · cases h

theorem quoted_wrongCount (keyword : Text) (least most : Nat) (operands : List Text) :
    (wrongCount keyword least most operands).quoted = keyword := by
  unfold wrongCount
  split <;> rfl

/-- An operation that has no shape is blamed on itself or on one of its operands. -/
theorem quoted_subset_of_ofOperands {operands : List Text}
    (h : ofOperands op operands = .error cause) :
    cause.quoted ⊆ op.keyword ∨ ∃ operand ∈ operands, cause.quoted ⊆ operand := by
  rcases form_or_wrongCount op operands with hform | ⟨-, herror⟩
  · right
    cases hform with
    | full hop hextra =>
        rw [ofOperands_full hop hextra] at h
        rcases quoted_subset_of_full h with hr | hx
        · exact ⟨_, by simp, hr⟩
        · exact ⟨_, by simp, hx⟩
    | unindexed => exact ⟨_, by simp, quoted_subset_of_unindexed h⟩
    | indexing hop hextra =>
        rw [ofOperands_indexing hop hextra] at h
        exact ⟨_, by simp, quoted_subset_of_indexing h⟩
    | stop => cases h
  · left
    rw [herror] at h
    cases h
    rw [quoted_wrongCount]
    exact List.Subset.refl op.keyword

/-- The address operand of a shape is one of the operands that it was made of. -/
theorem target_mem_of_ofOperands {operands : List Text} {shape : Shape}
    (h : ofOperands op operands = .ok shape) : ∀ token ∈ shape.target, token ∈ operands := by
  intro token htoken
  cases form_of_ofOperands h with
  | full hop hextra =>
      rw [ofOperands_full hop hextra] at h
      obtain ⟨register, index, -, -, rfl⟩ := full_eq_ok_iff.mp h
      cases htoken
      simp
  | unindexed =>
      obtain ⟨register, -, rfl⟩ := unindexed_eq_ok_iff.mp h
      cases htoken
      simp
  | indexing hop hextra =>
      rw [ofOperands_indexing hop hextra] at h
      obtain ⟨index, -, -, rfl⟩ := indexing_eq_ok_iff.mp h
      cases htoken
      simp
  | stop =>
      cases h
      cases htoken

theorem quoted_subset_of_toWord {shape : Shape} (h : shape.toWord labels = .error cause) :
    ∃ token ∈ shape.target, cause.quoted ⊆ token := by
  unfold toWord at h
  split at h
  · cases h
  · next token htarget =>
      rcases bind_eq_error_iff.mp h with h | ⟨address, -, h⟩
      · exact ⟨token, htarget, Operand.quoted_subset_of_address h⟩
      · cases h

end Shape

theorem quoted_subset_of_encode {keyword : Text} {operands : List Text}
    (h : encode labels keyword operands = .error cause) :
    cause.quoted ⊆ keyword ∨ ∃ operand ∈ operands, cause.quoted ⊆ operand := by
  cases hname : Operation.ofKeyword? keyword with
  | none =>
      simp only [encode_eq_shape, Shape.parse, hname] at h
      cases h
      exact .inl (List.Subset.refl keyword)
  | some op =>
      obtain rfl := Operation.eq_keyword_of_ofKeyword? hname
      simp only [encode_eq_shape, Shape.parse, hname] at h
      rcases bind_eq_error_iff.mp h with h | ⟨shape, hshape, h⟩
      · exact Shape.quoted_subset_of_ofOperands h
      · obtain ⟨token, htarget, hquoted⟩ := Shape.quoted_subset_of_toWord h
        exact .inr ⟨token, Shape.target_mem_of_ofOperands hshape token htarget, hquoted⟩

/-! ## Lines -/

/-- The failure of a statement quotes its keyword or from its operands. -/
theorem Statement.FailsWith.quoted_subset {s : Statement} {counter : Int}
    (h : s.FailsWith labels counter cause) :
    cause.quoted ⊆ s.keyword ∨ cause.quoted ⊆ s.operands := by
  cases h with
  | location hloc herror =>
      rw [hloc]
      exact Operand.quoted_subset_of_location herror
  | word hloc herror =>
      unfold Statement.word at herror
      split at herror
      · next hdata =>
          rw [hdata]
          exact Operand.quoted_subset_of_data herror
      · rcases quoted_subset_of_encode herror with hquoted | ⟨operand, hmem, hquoted⟩
        · exact .inl hquoted
        · exact .inr (List.Subset.trans hquoted (subset_of_mem_splitOperands hmem))
  | overflow hloc hword hmax => exact .inl (List.nil_subset s.keyword)

/-- What is quoted in a complaint about a line stands in that line. -/
theorem Emission.quoted_subset_of_mem_complaints {rule : LabelRule} {e : Emission} {raw : Text}
    {d : Diagnostic} (h : d ∈ e.complaints rule labels raw) : d.cause.quoted ⊆ raw := by
  unfold complaints at h
  split at h
  · cases h
  · next s hparse =>
      have hparts := Statement.partsWithin_of_parse hparse
      rcases List.mem_append.mp h with h | h
      · obtain ⟨name, hlabel, rfl⟩ := redeclaration_eq_some (Option.mem_toList.mp h)
        exact hparts.label name hlabel
      · rcases (failsWith_of_failure hparse (Option.mem_toList.mp h)).quoted_subset with hq | hq
        · exact List.Subset.trans hq hparts.keyword
        · exact List.Subset.trans hq hparts.operands

end WordMachine
