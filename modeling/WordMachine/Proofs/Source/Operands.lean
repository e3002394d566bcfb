import Mathlib.Data.List.DropRight
import Mathlib.Data.List.Forall2
import WordMachine.Proofs.Source.Statement
import WordMachine.Proofs.Text.Fields

/-!
# Operands written and read again

Operands are written with commas between them and white space around them, and with any number of
commas and any white space behind the last one. Splitting finds exactly the operands that have been
written, and every text has been written like this for one list of operands.
-/

namespace WordMachine

/-- White space at the end makes no difference to what trimming leaves. -/
theorem Text.trim_append {after : Text} (h : after.IsWhiteSpace) (t : Text) :
    trim (t ++ after) = trim t := by
  have hglyphs : glyphs (t ++ after) = [] ++ glyphs t ++ glyphs after :=
    glyphs_append h.startsFresh t
  rw [trim, hglyphs, Glyph.trim_append_append (by simp) (isWhiteSpace_iff.mp h), trim]

/-- Nor does white space at the head. -/
theorem Text.trim_prepend {before : Text} (h : before.IsWhiteSpace) (t : Text) :
    trim (before ++ t) = trim t := by
  have hglyphs : glyphs (before ++ t) = glyphs before ++ glyphs t ++ [] := by
    rw [(h.glyphs_append t).2, List.append_nil]
  rw [trim, hglyphs, Glyph.trim_append_append (isWhiteSpace_iff.mp h) (by simp), trim]

namespace Statement

/-! ## Writing operands -/

/-- An operand has no comma, and no white space at its ends. It may be empty. -/
structure IsOperand (t : Text) : Prop where
  noComma : Text.comma ∉ t
  head : ∀ c ∈ Text.whiteSpace, ¬ Text.ofScalar c <+: t
  last : ∀ c ∈ Text.whiteSpace, ¬ Text.ofScalar c <:+ t

/-- Operands of which the last, if there is one, is not empty. -/
structure IsOperandList (operands : List Text) : Prop where
  operand : ∀ t ∈ operands, IsOperand t
  last : operands.getLast? ≠ some []

/-- A piece is an operand with white space around it. -/
def IsPadded (operand piece : Text) : Prop :=
  ∃ before after, before.IsWhiteSpace ∧ after.IsWhiteSpace ∧ piece = before ++ operand ++ after

/-- A text of commas and white space only. -/
inductive IsFiller : Text → Prop
  | nil : IsFiller []
  | comma {rest : Text} : IsFiller rest → IsFiller (Text.comma :: rest)
  | blank {blanks rest : Text} : blanks.IsWhiteSpace → IsFiller rest → IsFiller (blanks ++ rest)

/-- A text is one piece for each operand, joined by commas, and a filler at the end. -/
def IsWritten (operands : List Text) (text : Text) : Prop :=
  ∃ pieces filler, List.Forall₂ IsPadded operands pieces ∧ IsFiller filler ∧
    text = [Text.comma].intercalate pieces ++ filler

theorem isPadded_refl (operand : Text) : IsPadded operand operand :=
  ⟨[], [], .nil, .nil, by rw [List.nil_append, List.append_nil]⟩

/-- Operands can be written with nothing but commas between them. -/
theorem isWritten_intercalate (operands : List Text) :
    IsWritten operands ([Text.comma].intercalate operands) :=
  ⟨operands, [], List.forall₂_same.mpr fun operand _ => isPadded_refl operand, .nil,
    (List.append_nil _).symm⟩

/-! ## Splitting what has been written -/

/-- Trimming the whole text first, and looking whether it is blank, makes no difference. -/
theorem splitOperands_eq_rdropWhile (text : Text) :
    splitOperands text =
      ((Text.split Text.comma text).map Text.trim).rdropWhile List.isEmpty := by
  have htrimmed : splitOperands text =
      ((Text.split Text.comma text.trim).map Text.trim).rdropWhile List.isEmpty := by
    simp only [splitOperands]
    split
    · next hempty =>
        rw [List.isEmpty_iff.mp hempty]
        rfl
    · rfl
  obtain ⟨before, after, hbefore, hafter, htext⟩ := (Text.isTrimOf_trim text).around
  have hpieces : (Text.split Text.comma text).map Text.trim =
      (Text.split Text.comma text.trim).map Text.trim :=
    calc
      (Text.split Text.comma text).map Text.trim =
          (Text.split Text.comma (before ++ text.trim ++ after)).map Text.trim := by rw [← htext]
      _ = (Text.split Text.comma (before ++ text.trim)).map Text.trim :=
        Text.map_split_append hafter.comma_not_mem (Text.trim_append hafter) _
      _ = (Text.split Text.comma text.trim).map Text.trim :=
        Text.map_split_prepend hbefore.comma_not_mem (Text.trim_prepend hbefore) _
  rw [htrimmed, hpieces]

theorem splitOperands_append_comma (text : Text) :
    splitOperands (text ++ [Text.comma]) = splitOperands text := by
  rw [splitOperands_eq_rdropWhile, Text.split_concat, List.map_append, splitOperands_eq_rdropWhile]
  exact List.rdropWhile_concat_pos _ _ _ rfl

theorem splitOperands_append_blank {blanks : Text} (h : blanks.IsWhiteSpace) (text : Text) :
    splitOperands (text ++ blanks) = splitOperands text := by
  rw [splitOperands_eq_rdropWhile, Text.map_split_append h.comma_not_mem (Text.trim_append h),
    splitOperands_eq_rdropWhile]

/-- A filler at the end adds no operand. -/
theorem splitOperands_append_filler {filler : Text} (h : IsFiller filler) (text : Text) :
    splitOperands (text ++ filler) = splitOperands text := by
  induction h generalizing text with
  | nil => rw [List.append_nil]
  | comma _ ih => rw [List.append_cons, ih, splitOperands_append_comma]
  | blank hblanks _ ih => rw [← List.append_assoc, ih, splitOperands_append_blank hblanks]

theorem trim_of_isPadded {operand piece : Text} (h : IsPadded operand piece)
    (hoperand : IsOperand operand) : piece.trim = operand :=
  Text.IsTrimOf.trim_eq ⟨h, hoperand.head, hoperand.last⟩

theorem comma_not_mem_of_isPadded {operand piece : Text} (h : IsPadded operand piece)
    (hoperand : IsOperand operand) : Text.comma ∉ piece := by
  obtain ⟨before, after, hbefore, hafter, rfl⟩ := h
  simp [hbefore.comma_not_mem, hoperand.noComma, hafter.comma_not_mem]

/-- The pieces of a text are cut at its commas, and each is trimmed to its operand. -/
theorem map_trim_of_isPadded {operands pieces : List Text}
    (h : List.Forall₂ IsPadded operands pieces) (hoperand : ∀ t ∈ operands, IsOperand t) :
    pieces.map Text.trim = operands ∧ ∀ piece ∈ pieces, Text.comma ∉ piece := by
  induction h with
  | nil => exact ⟨rfl, by simp⟩
  | cons hpiece _ ih =>
      obtain ⟨hfirst, hothers⟩ := List.forall_mem_cons.mp hoperand
      obtain ⟨htrim, hcomma⟩ := ih hothers
      constructor
      · rw [List.map_cons, trim_of_isPadded hpiece hfirst, htrim]
      · exact List.forall_mem_cons.mpr ⟨comma_not_mem_of_isPadded hpiece hfirst, hcomma⟩

/-- Operands that have been written are found again. -/
theorem splitOperands_of_isWritten {operands : List Text} {text : Text}
    (h : IsWritten operands text) (hoperands : IsOperandList operands) :
    splitOperands text = operands := by
  obtain ⟨pieces, filler, hpieces, hfiller, rfl⟩ := h
  obtain ⟨htrim, hcomma⟩ := map_trim_of_isPadded hpieces hoperands.operand
  rw [splitOperands_append_filler hfiller]
  by_cases hnone : pieces = []
  · rw [← htrim, hnone]
    rfl
  · rw [splitOperands_eq_rdropWhile, Text.split_intercalate hcomma hnone, htrim,
      List.rdropWhile_eq_self_iff]
    intro hne hempty
    apply hoperands.last
    rw [List.getLast?_eq_some_getLast hne, List.isEmpty_iff.mp hempty]

/-! ## Every text has been written -/

theorem isOperand_trim {piece : Text} (h : Text.comma ∉ piece) : IsOperand piece.trim :=
  { noComma := fun hmem => h (Text.trim_subset piece hmem)
    head := (Text.isTrimOf_trim piece).head
    last := (Text.isTrimOf_trim piece).last }

theorem isOperandList_splitOperands (text : Text) : IsOperandList (splitOperands text) where
  operand t ht := by
    rw [splitOperands_eq_rdropWhile] at ht
    have hmem := List.IsPrefix.subset (List.rdropWhile_prefix _ _) ht
    obtain ⟨piece, hpiece, rfl⟩ := List.mem_map.mp hmem
    exact isOperand_trim fun hcomma => (Text.mem_of_mem_split hpiece hcomma).2 rfl
  last hlast := by
    rw [splitOperands_eq_rdropWhile] at hlast
    have hne : ((Text.split Text.comma text).map Text.trim).rdropWhile List.isEmpty ≠ [] := by
      intro hnil
      rw [hnil] at hlast
      cases hlast
    have hkept := List.rdropWhile_last_not List.isEmpty _ hne
    rw [List.getLast?_eq_some_getLast hne] at hlast
    exact hkept (List.isEmpty_iff.mpr (Option.some.inj hlast))

theorem intercalate_concat {pieces : List Text} (h : pieces ≠ []) (piece : Text) :
    [Text.comma].intercalate (pieces ++ [piece]) =
      [Text.comma].intercalate pieces ++ Text.comma :: piece := by
  induction pieces with
  | nil => exact absurd rfl h
  | cons first rest ih =>
      by_cases hrest : rest = []
      · simp [hrest]
      · rw [List.cons_append, List.intercalate_cons_of_ne_nil (by simp), ih hrest,
          List.intercalate_cons_of_ne_nil hrest, List.append_assoc _ _ (_ :: piece)]

/-- Blank pieces at the end are a filler. -/
theorem exists_filler_of_blank (kept : List Text) {dropped : List Text}
    (h : ∀ piece ∈ dropped, piece.IsWhiteSpace) :
    ∃ filler, IsFiller filler ∧ [Text.comma].intercalate (kept ++ dropped) =
      [Text.comma].intercalate kept ++ filler := by
  induction dropped generalizing kept with
  | nil => exact ⟨[], .nil, by simp⟩
  | cons piece dropped ih =>
      obtain ⟨hpiece, hdropped⟩ := List.forall_mem_cons.mp h
      obtain ⟨filler, hfiller, heq⟩ := ih (kept ++ [piece]) hdropped
      rw [List.append_cons, heq]
      by_cases hkept : kept = []
      · refine ⟨piece ++ filler, .blank hpiece hfiller, ?_⟩
        simp [hkept]
      · refine ⟨Text.comma :: (piece ++ filler), .comma (.blank hpiece hfiller), ?_⟩
        rw [intercalate_concat hkept, List.append_assoc, List.cons_append]

/-- Every text is written for the operands that splitting finds in it. -/
theorem isWritten_splitOperands (text : Text) : IsWritten (splitOperands text) text := by
  let operands := (Text.split Text.comma text).map Text.trim
  have hsplit : operands = splitOperands text ++ operands.rtakeWhile List.isEmpty := by
    rw [splitOperands_eq_rdropWhile]
    exact List.rdropWhile_append_rtakeWhile.symm
  obtain ⟨kept, dropped, hpieces, hkept, hdropped⟩ := List.map_eq_append_iff.mp hsplit
  have hblank : ∀ piece ∈ dropped, piece.IsWhiteSpace := by
    intro piece hpiece
    have hmem : piece.trim ∈ dropped.map Text.trim := List.mem_map_of_mem hpiece
    rw [hdropped] at hmem
    exact Text.isWhiteSpace_of_trim_eq_nil (List.isEmpty_iff.mp (List.mem_rtakeWhile_imp hmem))
  obtain ⟨filler, hfiller, htext⟩ := exists_filler_of_blank kept hblank
  refine ⟨kept, filler, ?_, hfiller, ?_⟩
  · rw [← hkept, List.forall₂_map_left_iff, List.forall₂_same]
    exact fun piece _ => (Text.isTrimOf_trim piece).around
  · rw [← htext, ← hpieces, Text.intercalate_split]

/-- Splitting gives the operands for which a text has been written, and no others. What it gives is
found again in the operands joined by commas. -/
theorem splitting_inverts_writing (text : Text) (operands : List Text) :
    (splitOperands text = operands ↔ IsOperandList operands ∧ IsWritten operands text) ∧
      splitOperands ([Text.comma].intercalate (splitOperands text)) = splitOperands text := by
  constructor
  · constructor
    · rintro rfl
      exact ⟨isOperandList_splitOperands text, isWritten_splitOperands text⟩
    · rintro ⟨hoperands, hwritten⟩
      exact splitOperands_of_isWritten hwritten hoperands
  · exact splitOperands_of_isWritten (isWritten_intercalate _) (isOperandList_splitOperands text)

/-- An empty operand is kept before another operand, and dropped at the end. -/
example : splitOperands (Text.ascii " 0,, 3 , ,") = [Text.ascii "0", [], Text.ascii "3"] := by
  decide +kernel

end Statement

end WordMachine
