import WordMachine.Proofs.Source.Statement
import WordMachine.Proofs.Text.WhiteSpace

/-!
# How a line is formatted

White space at either end of a line and a comment after it make no difference to the statement on
the line, except to the column that the statement stands in. A line of white space, with or without
a comment, holds no statement.
-/

namespace WordMachine

namespace Glyph

/-- Trimming the end first leaves the blanks at the head to be trimmed, unless there is nothing
else. -/
theorem trimStart_trimEnd_append {blanks : List Glyph} (h : ∀ g ∈ blanks, g.isBlank)
    (gs : List Glyph) :
    trimStart (trimEnd (blanks ++ gs)) = trimStart (trimEnd gs) := by
  rw [trimEnd, List.reverse_append, List.dropWhile_append]
  split
  · next hempty =>
      have hgs : trimEnd gs = [] := by
        rw [trimEnd, List.isEmpty_iff.mp hempty, List.reverse_nil]
      have hblanks : (blanks.reverse.dropWhile isBlank).reverse = [] := by
        simpa using fun g hg => h g hg
      rw [hgs, hblanks]
  · rw [List.reverse_append, List.reverse_reverse]
    exact trimStart_append h (trimEnd gs)

end Glyph

namespace Statement

/-- A statement without its place in the line. -/
def unplaced (s : Statement) : Statement := { s with column := 0 }

/-- Two lines hold the same statement, in whatever column, or none. -/
def ReadsAlike (raw raw' : Text) : Prop := (parse raw').map unplaced = (parse raw).map unplaced

theorem unplaced_ofGlyphs (column column' : Nat) (gs : List Glyph) :
    (ofGlyphs column gs).unplaced = (ofGlyphs column' gs).unplaced := by
  cases hname : labelName? (token gs) with
  | none => simp only [ofGlyphs, hname, unplaced]
  | some name =>
      by_cases hempty : (afterToken gs).isEmpty
      · simp only [ofGlyphs, hname, hempty, if_true, unplaced]
      · simp only [ofGlyphs, hname, hempty, Bool.false_eq_true, if_false, unplaced]

/-- A statement is read from the trimmed glyphs of the code alone. -/
theorem readsAlike_of_glyphs {raw raw' : Text}
    (h : Glyph.trimStart (Glyph.trimEnd (Text.glyphs (code raw'))) =
      Glyph.trimStart (Glyph.trimEnd (Text.glyphs (code raw)))) : ReadsAlike raw raw' := by
  unfold Glyph.trimStart at h
  simp only [ReadsAlike, parse, h]
  split
  · rfl
  · exact congrArg some (unplaced_ofGlyphs _ _ _)

/-! ## Code before a comment -/

theorem code_append_of_mem {t : Text} (h : Text.semicolon ∈ t) (rest : Text) :
    code (t ++ rest) = code t := by
  induction t with
  | nil => cases h
  | cons b t ih =>
      by_cases hb : b = Text.semicolon
      · simp [code, hb]
      · have hmem : Text.semicolon ∈ t := by
          rcases List.mem_cons.mp h with rfl | hmem
          · exact absurd rfl hb
          · exact hmem
        simpa [code, hb] using ih hmem

theorem code_append_of_not_mem {t : Text} (h : Text.semicolon ∉ t) (rest : Text) :
    code (t ++ rest) = t ++ code rest := by
  have hall : ∀ b ∈ t, decide (b ≠ Text.semicolon) = true := by
    intro b hb
    rw [decide_eq_true_eq]
    rintro rfl
    exact h hb
  rw [code, List.takeWhile_append_of_pos hall]
  rfl

theorem code_of_not_mem {t : Text} (h : Text.semicolon ∉ t) : code t = t := by
  simpa [code] using code_append_of_not_mem h []

theorem code_append_comment (raw text : Text) :
    code (raw ++ Text.semicolon :: text) = code raw := by
  by_cases h : Text.semicolon ∈ raw
  · exact code_append_of_mem h _
  · rw [code_append_of_not_mem h, code_of_not_mem h]
    simp [code]

/-! ## Lines that read alike -/

theorem readsAlike_refl (raw : Text) : ReadsAlike raw raw := rfl

theorem readsAlike_indent {blanks : Text} (h : blanks.IsWhiteSpace) (raw : Text) :
    ReadsAlike raw (blanks ++ raw) := by
  obtain ⟨hblank, happend⟩ := h.glyphs_append (code raw)
  apply readsAlike_of_glyphs
  rw [code_append_of_not_mem h.semicolon_not_mem, happend,
    Glyph.trimStart_trimEnd_append hblank]

theorem readsAlike_trail {blanks : Text} (h : blanks.IsWhiteSpace) (raw : Text) :
    ReadsAlike raw (raw ++ blanks) := by
  apply readsAlike_of_glyphs
  by_cases hcomment : Text.semicolon ∈ raw
  · rw [code_append_of_mem hcomment]
  · obtain ⟨hblank, -⟩ := h.glyphs_append []
    rw [code_append_of_not_mem hcomment, code_of_not_mem hcomment,
      code_of_not_mem h.semicolon_not_mem, Text.glyphs_append h.startsFresh,
      Glyph.trimEnd_append hblank]

theorem readsAlike_comment (raw text : Text) :
    ReadsAlike raw (raw ++ Text.semicolon :: text) := by
  apply readsAlike_of_glyphs
  rw [code_append_comment]

/-- A line of white space, with or without a comment after it. -/
inductive IsVacant : Text → Prop
  | blank {blanks : Text} : blanks.IsWhiteSpace → IsVacant blanks
  | comment {blanks : Text} (text : Text) : blanks.IsWhiteSpace →
      IsVacant (blanks ++ Text.semicolon :: text)

theorem IsVacant.parse_eq_none {raw : Text} (h : IsVacant raw) : parse raw = none := by
  -- The empty line reads like any other line of white space.
  have hempty : parse [] = none := rfl
  have hblank {blanks : Text} (hspace : blanks.IsWhiteSpace) : parse blanks = none := by
    have hread : ReadsAlike [] ([] ++ blanks) := readsAlike_trail hspace []
    simpa [ReadsAlike, hempty] using hread
  cases h with
  | blank hspace => exact hblank hspace
  | @comment blanks text hspace =>
      have hread := readsAlike_comment blanks text
      rw [ReadsAlike, hblank hspace] at hread
      simpa using hread

end Statement

end WordMachine
