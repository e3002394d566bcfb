import Mathlib.Data.List.Basic
import WordMachine.Proofs.Text.WhiteSpace

/-!
# Blank lines of a text

A line is blank if it is empty or all white space, that is if it has no fields. The carriage return
that a reader drops from the end of a line is white space and belongs to no field. Blank lines can
be written out as copies of the last line before them that is not blank.
-/

namespace WordMachine

namespace Glyph

/-- There are no fields exactly if all glyphs are blanks. -/
theorem fieldsLoop_eq_nil_iff (gs : List Glyph) (current : Text) (done : List Text) :
    fieldsLoop current done gs = [] ↔
      current = [] ∧ done = [] ∧ ∀ g ∈ gs, g.isBlank = true := by
  induction gs generalizing current done with
  | nil => cases current <;> simp [fieldsLoop]
  | cons g rest ih =>
      cases g with
      | blank encoding => cases current <;> simp [fieldsLoop, ih, isBlank]
      | ink b => simp [fieldsLoop, ih, isBlank]

/-- A blank at the end makes no difference to the fields. -/
theorem fieldsLoop_append_blank (gs : List Glyph) (encoding current : Text) (done : List Text) :
    fieldsLoop current done (gs ++ [.blank encoding]) = fieldsLoop current done gs := by
  induction gs generalizing current done with
  | nil => cases current <;> simp [fieldsLoop]
  | cons g rest ih => cases g <;> exact ih _ _

end Glyph

namespace Text

/-- A line that is empty or all white space. -/
def isBlankLine (t : Text) : Bool := (glyphs t).all Glyph.isBlank

theorem fields_eq_nil_iff (t : Text) : fields t = [] ↔ t.isBlankLine = true := by
  simp [fields, Glyph.fieldsLoop_eq_nil_iff, isBlankLine]

/-- The carriage return at the end of a line belongs to no field. -/
theorem fields_dropLastByte (t : Text) : fields (dropLastByte carriageReturn t) = fields t := by
  unfold dropLastByte
  split
  · next hlast =>
      have hsplit : t.dropLast ++ [carriageReturn] = t :=
        List.dropLast_append_getLast? carriageReturn hlast
      have hfresh : StartsFresh [carriageReturn] := by
        intro b hb
        cases hb
        rfl
      have hglyphs : glyphs t = glyphs t.dropLast ++ [.blank [carriageReturn]] :=
        calc
          glyphs t = glyphs (t.dropLast ++ [carriageReturn]) := by rw [hsplit]
          _ = glyphs t.dropLast ++ glyphs [carriageReturn] := glyphs_append hfresh t.dropLast
      rw [fields, fields, hglyphs, Glyph.fieldsLoop_append_blank]
  · rfl

/-! ## Writing out blank lines -/

/-- Writes out the blank lines of a script: each becomes a copy of the last line before it that is
not blank. Blank lines with no such line before them stay. -/
def repeatBlanks (last : Option Text) : List Text → List Text
  | [] => []
  | t :: rest =>
    if t.isBlankLine then last.getD t :: repeatBlanks last rest else t :: repeatBlanks (some t) rest

theorem mem_of_mem_repeatBlanks {last : Option Text} {lines : List Text} {t : Text}
    (h : t ∈ repeatBlanks last lines) : t ∈ last ∨ t ∈ lines := by
  induction lines generalizing last with
  | nil => cases h
  | cons first rest ih =>
      unfold repeatBlanks at h
      split at h
      · rcases List.mem_cons.mp h with rfl | h
        · cases last <;> simp
        · exact (ih h).imp id (List.mem_cons_of_mem first)
      · rcases List.mem_cons.mp h with rfl | h
        · exact .inr List.mem_cons_self
        · rcases ih h with h | h
          · cases h
            exact .inr List.mem_cons_self
          · exact .inr (List.mem_cons_of_mem first h)

end Text

end WordMachine
