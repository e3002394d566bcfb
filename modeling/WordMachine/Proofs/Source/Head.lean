import WordMachine.Proofs.Source.Statement

/-!
# The head of a line

A line declares a label exactly if the code of the line begins with the label and a colon. Blanks
may stand before the label, and a blank or the end of the code comes after the colon. So the colon
belongs to the label in front of it and never to the statement behind it.
-/

namespace WordMachine

namespace Glyph

theorem isBlank_of_not_isInk {g : Glyph} (h : ¬ g.isInk) : g.isBlank := by
  cases g with
  | blank encoding => rfl
  | ink b => exact absurd rfl h

theorem map_ink_flatten {gs : List Glyph} (h : ∀ g ∈ gs, g.isInk) : (flatten gs).map .ink = gs := by
  induction gs with
  | nil => rfl
  | cons g rest ih =>
      have hrest := ih fun other hother => h other (List.mem_cons_of_mem g hother)
      have hink := h g List.mem_cons_self
      cases g with
      | blank encoding => cases hink
      | ink b => exact congrArg (.ink b :: ·) hrest

end Glyph

namespace Statement

/-- The first token ends before a blank. -/
theorem token_append {rest : List Glyph} (h : ∀ g ∈ rest.head?, g.isBlank) (gs : List Glyph) :
    token (gs ++ rest) = token gs := by
  have hnone : rest.takeWhile Glyph.isInk = [] := by
    cases rest with
    | nil => rfl
    | cons g after => simp [Glyph.isInk, h g rfl]
  rw [token, token, List.takeWhile_append, hnone, List.append_nil]
  split
  · next hall => rw [(List.takeWhile_prefix Glyph.isInk).eq_of_length hall]
  · rfl

theorem token_trimStart_trimEnd (gs : List Glyph) :
    token (Glyph.trimStart (Glyph.trimEnd gs)) = token (Glyph.trimStart gs) := by
  obtain ⟨blanks, hgs, hblanks⟩ := Glyph.exists_trimEnd_append gs
  generalize Glyph.trimEnd gs = kept at hgs ⊢
  rw [hgs, Glyph.trimStart, Glyph.trimStart, List.dropWhile_append]
  split
  · next hempty => rw [List.isEmpty_iff.mp hempty, List.dropWhile_eq_nil_iff.mpr hblanks]
  · exact (token_append (fun g hg => hblanks g (List.mem_of_mem_head? hg)) _).symm

theorem labelName?_eq_some_iff {head name : Text} :
    labelName? head = some name ↔ name ≠ [] ∧ head = name ++ [Text.colon] := by
  unfold labelName?
  constructor
  · intro h
    split at h
    · next hhead =>
        obtain ⟨init, hinit⟩ := List.getLast?_eq_some_iff.mp hhead.2
        obtain ⟨hlength, -⟩ := hhead
        subst hinit
        rw [List.dropLast_concat] at h
        obtain rfl := Option.some.inj h
        refine ⟨?_, rfl⟩
        rintro rfl
        exact absurd hlength (by decide)
    · cases h
  · rintro ⟨hname, rfl⟩
    have hlength : 1 < (name ++ [Text.colon]).length := by
      rw [List.length_append, List.length_singleton]
      have := List.length_pos_iff.mpr hname
      omega
    rw [if_pos ⟨hlength, List.getLast?_concat⟩, List.dropLast_concat]

/-- The code of a line begins with a name and a colon, with nothing but blanks before the name and
no ink right after the colon. -/
def HeadedBy (raw name : Text) : Prop :=
  ∃ indent rest, Text.glyphs (code raw) = indent ++ (name ++ [Text.colon]).map .ink ++ rest ∧
    (∀ g ∈ indent, g.isBlank) ∧ ∀ g ∈ rest.head?, g.isBlank

theorem headedBy_iff {raw name : Text} :
    HeadedBy raw name ↔
      token (Glyph.trimStart (Text.glyphs (code raw))) = name ++ [Text.colon] := by
  constructor
  · rintro ⟨indent, rest, hcode, hindent, hrest⟩
    have hink : ∀ g ∈ (name ++ [Text.colon]).map Glyph.ink, g.isInk := by
      intro g hg
      obtain ⟨b, -, rfl⟩ := List.mem_map.mp hg
      rfl
    have hstart : Glyph.trimStart (Text.glyphs (code raw)) =
        (name ++ [Text.colon]).map .ink ++ rest := by
      rw [hcode, List.append_assoc, Glyph.trimStart, List.dropWhile_append_of_pos hindent]
      exact Glyph.trimStart_map_ink_append (by simp) rest
    rw [hstart, token_append hrest, (token_of_ink hink).1, Glyph.flatten_map_ink]
  · intro h
    generalize hgs : Glyph.trimStart (Text.glyphs (code raw)) = gs at h
    have hink : ∀ g ∈ gs.takeWhile Glyph.isInk, g.isInk := fun g hg => List.mem_takeWhile_imp hg
    refine ⟨(Text.glyphs (code raw)).takeWhile Glyph.isBlank, gs.dropWhile Glyph.isInk, ?_,
      fun g hg => List.mem_takeWhile_imp hg, ?_⟩
    · rw [← h, token, Glyph.map_ink_flatten hink, List.append_assoc,
        List.takeWhile_append_dropWhile, ← hgs]
      exact List.takeWhile_append_dropWhile.symm
    · intro g hg
      have hstop := List.head?_dropWhile_not Glyph.isInk gs
      rw [Option.mem_def.mp hg] at hstop
      exact Glyph.isBlank_of_not_isInk (by simpa using hstop)

/-- The label of a line is the name at its head. -/
theorem label_of_parse_iff {raw name : Text} :
    (parse raw).bind label = some name ↔ name ≠ [] ∧ HeadedBy raw name := by
  have hlabel : (parse raw).bind label =
      labelName? (token (Glyph.trimStart (Text.glyphs (code raw)))) := by
    rw [← token_trimStart_trimEnd]
    simp only [parse]
    split
    · next hempty =>
        rw [Glyph.trimStart, List.isEmpty_iff.mp hempty]
        rfl
    · rw [Option.bind_some, label_ofGlyphs, Glyph.trimStart]
  rw [hlabel, labelName?_eq_some_iff, headedBy_iff]

end Statement

end WordMachine
