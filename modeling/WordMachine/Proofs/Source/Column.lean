import WordMachine.Proofs.Source.Head

/-!
# The column of a statement

The column of a statement counts the bytes before its keyword, blanks of several bytes and bytes
that are no valid text included. On a line that holds a label and no keyword, it is the column of
the label.
-/

namespace WordMachine

namespace Statement

/-- What the column of a statement points at: the keyword, or the label and its colon on a line that
holds nothing else. -/
def pointed (s : Statement) : Text :=
  match s.label with
  | none => s.keyword
  | some name => if s.keyword.isEmpty then name ++ [Text.colon] else s.keyword

theorem flatten_eq_token_append (gs : List Glyph) :
    Glyph.flatten gs = token gs ++ Glyph.flatten (gs.dropWhile Glyph.isInk) := by
  rw [token, ← Glyph.flatten_append, List.takeWhile_append_dropWhile]

/-- The bytes that are skipped stand before what follows the token. -/
theorem exists_skipped (gs : List Glyph) :
    ∃ skipped, Glyph.flatten gs = skipped ++ Glyph.flatten (afterToken gs) ∧
      tokenSkip gs = skipped.length := by
  have hblanks : Glyph.flatten (gs.dropWhile Glyph.isInk) =
      Glyph.flatten ((gs.dropWhile Glyph.isInk).takeWhile Glyph.isBlank) ++
        Glyph.flatten (afterToken gs) := by
    rw [afterToken, Glyph.trimStart, ← Glyph.flatten_append, List.takeWhile_append_dropWhile]
  have hbytes := flatten_eq_token_append gs
  rw [hblanks, ← List.append_assoc] at hbytes
  refine ⟨_, hbytes, ?_⟩
  have hlength := congrArg List.length hbytes
  rw [List.length_append] at hlength
  rw [tokenSkip, hlength, Nat.add_sub_cancel]

/-- What a statement points at stands as far behind the beginning of its glyphs as its column says,
and it is never empty. -/
theorem exists_pointed_ofGlyphs (column : Nat) {gs : List Glyph} (h : token gs ≠ []) :
    ∃ before after, Glyph.flatten gs = before ++ (ofGlyphs column gs).pointed ++ after ∧
      (ofGlyphs column gs).column = column + before.length ∧ (ofGlyphs column gs).pointed ≠ [] := by
  rcases ofGlyphs_cases column gs with ⟨-, hs⟩ | ⟨name, hname, -, hs⟩ | ⟨name, -, hrest, hs⟩
  · rw [hs]
    exact ⟨[], _, flatten_eq_token_append gs, rfl, h⟩
  · obtain ⟨-, htoken⟩ := labelName?_eq_some_iff.mp hname
    rw [hs]
    simp only [pointed, List.isEmpty_nil, if_true]
    rw [← htoken]
    exact ⟨[], _, flatten_eq_token_append gs, rfl, h⟩
  · obtain ⟨skipped, hbytes, hskip⟩ := exists_skipped gs
    have hkeyword : token (afterToken gs) ≠ [] := token_ne_nil hrest
    rw [hs]
    simp only [pointed, List.isEmpty_iff, hkeyword, if_false]
    refine ⟨skipped, Glyph.flatten ((afterToken gs).dropWhile Glyph.isInk), ?_, ?_, hkeyword⟩
    · rw [List.append_assoc, ← flatten_eq_token_append]
      exact hbytes
    · exact congrArg (column + ·) hskip

/-- What a statement points at stands in its line, behind as many bytes as its column says. -/
theorem exists_pointed_of_parse {raw : Text} {s : Statement} (h : parse raw = some s) :
    ∃ before after, raw = before ++ s.pointed ++ after ∧ s.column = before.length + 1 ∧
      s.pointed ≠ [] := by
  simp only [parse] at h
  split at h
  · cases h
  · next hinked =>
      cases h
      generalize hgs : Glyph.trimEnd (Text.glyphs (code raw)) = gs at hinked ⊢
      obtain ⟨blanks, hcode, -⟩ := Glyph.exists_trimEnd_append (Text.glyphs (code raw))
      rw [hgs] at hcode
      have htoken : token (gs.dropWhile Glyph.isBlank) ≠ [] :=
        token_ne_nil (by simpa [Glyph.trimStart] using hinked)
      obtain ⟨before, after, hbytes, hcolumn, hpointed⟩ := exists_pointed_ofGlyphs
        ((Glyph.flatten (gs.takeWhile Glyph.isBlank)).length + 1) htoken
      -- The line in four parts: indentation, statement, blanks after it, and comment.
      have hraw : raw = Glyph.flatten (gs.takeWhile Glyph.isBlank) ++
          Glyph.flatten (gs.dropWhile Glyph.isBlank) ++ Glyph.flatten blanks ++
            raw.dropWhile (· ≠ Text.semicolon) := by
        rw [← Glyph.flatten_append, List.takeWhile_append_dropWhile, ← Glyph.flatten_append,
          ← hcode, Text.flatten_glyphs, code, List.takeWhile_append_dropWhile]
      refine ⟨Glyph.flatten (gs.takeWhile Glyph.isBlank) ++ before,
        after ++ Glyph.flatten blanks ++ raw.dropWhile (· ≠ Text.semicolon), ?_, ?_, hpointed⟩
      · rw [hbytes] at hraw
        simpa only [List.append_assoc] using hraw
      · rw [hcolumn, List.length_append]
        omega

/-- The column of a statement lies in its line, and the line goes on there with what the statement
points at. -/
theorem pointed_at_column {raw : Text} {s : Statement} (h : parse raw = some s) :
    1 ≤ s.column ∧ s.column ≤ raw.length ∧ s.pointed ≠ [] ∧
      s.pointed <+: raw.drop (s.column - 1) := by
  obtain ⟨before, after, hraw, hcolumn, hpointed⟩ := exists_pointed_of_parse h
  have hlength := List.length_pos_iff.mpr hpointed
  refine ⟨by omega, ?_, hpointed, after, ?_⟩
  · rw [hraw, hcolumn, List.length_append, List.length_append]
    omega
  · have hdrop := congrArg (List.drop before.length) hraw
    rw [List.append_assoc, List.drop_left] at hdrop
    rw [hcolumn, Nat.add_sub_cancel, hdrop]

end Statement

end WordMachine
