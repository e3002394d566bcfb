import WordMachine.Proofs.Source.Formatting
import WordMachine.Proofs.Source.Operands

/-!
# Statements written and read again

A keyword and operands of plain text, written on a line with a space between them and commas between
the operands, are read as that keyword and those operands.
-/

namespace WordMachine.Statement

/-! ## A keyword and the text after it -/

theorem token_map_ink_append (t encoding : Text) (gs : List Glyph) :
    token (t.map .ink ++ .blank encoding :: gs) = t := by
  have hink : ∀ g ∈ t.map Glyph.ink, g.isInk := by simp [Glyph.isInk, Glyph.isBlank]
  rw [token, List.takeWhile_append_of_pos hink,
    List.takeWhile_cons_of_neg (by simp [Glyph.isInk, Glyph.isBlank]), List.append_nil,
    Glyph.flatten_map_ink]

theorem afterToken_map_ink_append (t encoding : Text) {operands : Text} (h : operands ≠ []) :
    afterToken (t.map .ink ++ .blank encoding :: operands.map .ink) = operands.map .ink := by
  have hink : ∀ g ∈ t.map Glyph.ink, g.isInk := by simp [Glyph.isInk, Glyph.isBlank]
  have hstart := Glyph.trimStart_map_ink_append h []
  rw [List.append_nil] at hstart
  rw [afterToken, List.dropWhile_append_of_pos hink,
    List.dropWhile_cons_of_neg (by simp [Glyph.isInk, Glyph.isBlank])]
  exact hstart

/-- A line of a keyword and operands holds a statement without a label, unless the keyword looks
like one. -/
theorem parse_keyword_operands {keyword operands : Text} (hk : ∀ b ∈ keyword, Text.isPlain b)
    (ho : ∀ b ∈ operands, Text.isPlain b) (hk' : keyword ≠ []) (ho' : operands ≠ [])
    (hcomment : Text.semicolon ∉ keyword ++ [Text.space] ++ operands)
    (hlabel : labelName? keyword = none) :
    parse (keyword ++ [Text.space] ++ operands) =
      some ⟨none, keyword ++ [Text.space] ++ operands, keyword, operands, 1⟩ := by
  let gs : List Glyph := keyword.map .ink ++ .blank [Text.space] :: operands.map .ink
  have hglyphs : Text.glyphs (keyword ++ [Text.space] ++ operands) = gs := Text.glyphs_pair hk ho
  have hend : Glyph.trimEnd gs = gs := by
    simp only [gs]
    rw [List.append_cons, Glyph.trimEnd_append_map_ink ho']
  have hstart : gs.dropWhile Glyph.isBlank = gs := Glyph.trimStart_map_ink_append hk' _
  have hindent : gs.takeWhile Glyph.isBlank = [] := by
    obtain ⟨b, rest, rfl⟩ := List.exists_cons_of_ne_nil hk'
    rfl
  have hinked : gs.isEmpty = false := by simp [gs]
  have htoken : token gs = keyword := token_map_ink_append keyword _ _
  have hafter : afterToken gs = operands.map .ink := afterToken_map_ink_append keyword _ ho'
  have hbody : Glyph.flatten gs = keyword ++ [Text.space] ++ operands := by
    rw [← hglyphs, Text.flatten_glyphs]
  simp only [parse, code_of_not_mem hcomment, hglyphs, hend, hindent, hstart, hinked, ofGlyphs,
    htoken, hlabel, hafter, hbody, Glyph.flatten_map_ink]
  rfl

/-! ## Operands -/

/-- Operands that are joined by commas are cut apart at the same places. -/
theorem splitOperands_intercalate {operands : List Text} (hne : ∀ t ∈ operands, t ≠ [])
    (hplain : ∀ t ∈ operands, ∀ b ∈ t, Text.isPlain b)
    (hcomma : ∀ t ∈ operands, Text.comma ∉ t) :
    splitOperands ([Text.comma].intercalate operands) = operands := by
  apply splitOperands_of_isWritten (isWritten_intercalate operands)
  constructor
  · intro t ht
    have htrim := Text.isTrimOf_trim t
    rw [Text.trim_of_plain (hplain t ht)] at htrim
    exact ⟨hcomma t ht, htrim.head, htrim.last⟩
  · intro hlast
    exact hne [] (List.mem_of_getLast? hlast) rfl

end WordMachine.Statement
