import WordMachine.Proofs.Text.Glyph
import WordMachine.Proofs.Text.Lines
import WordMachine.Source.Statement

/-!
# Where the parts of a statement come from

Every byte of a label, a keyword or an operand stands in the line that it was read from. A line
without a statement begins with a blank or with its comment, if it is not empty.
-/

namespace WordMachine

namespace Glyph

theorem trimStart_subset (gs : List Glyph) : trimStart gs ⊆ gs := List.dropWhile_subset _

theorem trimEnd_subset (gs : List Glyph) : trimEnd gs ⊆ gs := by
  intro g hg
  have hreverse := List.dropWhile_subset isBlank (List.mem_reverse.mp hg)
  exact List.mem_reverse.mp hreverse

theorem flatten_subset_of_subset {gs hs : List Glyph} (h : gs ⊆ hs) : flatten gs ⊆ flatten hs := by
  intro b hb
  obtain ⟨g, hg, hbyte⟩ := List.mem_flatMap.mp hb
  exact List.mem_flatMap.mpr ⟨g, h hg, hbyte⟩

theorem trimEnd_cons_ink (b : UInt8) (gs : List Glyph) :
    trimEnd (.ink b :: gs) = .ink b :: trimEnd gs := by
  rw [trimEnd, List.reverse_cons, List.dropWhile_append]
  split
  · next hblank =>
      have hgs : trimEnd gs = [] := by
        rw [trimEnd, List.isEmpty_iff.mp hblank, List.reverse_nil]
      rw [hgs]
      rfl
  · rw [List.reverse_append]
    rfl

/-- Glyphs of a text whose bytes are all plain are ink. -/
theorem isInk_of_plain {gs : List Glyph} {t : Text} (hgs : gs ⊆ Text.glyphs t)
    (hplain : ∀ b ∈ flatten gs, Text.isPlain b) : ∀ g ∈ gs, g.isInk := by
  intro g hg
  cases g with
  | ink b => rfl
  | blank encoding =>
      obtain ⟨b, rest, rfl, hb⟩ := Text.exists_cons_of_blank_mem (hgs hg)
      have hmem : b ∈ flatten gs := List.mem_flatMap.mpr ⟨_, hg, List.mem_cons_self⟩
      rw [hplain b hmem] at hb
      cases hb

private theorem subset_of_mem_collected {current found bytes : Text} {done : List Text}
    (h : found ∈ if current.isEmpty then done else current.reverse :: done)
    (hcurrent : current ⊆ bytes) (hdone : ∀ t ∈ done, t ⊆ bytes) : found ⊆ bytes := by
  split at h
  · exact hdone found h
  · rcases List.mem_cons.mp h with rfl | h
    · intro b hb
      exact hcurrent (List.mem_reverse.mp hb)
    · exact hdone found h

theorem subset_of_mem_fieldsLoop {current found bytes : Text} {done : List Text} {gs : List Glyph}
    (h : found ∈ fieldsLoop current done gs) (hcurrent : current ⊆ bytes)
    (hdone : ∀ t ∈ done, t ⊆ bytes) (hgs : flatten gs ⊆ bytes) : found ⊆ bytes := by
  induction gs generalizing current done with
  | nil => exact subset_of_mem_collected (List.mem_reverse.mp h) hcurrent hdone
  | cons g rest ih =>
      have hhead : g.bytes ⊆ bytes := List.Subset.trans (List.subset_append_left _ _) hgs
      have hrest : flatten rest ⊆ bytes := List.Subset.trans (List.subset_append_right _ _) hgs
      cases g with
      | ink b => exact ih h (List.cons_subset.mpr ⟨hhead List.mem_cons_self, hcurrent⟩) hdone hrest
      | blank encoding =>
          apply ih h (List.nil_subset bytes) _ hrest
          intro t ht
          exact subset_of_mem_collected ht hcurrent hdone

end Glyph

/-- The bytes of a field stand in the text. -/
theorem Text.subset_of_mem_fields {t found : Text} (h : found ∈ fields t) : found ⊆ t := by
  apply Glyph.subset_of_mem_fieldsLoop h (List.nil_subset t)
  · simp
  · rw [flatten_glyphs]
    exact List.Subset.refl t

theorem Text.trim_subset (t : Text) : trim t ⊆ t := by
  have hglyphs : Glyph.trim (glyphs t) ⊆ glyphs t :=
    List.Subset.trans (Glyph.trimEnd_subset _) (Glyph.trimStart_subset _)
  have hbytes := Glyph.flatten_subset_of_subset hglyphs
  rwa [flatten_glyphs] at hbytes

namespace Statement

theorem code_subset (raw : Text) : code raw ⊆ raw := List.takeWhile_subset _

theorem token_subset (gs : List Glyph) : token gs ⊆ Glyph.flatten gs :=
  Glyph.flatten_subset_of_subset (List.takeWhile_subset _)

theorem afterToken_subset (gs : List Glyph) : afterToken gs ⊆ gs :=
  List.Subset.trans (Glyph.trimStart_subset _) (List.dropWhile_subset _)

theorem labelName?_subset {head name : Text} (h : labelName? head = some name) : name ⊆ head := by
  unfold labelName? at h
  split at h
  · cases h
    exact List.dropLast_subset head
  · cases h

/-- What is left when blanks are trimmed begins with a token. -/
theorem token_ne_nil {gs : List Glyph} (h : Glyph.trimStart gs ≠ []) :
    token (Glyph.trimStart gs) ≠ [] := by
  cases hg : Glyph.trimStart gs with
  | nil => exact absurd hg h
  | cons g rest =>
      have hhead := List.head?_dropWhile_not Glyph.isBlank gs
      rw [show gs.dropWhile Glyph.isBlank = g :: rest from hg, List.head?_cons] at hhead
      cases g with
      | blank encoding => simp [Glyph.isBlank] at hhead
      | ink byte => simp [token, Glyph.isInk, Glyph.isBlank, Glyph.flatten, Glyph.bytes]

/-- The parts of a statement are made of the given bytes. -/
structure PartsWithin (s : Statement) (bytes : Text) : Prop where
  label : ∀ name ∈ s.label, name ⊆ bytes
  keyword : s.keyword ⊆ bytes
  operands : s.operands ⊆ bytes

/-- A statement has no label, or a label and nothing else, or a label and a keyword. -/
theorem ofGlyphs_cases (column : Nat) (gs : List Glyph) :
    (labelName? (token gs) = none ∧ ofGlyphs column gs =
      ⟨none, Glyph.flatten gs, token gs, Glyph.flatten (afterToken gs), column⟩) ∨
    (∃ name, labelName? (token gs) = some name ∧ afterToken gs = [] ∧
      ofGlyphs column gs = ⟨some name, [], [], [], column⟩) ∨
    ∃ name, labelName? (token gs) = some name ∧ afterToken gs ≠ [] ∧ ofGlyphs column gs =
      ⟨some name, Glyph.flatten (afterToken gs), token (afterToken gs),
        Glyph.flatten (afterToken (afterToken gs)), column + tokenSkip gs⟩ := by
  cases hname : labelName? (token gs) with
  | none => exact .inl ⟨rfl, by simp only [ofGlyphs, hname]⟩
  | some name =>
      by_cases hempty : afterToken gs = []
      · refine .inr (.inl ⟨name, rfl, hempty, ?_⟩)
        simp only [ofGlyphs, hname, hempty, List.isEmpty_nil, if_true]
      · refine .inr (.inr ⟨name, rfl, hempty, ?_⟩)
        simp only [ofGlyphs, hname, List.isEmpty_iff, hempty, if_false]

theorem ofGlyphs_partsWithin (column : Nat) (gs : List Glyph) :
    (ofGlyphs column gs).PartsWithin (Glyph.flatten gs) := by
  have hrest : Glyph.flatten (afterToken gs) ⊆ Glyph.flatten gs :=
    Glyph.flatten_subset_of_subset (afterToken_subset gs)
  have hlabel {name : Text} (hname : labelName? (token gs) = some name) :
      ∀ found ∈ some name, found ⊆ Glyph.flatten gs := by
    rintro found ⟨⟩
    exact List.Subset.trans (labelName?_subset hname) (token_subset gs)
  rcases ofGlyphs_cases column gs with ⟨-, hs⟩ | ⟨name, hname, -, hs⟩ | ⟨name, hname, -, hs⟩
  · rw [hs]
    exact ⟨by simp, token_subset gs, hrest⟩
  · rw [hs]
    exact ⟨hlabel hname, List.nil_subset _, List.nil_subset _⟩
  · rw [hs]
    have hafter := Glyph.flatten_subset_of_subset (afterToken_subset (afterToken gs))
    exact ⟨hlabel hname, List.Subset.trans (token_subset _) hrest, List.Subset.trans hafter hrest⟩

theorem label_ofGlyphs (column : Nat) (gs : List Glyph) :
    (ofGlyphs column gs).label = labelName? (token gs) := by
  rcases ofGlyphs_cases column gs with ⟨hname, hs⟩ | ⟨name, hname, -, hs⟩ | ⟨name, hname, -, hs⟩
  · rw [hs, hname]
  · rw [hs, hname]
  · rw [hs, hname]

/-- A statement is read from glyphs of the code of its line. -/
theorem exists_glyphs_of_parse {raw : Text} {s : Statement} (h : parse raw = some s) :
    ∃ column gs, gs ⊆ Text.glyphs (code raw) ∧ s = ofGlyphs column gs := by
  simp only [parse] at h
  split at h
  · cases h
  · cases h
    exact ⟨_, _, List.Subset.trans (Glyph.trimStart_subset _) (Glyph.trimEnd_subset _), rfl⟩

/-- The bytes of a statement's parts stand in its line. -/
theorem partsWithin_of_parse {raw : Text} {s : Statement} (h : parse raw = some s) :
    s.PartsWithin raw := by
  obtain ⟨column, gs, hgs, rfl⟩ := exists_glyphs_of_parse h
  have hbytes : Glyph.flatten gs ⊆ raw := by
    have hcode := Glyph.flatten_subset_of_subset hgs
    rw [Text.flatten_glyphs] at hcode
    exact List.Subset.trans hcode (code_subset raw)
  have hparts := ofGlyphs_partsWithin column gs
  exact
    { label := fun name hname => List.Subset.trans (hparts.label name hname) hbytes
      keyword := List.Subset.trans hparts.keyword hbytes
      operands := List.Subset.trans hparts.operands hbytes }

theorem subset_of_mem_splitOperands {operands operand : Text}
    (h : operand ∈ splitOperands operands) : operand ⊆ operands := by
  simp only [splitOperands] at h
  split at h
  · cases h
  · have hpiece := List.dropWhile_subset _ (List.mem_reverse.mp h)
    obtain ⟨piece, hmem, rfl⟩ := List.mem_map.mp (List.mem_reverse.mp hpiece)
    intro b hb
    exact Text.trim_subset operands (Text.mem_of_mem_split hmem (Text.trim_subset piece hb)).1

/-! ## Statements that are one word -/

theorem token_of_ink {gs : List Glyph} (h : ∀ g ∈ gs, g.isInk) :
    token gs = Glyph.flatten gs ∧ afterToken gs = [] := by
  have htake : gs.takeWhile Glyph.isInk = gs := List.takeWhile_eq_self_iff.mpr h
  have hdrop : gs.dropWhile Glyph.isInk = [] := List.dropWhile_eq_nil_iff.mpr h
  constructor
  · rw [token, htake]
  · rw [afterToken, hdrop]
    rfl

/-- A body without any blank is a keyword without operands. -/
theorem keyword_of_plain_body {raw : Text} {s : Statement} (h : parse raw = some s)
    (hplain : ∀ b ∈ s.body, Text.isPlain b) : s.keyword = s.body ∧ s.operands = [] := by
  obtain ⟨column, gs, hgs, rfl⟩ := exists_glyphs_of_parse h
  rcases ofGlyphs_cases column gs with ⟨-, hs⟩ | ⟨name, -, -, hs⟩ | ⟨name, -, -, hs⟩
  · rw [hs] at hplain ⊢
    obtain ⟨htoken, hafter⟩ := token_of_ink (Glyph.isInk_of_plain hgs hplain)
    exact ⟨htoken, congrArg Glyph.flatten hafter⟩
  · rw [hs]
    exact ⟨rfl, rfl⟩
  · rw [hs] at hplain ⊢
    obtain ⟨htoken, hafter⟩ := token_of_ink
      (Glyph.isInk_of_plain (List.Subset.trans (afterToken_subset gs) hgs) hplain)
    exact ⟨htoken, congrArg Glyph.flatten hafter⟩

/-! ## Lines without a statement -/

/-- A line whose first byte is ink and starts no comment holds a statement. -/
theorem parse_cons_ne_none {b : UInt8} (rest : Text) (hb : Text.isPlain b)
    (hcomment : b ≠ Text.semicolon) : parse (b :: rest) ≠ none := by
  have hcode : code (b :: rest) = b :: code rest := by simp [code, hcomment]
  have hglyphs : Glyph.trimEnd (Text.glyphs (code (b :: rest))) =
      .ink b :: Glyph.trimEnd (Text.glyphs (code rest)) := by
    rw [hcode, Text.glyphs_cons_of_plain hb, Glyph.trimEnd_cons_ink]
  simp [parse, hglyphs, Glyph.isBlank]

end Statement

end WordMachine
