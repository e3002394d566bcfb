import WordMachine.Text.Glyph

/-!
# Glyphs of plain text

A *plain* byte is an ASCII byte that is no blank. Plain bytes are glyphs of their own whatever
follows them, so a text of plain bytes and spaces is read glyph by glyph.
-/

namespace WordMachine

namespace Text

/-- Whether a byte is an ASCII byte and no blank. -/
def isPlain (b : UInt8) : Bool := b < 0x80 && !isNarrowBlank b

theorem blankWidth_of_plain {b : UInt8} (h : isPlain b) (rest : Text) :
    blankWidth (b :: rest) = 0 := by
  simp only [isPlain, Bool.and_eq_true, decide_eq_true_eq, Bool.not_eq_true'] at h
  obtain ⟨hascii, hblank⟩ := h
  have hne (c : UInt8) (hc : 0x80 ≤ c) : (b == c) = false := by
    apply beq_false_of_ne
    rintro rfl
    exact absurd hascii (by simpa using hc)
  have hnarrow := hne 0xC2 (by decide)
  have hwide (c d : UInt8) : isWideBlank b c d = false := by
    simp [isWideBlank, hne 0xE1 (by decide), hne 0xE2 (by decide), hne 0xE3 (by decide)]
  match rest with
  | [] => simp [blankWidth, hblank]
  | [c] => simp [blankWidth, hblank, hnarrow]
  | c :: d :: rest => simp [blankWidth, hblank, hnarrow, hwide]

theorem blankWidth_space (rest : Text) : blankWidth (space :: rest) = 1 := by
  match rest with
  | [] => rfl
  | [c] => rfl
  | c :: d :: rest => rfl

theorem glyphsLoop_found (skip : Nat) (found : List Glyph) (t : Text) :
    glyphsLoop skip found t = found.reverse ++ glyphsLoop skip [] t := by
  induction t generalizing skip found with
  | nil => simp [glyphsLoop]
  | cons b rest ih =>
      cases skip with
      | succ more => simp only [glyphsLoop]; exact ih more found
      | zero =>
          simp only [glyphsLoop]
          cases blankWidth (b :: rest) with
          | zero => simp only; rw [ih, ih 0 [_]]; simp
          | succ more => simp only; rw [ih, ih more [_]]; simp

theorem glyphs_cons_of_plain {b : UInt8} (h : isPlain b) (rest : Text) :
    glyphs (b :: rest) = .ink b :: glyphs rest := by
  simp only [glyphs, glyphsLoop, blankWidth_of_plain h]
  rw [glyphsLoop_found]
  rfl

theorem glyphs_cons_space (rest : Text) :
    glyphs (space :: rest) = .blank [space] :: glyphs rest := by
  simp only [glyphs, glyphsLoop, blankWidth_space]
  rw [glyphsLoop_found]
  rfl

theorem glyphs_append_of_plain {t : Text} (h : ∀ b ∈ t, isPlain b) (rest : Text) :
    glyphs (t ++ rest) = t.map .ink ++ glyphs rest := by
  induction t with
  | nil => rfl
  | cons b t ih =>
      rw [List.cons_append, glyphs_cons_of_plain (h b List.mem_cons_self),
        ih fun c hc => h c (List.mem_cons_of_mem b hc), List.map_cons, List.cons_append]

theorem glyphs_of_plain {t : Text} (h : ∀ b ∈ t, isPlain b) : glyphs t = t.map .ink := by
  simpa [glyphs, glyphsLoop] using glyphs_append_of_plain h []

end Text

namespace Glyph

theorem flatten_append (gs hs : List Glyph) : flatten (gs ++ hs) = flatten gs ++ flatten hs :=
  List.flatMap_append

theorem flatten_map_ink (t : Text) : flatten (t.map .ink) = t := by
  simp [flatten, List.flatMap_map, bytes]

theorem trimStart_map_ink_append {t : Text} (h : t ≠ []) (gs : List Glyph) :
    trimStart (t.map .ink ++ gs) = t.map .ink ++ gs := by
  obtain ⟨b, t, rfl⟩ := List.exists_cons_of_ne_nil h
  rfl

theorem trimEnd_append_map_ink {t : Text} (h : t ≠ []) (gs : List Glyph) :
    trimEnd (gs ++ t.map .ink) = gs ++ t.map .ink := by
  obtain ⟨b, u, hreverse⟩ := List.exists_cons_of_ne_nil (List.reverse_ne_nil_iff.mpr h)
  rw [trimEnd, List.reverse_append, ← List.map_reverse, hreverse, List.map_cons, List.cons_append,
    List.dropWhile_cons_of_neg (by simp [isBlank]), ← List.cons_append, ← List.map_cons, ← hreverse,
    List.map_reverse, ← List.reverse_append, List.reverse_reverse]

section Blanks

variable {blanks : List Glyph} (h : ∀ g ∈ blanks, g.isBlank)

include h

theorem trimStart_append (gs : List Glyph) : trimStart (blanks ++ gs) = trimStart gs :=
  List.dropWhile_append_of_pos h

theorem trimEnd_append (gs : List Glyph) : trimEnd (gs ++ blanks) = trimEnd gs := by
  have hreverse : ∀ g ∈ blanks.reverse, g.isBlank := fun g hg => h g (List.mem_reverse.mp hg)
  rw [trimEnd, List.reverse_append, List.dropWhile_append_of_pos hreverse, trimEnd]

end Blanks

/-- The blanks at the end follow what is left when they are removed. -/
theorem exists_trimEnd_append (gs : List Glyph) :
    ∃ blanks, gs = trimEnd gs ++ blanks ∧ ∀ g ∈ blanks, g.isBlank := by
  refine ⟨(gs.reverse.takeWhile isBlank).reverse, ?_, ?_⟩
  · rw [trimEnd, ← List.reverse_append, List.takeWhile_append_dropWhile, List.reverse_reverse]
  · intro g hg
    exact List.all_eq_true.mp List.all_takeWhile g (List.mem_reverse.mp hg)

end Glyph

/-! ## Nothing is lost -/

namespace Text

theorem flatten_glyphsLoop (skip : Nat) (t : Text) :
    Glyph.flatten (glyphsLoop skip [] t) = t.drop skip := by
  induction t generalizing skip with
  | nil => simp [glyphsLoop, Glyph.flatten]
  | cons b rest ih =>
      cases skip with
      | succ more => rw [glyphsLoop, ih, List.drop_succ_cons]
      | zero =>
          rw [glyphsLoop]
          cases blankWidth (b :: rest) with
          | zero =>
              simp only
              rw [glyphsLoop_found, Glyph.flatten_append, ih]
              rfl
          | succ more =>
              simp only
              rw [glyphsLoop_found, Glyph.flatten_append, ih]
              simp [Glyph.flatten, Glyph.bytes]

/-- The bytes of the glyphs of a text are the bytes of the text. -/
theorem flatten_glyphs (t : Text) : Glyph.flatten (glyphs t) = t := flatten_glyphsLoop 0 t

/-- A blank never begins with a plain byte. -/
theorem exists_cons_of_blank_mem {encoding : Text} {skip : Nat} {t : Text}
    (h : .blank encoding ∈ glyphsLoop skip [] t) :
    ∃ b rest, encoding = b :: rest ∧ isPlain b = false := by
  induction t generalizing skip with
  | nil => simp [glyphsLoop] at h
  | cons b rest ih =>
      cases skip with
      | succ more => exact ih h
      | zero =>
          rw [glyphsLoop] at h
          cases hwidth : blankWidth (b :: rest) with
          | zero =>
              simp only [hwidth] at h
              rw [glyphsLoop_found] at h
              exact ih (by simpa using h)
          | succ more =>
              simp only [hwidth] at h
              rw [glyphsLoop_found] at h
              rcases List.mem_append.mp h with h | h
              · cases hplain : isPlain b with
                | false => exact ⟨b, rest.take more, by simpa using h, hplain⟩
                | true =>
                    rw [blankWidth_of_plain hplain] at hwidth
                    cases hwidth
              · exact ih h

end Text

theorem Glyph.fieldsLoop_ink (t current : Text) (done : List Text) (gs : List Glyph) :
    fieldsLoop current done (t.map .ink ++ gs) = fieldsLoop (t.reverse ++ current) done gs := by
  induction t generalizing current with
  | nil => rfl
  | cons b t ih => simp [fieldsLoop, ih]

namespace Text

theorem trim_of_plain {t : Text} (h : ∀ b ∈ t, isPlain b) : trim t = t := by
  by_cases ht : t = []
  · rw [ht]
    rfl
  · have hstart := Glyph.trimStart_map_ink_append ht []
    have hend := Glyph.trimEnd_append_map_ink ht []
    rw [List.append_nil] at hstart
    rw [List.nil_append] at hend
    rw [trim, glyphs_of_plain h, Glyph.trim, hstart, hend, Glyph.flatten_map_ink]

/-! ## Two plain texts with a space between them -/

section Pair

variable {s t : Text} (hs : ∀ b ∈ s, isPlain b) (ht : ∀ b ∈ t, isPlain b) (hs' : s ≠ [])
  (ht' : t ≠ [])

include hs ht

theorem glyphs_pair :
    glyphs (s ++ [space] ++ t) = s.map .ink ++ .blank [space] :: t.map .ink := by
  rw [List.append_assoc, glyphs_append_of_plain hs, List.singleton_append, glyphs_cons_space,
    glyphs_of_plain ht]

include hs' ht'

theorem fields_pair : fields (s ++ [space] ++ t) = [s, t] := by
  have hend (done : List Text) : Glyph.fieldsLoop t.reverse done [] = done.reverse ++ [t] := by
    simp [Glyph.fieldsLoop, ht']
  have hinner := Glyph.fieldsLoop_ink t [] [s] []
  rw [List.append_nil, List.append_nil] at hinner
  rw [fields, glyphs_pair hs ht, Glyph.fieldsLoop_ink, Glyph.fieldsLoop, List.append_nil,
    if_neg (by simpa using hs'), List.reverse_reverse, hinner, hend]
  rfl

theorem trim_pair : trim (s ++ [space] ++ t) = s ++ [space] ++ t := by
  rw [trim, glyphs_pair hs ht, Glyph.trim, Glyph.trimStart_map_ink_append hs',
    List.append_cons, Glyph.trimEnd_append_map_ink ht', Glyph.flatten_append, Glyph.flatten_append,
    Glyph.flatten_map_ink, Glyph.flatten_map_ink]
  rfl

end Pair

end Text

end WordMachine
