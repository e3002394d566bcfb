import WordMachine.Proofs.Text.Glyph
import WordMachine.Text.Utf8

/-!
# White space as characters

White space is given here by its characters, and a run of white space by their encodings. Each of
the encodings is read as one blank, whatever stands before or after it: no blank begins with a byte
that continues an encoding, so the bytes of a blank never belong to what stands before them.
-/

namespace WordMachine.Text

/-- The white-space characters. -/
def whiteSpace : List Nat :=
  [0x0009, 0x000A, 0x000B, 0x000C, 0x000D, 0x0020, 0x0085, 0x00A0, 0x1680, 0x2000, 0x2001, 0x2002,
    0x2003, 0x2004, 0x2005, 0x2006, 0x2007, 0x2008, 0x2009, 0x200A, 0x2028, 0x2029, 0x202F, 0x205F,
    0x3000]

/-- A text that encodes any number of white-space characters, and nothing else. -/
def IsWhiteSpace (t : Text) : Prop :=
  ∃ characters : List Nat, (∀ c ∈ characters, c ∈ whiteSpace) ∧ t = characters.flatMap ofScalar

/-- The first byte of a text, if there is one, continues no encoding. -/
def StartsFresh (t : Text) : Prop := ∀ b ∈ t.head?, isContinuation b = false

/-! ## The blank at the head of a text -/

theorem blankWidth_le_length (t : Text) : blankWidth t ≤ t.length := by
  match t with
  | [] => exact Nat.le_refl 0
  | [b] => grind [blankWidth]
  | [b, c] => grind [blankWidth]
  | b :: c :: d :: rest => grind [blankWidth]

/-- A blank at the head is found whatever follows it. -/
theorem blankWidth_append_of_pos {t : Text} (h : 0 < blankWidth t) (rest : Text) :
    blankWidth (t ++ rest) = blankWidth t := by
  match t, rest with
  | [], _ => simp [blankWidth] at h
  | [b], [] => rfl
  | [b], [c] => grind [blankWidth]
  | [b], c :: d :: rest => grind [blankWidth]
  | [b, c], [] => rfl
  | [b, c], d :: rest => grind [blankWidth]
  | b :: c :: d :: t, rest => rfl

theorem isWideBlank_of_not_continuation (b : UInt8) {c d : UInt8}
    (h : isContinuation c = false ∨ isContinuation d = false) : isWideBlank b c d = false := by
  have hbytes : isWideBlank b c d = true → isContinuation c = true ∧ isContinuation d = true := by
    intro hwide
    simp only [isWideBlank, isContinuation, Bool.or_eq_true, Bool.and_eq_true, beq_iff_eq,
      decide_eq_true_eq] at hwide ⊢
    grind
  grind

/-- What follows a text makes no difference to the blank at its head, if it continues no
encoding. -/
theorem blankWidth_append_of_fresh {t rest : Text} (ht : t ≠ []) (h : StartsFresh rest) :
    blankWidth (t ++ rest) = blankWidth t := by
  have hnarrow (c : UInt8) (hc : isContinuation c = false) : (c == 0x85 || c == 0xA0) = false := by
    grind [isContinuation]
  match t, rest with
  | [], _ => exact absurd rfl ht
  | [b], [] => rfl
  | [b], [c] =>
      have hc : isContinuation c = false := h c rfl
      simp [blankWidth, hnarrow c hc]
  | [b], c :: d :: rest =>
      have hc : isContinuation c = false := h c rfl
      simp [blankWidth, hnarrow c hc, isWideBlank_of_not_continuation b (.inl hc)]
  | [b, c], [] => rfl
  | [b, c], d :: rest =>
      have hd : isContinuation d = false := h d rfl
      simp [blankWidth, isWideBlank_of_not_continuation b (.inr hd)]
  | b :: c :: d :: t, rest => rfl

/-! ## Glyphs of texts put together -/

theorem glyphsLoop_append {t rest : Text} (h : StartsFresh rest) {skip : Nat}
    (hskip : skip ≤ t.length) :
    glyphsLoop skip [] (t ++ rest) = glyphsLoop skip [] t ++ glyphs rest := by
  induction t generalizing skip with
  | nil =>
      obtain rfl : skip = 0 := Nat.le_zero.mp hskip
      rfl
  | cons b t ih =>
      cases skip with
      | succ more => exact ih (Nat.le_of_succ_le_succ hskip)
      | zero =>
          have hwidth : blankWidth (b :: (t ++ rest)) = blankWidth (b :: t) :=
            blankWidth_append_of_fresh (List.cons_ne_nil b t) h
          have hle := blankWidth_le_length (b :: t)
          simp only [List.cons_append, glyphsLoop, hwidth]
          cases hw : blankWidth (b :: t) with
          | zero =>
              simp only
              rw [glyphsLoop_found, ih (Nat.zero_le _), glyphsLoop_found 0 [_] t,
                List.append_assoc]
          | succ more =>
              rw [hw, List.length_cons] at hle
              have htake : (b :: (t ++ rest)).take (more + 1) = (b :: t).take (more + 1) := by
                rw [← List.cons_append, List.take_append_of_le_length hle]
              simp only [htake]
              rw [glyphsLoop_found, ih (Nat.le_of_succ_le_succ hle), glyphsLoop_found more [_] t,
                List.append_assoc]

/-- Glyphs can be read piece by piece, where no piece begins within an encoding. -/
theorem glyphs_append {rest : Text} (h : StartsFresh rest) (t : Text) :
    glyphs (t ++ rest) = glyphs t ++ glyphs rest :=
  glyphsLoop_append h (Nat.zero_le _)

theorem glyphsLoop_skip (s rest : Text) :
    glyphsLoop s.length [] (s ++ rest) = glyphs rest := by
  induction s with
  | nil => rfl
  | cons b s ih => exact ih

/-- A text that is one blank is read as that blank, whatever follows it. -/
theorem glyphs_append_of_blank {t : Text} (ht : t ≠ []) (h : blankWidth t = t.length)
    (rest : Text) : glyphs (t ++ rest) = .blank t :: glyphs rest := by
  obtain ⟨b, s, rfl⟩ := List.exists_cons_of_ne_nil ht
  have hwidth : blankWidth (b :: (s ++ rest)) = s.length + 1 := by
    rw [← List.cons_append, blankWidth_append_of_pos (by simp [h]), h, List.length_cons]
  have htake : (b :: (s ++ rest)).take (s.length + 1) = b :: s := by simp
  rw [List.cons_append, glyphs, glyphsLoop, hwidth]
  simp only [htake]
  rw [glyphsLoop_found, glyphsLoop_skip]
  rfl

/-! ## Runs of white space -/

/-- Each white-space character is encoded as one blank. -/
theorem blankWidth_ofScalar {c : Nat} (h : c ∈ whiteSpace) :
    blankWidth (ofScalar c) = (ofScalar c).length := by
  have hall : whiteSpace.all fun c => blankWidth (ofScalar c) == (ofScalar c).length := by decide
  exact beq_iff_eq.mp (List.all_eq_true.mp hall c h)

/-- The encoding of a white-space character begins with a byte that continues none. -/
theorem exists_head_ofScalar {c : Nat} (h : c ∈ whiteSpace) :
    ∃ b rest, ofScalar c = b :: rest ∧ isContinuation b = false := by
  have hall : whiteSpace.all fun c => (ofScalar c).head?.any fun b => !isContinuation b := by
    decide
  have hhead := List.all_eq_true.mp hall c h
  cases hc : ofScalar c with
  | nil => simp [hc] at hhead
  | cons b rest => exact ⟨b, rest, rfl, by simpa [hc] using hhead⟩

/-- No byte of a white-space character is plain. -/
theorem isPlain_of_mem_ofScalar {c : Nat} (h : c ∈ whiteSpace) {b : UInt8}
    (hb : b ∈ ofScalar c) : isPlain b = false := by
  have hall : whiteSpace.all fun c => (ofScalar c).all fun b => !isPlain b := by decide
  simpa using List.all_eq_true.mp (List.all_eq_true.mp hall c h) b hb

namespace IsWhiteSpace

theorem not_mem_of_isPlain {t : Text} (h : IsWhiteSpace t) {b : UInt8} (hb : isPlain b) :
    b ∉ t := by
  obtain ⟨characters, hcharacters, rfl⟩ := h
  intro hmem
  obtain ⟨c, hc, hbyte⟩ := List.mem_flatMap.mp hmem
  rw [isPlain_of_mem_ofScalar (hcharacters c hc) hbyte] at hb
  cases hb

theorem semicolon_not_mem {t : Text} (h : IsWhiteSpace t) : semicolon ∉ t :=
  h.not_mem_of_isPlain rfl

theorem comma_not_mem {t : Text} (h : IsWhiteSpace t) : comma ∉ t := h.not_mem_of_isPlain rfl

theorem startsFresh {t : Text} (h : IsWhiteSpace t) : StartsFresh t := by
  obtain ⟨characters, hcharacters, rfl⟩ := h
  cases characters with
  | nil => simp [StartsFresh]
  | cons c rest =>
      obtain ⟨b, s, hs, hb⟩ := exists_head_ofScalar (hcharacters c List.mem_cons_self)
      intro found hfound
      rw [List.flatMap_cons, hs] at hfound
      cases hfound
      exact hb

/-- A run of white space is read as blanks, and what follows it is read as if it stood alone. -/
theorem glyphs_append {t : Text} (h : IsWhiteSpace t) (rest : Text) :
    (∀ g ∈ glyphs t, g.isBlank) ∧ glyphs (t ++ rest) = glyphs t ++ glyphs rest := by
  obtain ⟨characters, hcharacters, rfl⟩ := h
  induction characters with
  | nil => exact ⟨by simp [glyphs, glyphsLoop], rfl⟩
  | cons c characters ih =>
      have hc := hcharacters c List.mem_cons_self
      obtain ⟨hblank, happend⟩ := ih fun d hd => hcharacters d (List.mem_cons_of_mem c hd)
      obtain ⟨b, s, hs, -⟩ := exists_head_ofScalar hc
      have hfirst := glyphs_append_of_blank (by simp [hs]) (blankWidth_ofScalar hc)
      rw [List.flatMap_cons, hfirst]
      constructor
      · intro g hg
        rcases List.mem_cons.mp hg with rfl | hg
        · rfl
        · exact hblank g hg
      · rw [List.append_assoc, hfirst, happend, List.cons_append]

end IsWhiteSpace

end WordMachine.Text
