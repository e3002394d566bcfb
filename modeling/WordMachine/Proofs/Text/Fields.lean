import Mathlib.Data.List.TakeWhile
import WordMachine.Proofs.Text.BlankLines

/-!
# Trimmed text and fields

What is left of a text when it is trimmed, and what its fields are, is said here by the characters
of the text alone: white space stands around the one and between the others, and none is left where
there must be none. A text is read from its head, where either a white-space character is encoded or
the first byte is ink, and all facts about reading follow by induction along this reading.
-/

namespace WordMachine

namespace Glyph

theorem fieldsLoop_done (gs : List Glyph) (current : Text) (done : List Text) :
    fieldsLoop current done gs = done.reverse ++ fieldsLoop current [] gs := by
  induction gs generalizing current done with
  | nil => by_cases hcurrent : current = [] <;> simp [fieldsLoop, hcurrent]
  | cons g rest ih =>
      cases g with
      | ink b => exact ih (b :: current) done
      | blank encoding =>
          rw [fieldsLoop, fieldsLoop, ih, ih [] (if current.isEmpty then [] else [current.reverse])]
          by_cases hcurrent : current = [] <;> simp [hcurrent]

theorem fieldsLoop_blank_cons (gs : List Glyph) (encoding current : Text) :
    fieldsLoop current [] (.blank encoding :: gs) =
      fieldsLoop current [] [] ++ fieldsLoop [] [] gs :=
  fieldsLoop_done gs [] (if current.isEmpty then [] else [current.reverse])

/-- No field goes on behind a blank. -/
theorem fieldsLoop_append_blank_cons (gs hs : List Glyph) (encoding current : Text) :
    fieldsLoop current [] (gs ++ .blank encoding :: hs) =
      fieldsLoop current [] gs ++ fieldsLoop [] [] hs := by
  induction gs generalizing current with
  | nil => exact fieldsLoop_blank_cons hs encoding current
  | cons g rest ih =>
      cases g with
      | ink b => exact ih (b :: current)
      | blank other =>
          rw [List.cons_append, fieldsLoop_blank_cons, ih, fieldsLoop_blank_cons,
            List.append_assoc]

/-! ## Glyphs without blanks at their ends -/

/-- The first glyph after the blanks at the head is no blank. -/
theorem head?_trimStart {gs : List Glyph} {g : Glyph} (h : g ∈ (trimStart gs).head?) :
    g.isBlank = false := by
  have hfirst := List.head?_dropWhile_not isBlank gs
  rw [← trimStart, Option.mem_def.mp h] at hfirst
  simpa using hfirst

/-- The last glyph before the blanks at the end is no blank. -/
theorem getLast?_trimEnd {gs : List Glyph} {g : Glyph} (h : g ∈ (trimEnd gs).getLast?) :
    g.isBlank = false := by
  have hlast := List.head?_dropWhile_not isBlank gs.reverse
  rw [trimEnd, List.getLast?_reverse] at h
  rw [Option.mem_def.mp h] at hlast
  simpa using hlast

/-- The first glyph that is left is no blank. -/
theorem head?_trim {gs : List Glyph} {g : Glyph} (h : g ∈ (trim gs).head?) :
    g.isBlank = false := by
  obtain ⟨blanks, hstart, -⟩ := exists_trimEnd_append (trimStart gs)
  have hfirst : g ∈ (trimStart gs).head? := by
    rw [hstart, ← trim, List.head?_append, Option.mem_def.mp h]
    rfl
  exact head?_trimStart hfirst

theorem trim_eq_self {gs : List Glyph} (hhead : ∀ g ∈ gs.head?, g.isBlank = false)
    (hlast : ∀ g ∈ gs.getLast?, g.isBlank = false) : trim gs = gs := by
  have hstart : trimStart gs = gs := by
    cases gs with
    | nil => rfl
    | cons g rest => exact List.dropWhile_cons_of_neg (by simp [hhead g rfl])
  rw [trim, hstart]
  rcases List.eq_nil_or_concat gs with rfl | ⟨init, g, rfl⟩
  · rfl
  · have hg : g.isBlank = false := hlast g (by simp)
    simp [trimEnd, hg]

/-- Blanks around a sequence of glyphs are trimmed with those at its ends. -/
theorem trim_append_append {before after : List Glyph} (hbefore : ∀ g ∈ before, g.isBlank)
    (hafter : ∀ g ∈ after, g.isBlank) (gs : List Glyph) :
    trim (before ++ gs ++ after) = trim gs := by
  rw [trim, List.append_assoc, trimStart_append hbefore, trimStart, List.dropWhile_append]
  split
  · next hempty =>
      rw [trim, trimStart, List.isEmpty_iff.mp hempty, List.dropWhile_eq_nil_iff.mpr hafter]
  · exact trimEnd_append hafter _

end Glyph

namespace Text

/-! ## The head of a text -/

/-- A white-space character is encoded at the head of a text. -/
def BeginsBlank (t : Text) : Prop := ∃ c ∈ whiteSpace, ofScalar c <+: t

theorem forall_byte {P : UInt8 → Prop} (h : ∀ code : Fin 256, P (UInt8.ofNat code)) (b : UInt8) :
    P b := by
  have hb := h ⟨b.toNat, b.toNat_lt⟩
  rwa [UInt8.ofNat_toNat] at hb

theorem mem_of_isNarrowBlank {b : UInt8} :
    isNarrowBlank b → [b] ∈ whiteSpace.map ofScalar := by
  apply forall_byte (P := fun b => isNarrowBlank b → [b] ∈ whiteSpace.map ofScalar)
  decide +kernel

theorem mem_of_isWideBlank {b c d : UInt8} (h : isWideBlank b c d) :
    [b, c, d] ∈ whiteSpace.map ofScalar := by
  have hall : isWideBlank 0xE2 0x80 d → [0xE2, 0x80, d] ∈ whiteSpace.map ofScalar := by
    apply forall_byte
      (P := fun d => isWideBlank 0xE2 0x80 d → [0xE2, 0x80, d] ∈ whiteSpace.map ofScalar)
    decide +kernel
  by_cases hgeneral : b = 0xE2 ∧ c = 0x80
  · obtain ⟨rfl, rfl⟩ := hgeneral
    exact hall h
  · simp only [isWideBlank, Bool.or_eq_true, Bool.and_eq_true, beq_iff_eq] at h
    rcases h with ((⟨⟨rfl, rfl⟩, rfl⟩ | ⟨hother, -⟩) | ⟨⟨rfl, rfl⟩, rfl⟩) | ⟨⟨rfl, rfl⟩, rfl⟩
    · decide
    · exact absurd hother hgeneral
    · decide
    · decide

theorem beginsBlank_of_mem {encoding : Text} (h : encoding ∈ whiteSpace.map ofScalar)
    (rest : Text) : BeginsBlank (encoding ++ rest) := by
  obtain ⟨c, hc, rfl⟩ := List.mem_map.mp h
  exact ⟨c, hc, List.prefix_append _ _⟩

theorem beginsBlank_of_blankWidth_pos {t : Text} (h : 0 < blankWidth t) : BeginsBlank t := by
  have htwo {b c : UInt8} (hbytes : (b == 0xC2 && (c == 0x85 || c == 0xA0)) = true) :
      [b, c] ∈ whiteSpace.map ofScalar := by
    simp only [Bool.and_eq_true, Bool.or_eq_true, beq_iff_eq] at hbytes
    rcases hbytes with ⟨rfl, rfl | rfl⟩
    · decide
    · decide
  match t with
  | [] => cases h
  | [b] =>
      rw [blankWidth] at h
      split at h
      · next hnarrow => exact beginsBlank_of_mem (mem_of_isNarrowBlank hnarrow) []
      · cases h
  | [b, c] =>
      rw [blankWidth] at h
      split at h
      · next hnarrow => exact beginsBlank_of_mem (mem_of_isNarrowBlank hnarrow) [c]
      · split at h
        · next hbytes => exact beginsBlank_of_mem (htwo hbytes) []
        · cases h
  | b :: c :: d :: rest =>
      rw [blankWidth] at h
      split at h
      · next hnarrow => exact beginsBlank_of_mem (mem_of_isNarrowBlank hnarrow) (c :: d :: rest)
      · split at h
        · next hbytes => exact beginsBlank_of_mem (htwo hbytes) (d :: rest)
        · split at h
          · next hwide => exact beginsBlank_of_mem (mem_of_isWideBlank hwide) rest
          · cases h

theorem ofScalar_ne_nil {c : Nat} (h : c ∈ whiteSpace) : ofScalar c ≠ [] := by
  obtain ⟨b, rest, hc, -⟩ := exists_head_ofScalar h
  rw [hc]
  exact List.cons_ne_nil b rest

theorem glyphs_ofScalar_append {c : Nat} (h : c ∈ whiteSpace) (rest : Text) :
    glyphs (ofScalar c ++ rest) = .blank (ofScalar c) :: glyphs rest :=
  glyphs_append_of_blank (ofScalar_ne_nil h) (blankWidth_ofScalar h) rest

theorem glyphs_cons_of_not_beginsBlank {b : UInt8} {rest : Text}
    (h : ¬ BeginsBlank (b :: rest)) : glyphs (b :: rest) = .ink b :: glyphs rest := by
  have hwidth : blankWidth (b :: rest) = 0 :=
    Nat.eq_zero_of_not_pos fun hpos => h (beginsBlank_of_blankWidth_pos hpos)
  simp only [glyphs, glyphsLoop, hwidth]
  rw [glyphsLoop_found]
  rfl

/-- A text is empty, or it begins with a white-space character, or with a byte of ink. -/
@[elab_as_elim]
theorem headInduction {motive : Text → Prop} (nil : motive [])
    (blank : ∀ c ∈ whiteSpace, ∀ rest, motive rest → motive (ofScalar c ++ rest))
    (ink : ∀ b rest, ¬ BeginsBlank (b :: rest) → motive rest → motive (b :: rest)) (t : Text) :
    motive t := by
  by_cases h : BeginsBlank t
  · obtain ⟨c, hc, rest, ht⟩ := h
    rw [← ht]
    exact blank c hc rest (headInduction nil blank ink rest)
  · cases t with
    | nil => exact nil
    | cons b rest => exact ink b rest h (headInduction nil blank ink rest)
termination_by t.length
decreasing_by
  · have hpos := List.length_pos_iff.mpr (ofScalar_ne_nil hc)
    have hlength := congrArg List.length ht
    rw [List.length_append] at hlength
    omega
  · exact Nat.lt_succ_self rest.length

theorem BeginsBlank.append {t : Text} (h : BeginsBlank t) (rest : Text) :
    BeginsBlank (t ++ rest) := by
  obtain ⟨c, hc, hencoded⟩ := h
  exact ⟨c, hc, hencoded.trans (List.prefix_append t rest)⟩

/-- Glyphs that stand together in a text are the glyphs of their own bytes. -/
theorem glyphs_flatten {t : Text} {gs hs : List Glyph} (h : glyphs t = gs ++ hs) :
    glyphs (Glyph.flatten gs) = gs ∧ glyphs (Glyph.flatten hs) = hs := by
  induction gs generalizing t with
  | nil =>
      rw [List.nil_append] at h
      rw [← h, flatten_glyphs]
      exact ⟨rfl, rfl⟩
  | cons g gs ih =>
      induction t using headInduction with
      | nil => cases h
      | blank c hc rest _ =>
          rw [glyphs_ofScalar_append hc, List.cons_append] at h
          obtain ⟨rfl, hrest⟩ := List.cons.inj h
          obtain ⟨hgs, hhs⟩ := ih hrest
          refine ⟨?_, hhs⟩
          calc
            glyphs (ofScalar c ++ Glyph.flatten gs) =
                .blank (ofScalar c) :: glyphs (Glyph.flatten gs) := glyphs_ofScalar_append hc _
            _ = .blank (ofScalar c) :: gs := by rw [hgs]
      | ink b rest hb _ =>
          rw [glyphs_cons_of_not_beginsBlank hb, List.cons_append] at h
          obtain ⟨rfl, hrest⟩ := List.cons.inj h
          obtain ⟨hgs, hhs⟩ := ih hrest
          have hbytes : rest = Glyph.flatten gs ++ Glyph.flatten hs := by
            rw [← Glyph.flatten_append, ← hrest, flatten_glyphs]
          have hfirst : ¬ BeginsBlank (b :: Glyph.flatten gs) := by
            intro hblank
            apply hb
            rw [hbytes]
            exact hblank.append _
          refine ⟨?_, hhs⟩
          calc
            glyphs (b :: Glyph.flatten gs) = .ink b :: glyphs (Glyph.flatten gs) :=
              glyphs_cons_of_not_beginsBlank hfirst
            _ = .ink b :: gs := by rw [hgs]

theorem glyphs_append_ofScalar_append {c : Nat} (h : c ∈ whiteSpace) (t rest : Text) :
    glyphs (t ++ (ofScalar c ++ rest)) = glyphs t ++ .blank (ofScalar c) :: glyphs rest := by
  obtain ⟨b, s, hc, hb⟩ := exists_head_ofScalar h
  have hfresh : StartsFresh (ofScalar c ++ rest) := by
    intro found hfound
    rw [hc] at hfound
    cases hfound
    exact hb
  rw [glyphs_append hfresh, glyphs_ofScalar_append h]

/-! ## White space -/

namespace IsWhiteSpace

theorem nil : IsWhiteSpace [] := ⟨[], by simp, rfl⟩

theorem cons {c : Nat} (hc : c ∈ whiteSpace) {t : Text} (h : IsWhiteSpace t) :
    IsWhiteSpace (ofScalar c ++ t) := by
  obtain ⟨characters, hcharacters, rfl⟩ := h
  exact ⟨c :: characters, List.forall_mem_cons.mpr ⟨hc, hcharacters⟩, List.flatMap_cons.symm⟩

theorem append {s t : Text} (hs : IsWhiteSpace s) (ht : IsWhiteSpace t) :
    IsWhiteSpace (s ++ t) := by
  obtain ⟨characters, hcharacters, rfl⟩ := hs
  obtain ⟨others, hothers, rfl⟩ := ht
  exact ⟨characters ++ others, List.forall_mem_append.mpr ⟨hcharacters, hothers⟩,
    List.flatMap_append.symm⟩

end IsWhiteSpace

theorem isWhiteSpace_iff {t : Text} : IsWhiteSpace t ↔ ∀ g ∈ glyphs t, g.isBlank := by
  refine ⟨fun h => (h.glyphs_append []).1, ?_⟩
  intro h
  induction t using headInduction with
  | nil => exact .nil
  | blank c hc rest ih =>
      rw [glyphs_ofScalar_append hc] at h
      exact (ih fun g hg => h g (List.mem_cons_of_mem _ hg)).cons hc
  | ink b rest hb _ =>
      rw [glyphs_cons_of_not_beginsBlank hb] at h
      exact absurd (h _ List.mem_cons_self) (by simp [Glyph.isBlank])

theorem fields_eq_nil_iff_isWhiteSpace {t : Text} : fields t = [] ↔ IsWhiteSpace t := by
  rw [fields_eq_nil_iff, isBlankLine, List.all_eq_true, isWhiteSpace_iff]

theorem IsWhiteSpace.eq_nil_or_beginsBlank {t : Text} (h : IsWhiteSpace t) :
    t = [] ∨ BeginsBlank t := by
  obtain ⟨characters, hcharacters, rfl⟩ := h
  cases characters with
  | nil => exact .inl rfl
  | cons c others =>
      exact .inr ⟨c, hcharacters c List.mem_cons_self, List.prefix_append _ _⟩

/-! ## The ends of a text -/

theorem exists_of_blank_mem_glyphs {encoding t : Text} (h : .blank encoding ∈ glyphs t) :
    ∃ c ∈ whiteSpace, encoding = ofScalar c := by
  induction t using headInduction with
  | nil => cases h
  | blank c hc rest ih =>
      rw [glyphs_ofScalar_append hc] at h
      rcases List.mem_cons.mp h with h | h
      · exact ⟨c, hc, Glyph.blank.inj h⟩
      · exact ih h
  | ink b rest hb ih =>
      rw [glyphs_cons_of_not_beginsBlank hb] at h
      rcases List.mem_cons.mp h with h | h
      · cases h
      · exact ih h

/-- The first glyph of a text is ink exactly if the text begins with no white space. -/
theorem forall_head?_glyphs_iff {t : Text} :
    (∀ g ∈ (glyphs t).head?, g.isBlank = false) ↔ ∀ c ∈ whiteSpace, ¬ ofScalar c <+: t := by
  constructor
  · rintro h c hc ⟨rest, rfl⟩
    rw [glyphs_ofScalar_append hc] at h
    cases h _ rfl
  · intro h g hg
    cases g with
    | ink b => rfl
    | blank encoding =>
        obtain ⟨rest, hglyphs⟩ := List.head?_eq_some_iff.mp hg
        obtain ⟨c, hc, rfl⟩ := exists_of_blank_mem_glyphs (List.mem_of_mem_head? hg)
        refine absurd ⟨Glyph.flatten rest, ?_⟩ (h c hc)
        rw [← flatten_glyphs t, hglyphs]
        rfl

/-- The last glyph of a text is ink exactly if the text ends with no white space. -/
theorem forall_getLast?_glyphs_iff {t : Text} :
    (∀ g ∈ (glyphs t).getLast?, g.isBlank = false) ↔ ∀ c ∈ whiteSpace, ¬ ofScalar c <:+ t := by
  constructor
  · rintro h c hc ⟨init, rfl⟩
    rw [← List.append_nil (ofScalar c), glyphs_append_ofScalar_append hc] at h
    cases h (.blank (ofScalar c)) List.getLast?_concat
  · intro h g hg
    cases g with
    | ink b => rfl
    | blank encoding =>
        obtain ⟨init, hglyphs⟩ := List.getLast?_eq_some_iff.mp hg
        obtain ⟨c, hc, rfl⟩ := exists_of_blank_mem_glyphs (List.mem_of_getLast? hg)
        refine absurd ⟨Glyph.flatten init, ?_⟩ (h c hc)
        rw [← flatten_glyphs t, hglyphs, Glyph.flatten_append]
        simp [Glyph.flatten, Glyph.bytes]

theorem trim_eq_nil_of_isWhiteSpace {t : Text} (h : IsWhiteSpace t) : trim t = [] := by
  have hstart : Glyph.trimStart (glyphs t) = [] :=
    List.dropWhile_eq_nil_iff.mpr (isWhiteSpace_iff.mp h)
  rw [trim, Glyph.trim, hstart]
  rfl

/-! ## Trimmed text -/

/-- A text is what another is without the white space at its ends. -/
structure IsTrimOf (text t : Text) : Prop where
  around : ∃ before after, IsWhiteSpace before ∧ IsWhiteSpace after ∧ t = before ++ text ++ after
  head : ∀ c ∈ whiteSpace, ¬ ofScalar c <+: text
  last : ∀ c ∈ whiteSpace, ¬ ofScalar c <:+ text

theorem isTrimOf_trim (t : Text) : IsTrimOf (trim t) t := by
  obtain ⟨after, hend, hafter⟩ := Glyph.exists_trimEnd_append (Glyph.trimStart (glyphs t))
  rw [← Glyph.trim] at hend
  have hgs : glyphs t = (glyphs t).takeWhile Glyph.isBlank ++ (Glyph.trim (glyphs t) ++ after) := by
    rw [← hend, Glyph.trimStart, List.takeWhile_append_dropWhile]
  obtain ⟨hlead, hrest⟩ := glyphs_flatten hgs
  obtain ⟨htrim, htrail⟩ := glyphs_flatten hrest
  rw [← trim] at htrim
  refine ⟨⟨Glyph.flatten ((glyphs t).takeWhile Glyph.isBlank), Glyph.flatten after, ?_, ?_, ?_⟩,
    ?_, ?_⟩
  · rw [isWhiteSpace_iff, hlead]
    exact fun g hg => List.mem_takeWhile_imp hg
  · rwa [isWhiteSpace_iff, htrail]
  · rw [trim, List.append_assoc, ← Glyph.flatten_append, ← Glyph.flatten_append, ← hgs,
      flatten_glyphs]
  · rw [← forall_head?_glyphs_iff, htrim]
    exact fun g hg => Glyph.head?_trim hg
  · rw [← forall_getLast?_glyphs_iff, htrim]
    exact fun g hg => Glyph.getLast?_trimEnd hg

/-- A text without white space at its ends is what trimming leaves, whatever white space stands
around it. -/
theorem IsTrimOf.trim_eq {text t : Text} (h : IsTrimOf text t) : trim t = text := by
  obtain ⟨⟨before, after, hbefore, hafter, rfl⟩, hhead, hlast⟩ := h
  have hglyphs : glyphs (before ++ text ++ after) =
      glyphs before ++ glyphs text ++ glyphs after := by
    rw [glyphs_append hafter.startsFresh, (hbefore.glyphs_append text).2]
  rw [trim, hglyphs,
    Glyph.trim_append_append (isWhiteSpace_iff.mp hbefore) (isWhiteSpace_iff.mp hafter),
    Glyph.trim_eq_self (forall_head?_glyphs_iff.mpr hhead) (forall_getLast?_glyphs_iff.mpr hlast),
    flatten_glyphs]

theorem isWhiteSpace_of_trim_eq_nil {t : Text} (h : trim t = []) : IsWhiteSpace t := by
  obtain ⟨before, after, hbefore, hafter, ht⟩ := (isTrimOf_trim t).around
  rw [ht, h, List.append_nil]
  exact hbefore.append hafter

/-- The carriage return at the end of a line is trimmed with the other white space. -/
theorem isTrimOf_dropLastByte {text t : Text} (h : IsTrimOf text (dropLastByte carriageReturn t)) :
    IsTrimOf text t := by
  unfold dropLastByte at h
  split at h
  · next hlast =>
      obtain ⟨⟨before, after, hbefore, hafter, ht⟩, hhead, hend⟩ := h
      have hreturn : IsWhiteSpace [carriageReturn] := ⟨[0x0D], by decide, rfl⟩
      refine ⟨⟨before, after ++ [carriageReturn], hbefore, hafter.append hreturn, ?_⟩, hhead, hend⟩
      calc
        t = t.dropLast ++ [carriageReturn] := (List.dropLast_append_getLast? _ hlast).symm
        _ = before ++ text ++ (after ++ [carriageReturn]) := by rw [ht, List.append_assoc _ after]
  · exact h

/-! ## Fields -/

/-- A text that is not empty and in which no white-space character is encoded. -/
structure IsField (t : Text) : Prop where
  ne_nil : t ≠ []
  unbroken : ∀ c ∈ whiteSpace, ¬ ofScalar c <:+: t

/-- A text consists of fields, with white space between them and perhaps around them. -/
inductive HasFields : Text → List Text → Prop
  | nil {t : Text} (h : IsWhiteSpace t) : HasFields t []
  | cons {before field rest : Text} {others : List Text} (hbefore : IsWhiteSpace before)
      (hfield : IsField field) (hbreak : rest = [] ∨ BeginsBlank rest)
      (hrest : HasFields rest others) : HasFields (before ++ field ++ rest) (field :: others)

theorem IsField.glyphs_eq {t : Text} (h : IsField t) : glyphs t = t.map .ink := by
  have hunbroken := h.unbroken
  clear h
  induction t using headInduction with
  | nil => rfl
  | blank c hc rest _ => exact absurd (List.prefix_append _ rest).isInfix (hunbroken c hc)
  | ink b rest hb ih =>
      rw [glyphs_cons_of_not_beginsBlank hb, List.map_cons, ih]
      intro c hc hinside
      exact hunbroken c hc (hinside.trans (List.suffix_cons b rest).isInfix)

theorem unbroken_of_glyphs_eq {t : Text} (h : glyphs t = t.map .ink) :
    ∀ c ∈ whiteSpace, ¬ ofScalar c <:+: t := by
  rintro c hc ⟨before, after, rfl⟩
  rw [List.append_assoc, glyphs_append_ofScalar_append hc] at h
  have hmem : Glyph.blank (ofScalar c) ∈ (before ++ (ofScalar c ++ after)).map .ink := by
    rw [← h]
    simp
  obtain ⟨b, -, hb⟩ := List.mem_map.mp hmem
  cases hb

theorem isField_of_glyphs_eq {t : Text} (hne : t ≠ []) (h : glyphs t = t.map .ink) :
    IsField t :=
  ⟨hne, unbroken_of_glyphs_eq h⟩

/-- The fields before and behind a white-space character are those of the two parts. -/
theorem fields_append_ofScalar_append {c : Nat} (h : c ∈ whiteSpace) (t rest : Text) :
    fields (t ++ (ofScalar c ++ rest)) = fields t ++ fields rest := by
  rw [fields, glyphs_append_ofScalar_append h, Glyph.fieldsLoop_append_blank_cons]
  rfl

theorem fields_append_of_isWhiteSpace {before : Text} (h : IsWhiteSpace before) (t : Text) :
    fields (before ++ t) = fields t := by
  obtain ⟨characters, hcharacters, rfl⟩ := h
  induction characters with
  | nil => rfl
  | cons c characters ih =>
      have hc := hcharacters c List.mem_cons_self
      rw [List.flatMap_cons, List.append_assoc]
      calc
        fields (ofScalar c ++ (characters.flatMap ofScalar ++ t)) =
            fields (characters.flatMap ofScalar ++ t) := fields_append_ofScalar_append hc [] _
        _ = fields t := ih fun d hd => hcharacters d (List.mem_cons_of_mem c hd)

theorem fields_append_isWhiteSpace {after : Text} (h : IsWhiteSpace after) (t : Text) :
    fields (t ++ after) = fields t := by
  obtain ⟨characters, hcharacters, rfl⟩ := h
  cases characters with
  | nil => rw [List.flatMap_nil, List.append_nil]
  | cons c characters =>
      have hrest : IsWhiteSpace (characters.flatMap ofScalar) :=
        ⟨characters, fun d hd => hcharacters d (List.mem_cons_of_mem c hd), rfl⟩
      rw [List.flatMap_cons, fields_append_ofScalar_append (hcharacters c List.mem_cons_self),
        fields_eq_nil_iff_isWhiteSpace.mpr hrest, List.append_nil]

/-- Trimming leaves the fields as they are. -/
theorem fields_trim (t : Text) : fields (trim t) = fields t := by
  obtain ⟨before, after, hbefore, hafter, ht⟩ := (isTrimOf_trim t).around
  calc
    fields (trim t) = fields (before ++ trim t) := (fields_append_of_isWhiteSpace hbefore _).symm
    _ = fields (before ++ trim t ++ after) := (fields_append_isWhiteSpace hafter _).symm
    _ = fields t := by rw [← ht]

theorem IsField.fields_eq {t : Text} (h : IsField t) : fields t = [t] := by
  have hink := Glyph.fieldsLoop_ink t [] [] []
  rw [List.append_nil, List.append_nil] at hink
  rw [fields, h.glyphs_eq, hink, Glyph.fieldsLoop, if_neg (by simpa using h.ne_nil),
    List.reverse_reverse]
  rfl

theorem fields_field_append {field rest : Text} (hfield : IsField field)
    (hbreak : rest = [] ∨ BeginsBlank rest) : fields (field ++ rest) = field :: fields rest := by
  rcases hbreak with rfl | ⟨c, hc, after, rfl⟩
  · rw [List.append_nil, hfield.fields_eq]
    rfl
  · have hafter : fields (ofScalar c ++ after) = fields after :=
      fields_append_ofScalar_append hc [] after
    rw [fields_append_ofScalar_append hc, hfield.fields_eq, hafter]
    rfl

/-- Every text has fields. -/
theorem exists_hasFields (t : Text) : ∃ found, HasFields t found := by
  induction t using headInduction with
  | nil => exact ⟨[], .nil .nil⟩
  | blank c hc rest ih =>
      obtain ⟨found, hfound⟩ := ih
      cases hfound with
      | nil h => exact ⟨[], .nil (h.cons hc)⟩
      | @cons before field rest others hbefore hfield hbreak hrest =>
          refine ⟨field :: others, ?_⟩
          rw [← List.append_assoc, ← List.append_assoc]
          exact .cons (hbefore.cons hc) hfield hbreak hrest
  | ink b rest hb ih =>
      -- A byte of ink begins a field of its own, or goes before the first field of the rest.
      have halone : IsField [b] := by
        apply isField_of_glyphs_eq (List.cons_ne_nil b [])
        exact glyphs_cons_of_not_beginsBlank fun h => hb (h.append rest)
      obtain ⟨found, hfound⟩ := ih
      by_cases hbreak : rest = [] ∨ BeginsBlank rest
      · exact ⟨[b] :: found, .cons .nil halone hbreak hfound⟩
      · cases hfound with
        | nil h => exact absurd h.eq_nil_or_beginsBlank hbreak
        | @cons before field after others hbefore hfield hafter hrest =>
            obtain ⟨characters, hcharacters, rfl⟩ := hbefore
            cases characters with
            | nil =>
                have hlonger : IsField (b :: field) := by
                  apply isField_of_glyphs_eq (List.cons_ne_nil b field)
                  have hfirst : ¬ BeginsBlank (b :: field) := fun h => hb (h.append after)
                  rw [glyphs_cons_of_not_beginsBlank hfirst, hfield.glyphs_eq, List.map_cons]
                exact ⟨(b :: field) :: others, .cons .nil hlonger hafter hrest⟩
            | cons c more =>
                refine absurd (.inr ⟨c, hcharacters c List.mem_cons_self, ?_⟩) hbreak
                rw [List.flatMap_cons, List.append_assoc, List.append_assoc]
                exact List.prefix_append _ _

theorem HasFields.fields_eq {t : Text} {found : List Text} (h : HasFields t found) :
    fields t = found := by
  induction h with
  | nil h => exact fields_eq_nil_iff_isWhiteSpace.mpr h
  | cons hbefore hfield hbreak _ ih =>
      rw [List.append_assoc, fields_append_of_isWhiteSpace hbefore,
        fields_field_append hfield hbreak, ih]

theorem hasFields_iff {t : Text} {found : List Text} : HasFields t found ↔ fields t = found := by
  refine ⟨HasFields.fields_eq, ?_⟩
  rintro rfl
  obtain ⟨found, h⟩ := exists_hasFields t
  rwa [h.fields_eq]

end Text

end WordMachine
