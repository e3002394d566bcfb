import WordMachine.Proofs.Source.Column
import WordMachine.Proofs.Source.Formatting
import WordMachine.Proofs.Text.Fields

/-!
# The parts of a line

Reading a line loses no byte of it. What stands before the comment is the label with its colon, the
keyword and the operands, in this order, with white space around them. Where the parts are cut apart
is said here by the characters of the line alone, so it holds of bytes that are no valid text too.
-/

namespace WordMachine

namespace Text

/-- A text is cut into the token at its head, the white space behind the token, and the rest. -/
structure IsCut (t token gap rest : Text) : Prop where
  bytes : t = token ++ gap ++ rest
  unbroken : ∀ c ∈ whiteSpace, ¬ ofScalar c <:+: token
  blank : IsWhiteSpace gap
  apart : rest ≠ [] → gap ≠ []

/-- The token that is cut off is the first field. -/
theorem IsCut.exists_hasFields {t token gap rest : Text} (h : IsCut t token gap rest)
    (hne : token ≠ []) {indent trail : Text} (hindent : IsWhiteSpace indent)
    (htrail : IsWhiteSpace trail) :
    ∃ others, HasFields (indent ++ t ++ trail) (token :: others) := by
  obtain ⟨others, hothers⟩ := Text.exists_hasFields (gap ++ rest ++ trail)
  have hbreak : gap ++ rest ++ trail = [] ∨ BeginsBlank (gap ++ rest ++ trail) := by
    rcases h.blank.eq_nil_or_beginsBlank with hgap | hgap
    · have hrest : rest = [] := by
        by_contra hrest
        exact h.apart hrest hgap
      rw [hgap, hrest]
      exact htrail.eq_nil_or_beginsBlank
    · exact .inr ((hgap.append rest).append trail)
  refine ⟨others, ?_⟩
  have hline : indent ++ t ++ trail = indent ++ token ++ (gap ++ rest ++ trail) := by
    rw [h.bytes]
    simp only [List.append_assoc]
  rw [hline]
  exact .cons hindent ⟨hne, h.unbroken⟩ hbreak hothers

end Text

namespace Statement

/-! ## Cutting off a token -/

/-- Glyphs that are read from their own bytes, and whose last one is ink. -/
structure IsTrimmed (gs : List Glyph) : Prop where
  glyphs_eq : Text.glyphs (Glyph.flatten gs) = gs
  last : ∀ g ∈ gs.getLast?, g.isBlank = false

variable {gs : List Glyph}

theorem IsTrimmed.of_append {hs : List Glyph} (h : IsTrimmed (hs ++ gs)) : IsTrimmed gs where
  glyphs_eq := (Text.glyphs_flatten h.glyphs_eq).2
  last g hg := by
    apply h.last
    rw [List.getLast?_append, Option.mem_def.mp hg]
    rfl

theorem IsTrimmed.afterToken (h : IsTrimmed gs) : IsTrimmed (afterToken gs) := by
  have hsuffix : Statement.afterToken gs <:+ gs :=
    (List.dropWhile_suffix _).trans (List.dropWhile_suffix _)
  obtain ⟨before, hsplit⟩ := hsuffix
  rw [← hsplit] at h
  exact h.of_append

theorem IsTrimmed.flatten_ne_nil (h : IsTrimmed gs) (hne : gs ≠ []) : Glyph.flatten gs ≠ [] := by
  intro hempty
  apply hne
  rw [← h.glyphs_eq, hempty]
  rfl

/-- What follows a token begins and ends with ink. -/
theorem IsTrimmed.ends_afterToken (h : IsTrimmed gs) :
    (∀ c ∈ Text.whiteSpace, ¬ Text.ofScalar c <+: Glyph.flatten (Statement.afterToken gs)) ∧
      ∀ c ∈ Text.whiteSpace, ¬ Text.ofScalar c <:+ Glyph.flatten (Statement.afterToken gs) := by
  rw [← Text.forall_head?_glyphs_iff, ← Text.forall_getLast?_glyphs_iff, h.afterToken.glyphs_eq]
  exact ⟨fun g hg => Glyph.head?_trimStart hg, h.afterToken.last⟩

/-- The token at the head is cut off where the first white space begins. -/
theorem IsTrimmed.exists_isCut (h : IsTrimmed gs) :
    ∃ gap, Text.IsCut (Glyph.flatten gs) (token gs) gap
      (Glyph.flatten (Statement.afterToken gs)) := by
  let blanks := (gs.dropWhile Glyph.isInk).takeWhile Glyph.isBlank
  have hsplit : gs = gs.takeWhile Glyph.isInk ++ (blanks ++ Statement.afterToken gs) := by
    rw [Statement.afterToken, Glyph.trimStart, List.takeWhile_append_dropWhile,
      List.takeWhile_append_dropWhile]
  obtain ⟨htoken, hrest⟩ := Text.glyphs_flatten (h.glyphs_eq.trans hsplit)
  obtain ⟨hgap, -⟩ := Text.glyphs_flatten hrest
  refine ⟨Glyph.flatten blanks, ?_, ?_, ?_, ?_⟩
  · calc
      Glyph.flatten gs =
          Glyph.flatten (gs.takeWhile Glyph.isInk ++ (blanks ++ Statement.afterToken gs)) := by
        rw [← hsplit]
      _ = token gs ++ Glyph.flatten blanks ++ Glyph.flatten (Statement.afterToken gs) := by
        rw [Glyph.flatten_append, Glyph.flatten_append, token, List.append_assoc]
  · apply Text.unbroken_of_glyphs_eq
    rw [token, Glyph.map_ink_flatten fun g hg => List.mem_takeWhile_imp hg]
    exact htoken
  · rw [Text.isWhiteSpace_iff, hgap]
    exact fun g hg => List.mem_takeWhile_imp hg
  · -- Without blanks the token would go on, since what is no blank is ink.
    intro hafter hempty
    have hnone : blanks = [] := by
      rw [← hgap, hempty]
      rfl
    apply hafter
    cases hdrop : gs.dropWhile Glyph.isInk with
    | nil => simp [Statement.afterToken, hdrop, Glyph.trimStart, Glyph.flatten]
    | cons g rest =>
        have hstop := List.head?_dropWhile_not Glyph.isInk gs
        have hblank : g.isBlank := by
          rw [hdrop] at hstop
          exact Glyph.isBlank_of_not_isInk (by simpa using hstop)
        simp [blanks, hdrop, hblank] at hnone

theorem tokenSkip_of_isCut {gap : Text}
    (h : Text.IsCut (Glyph.flatten gs) (token gs) gap (Glyph.flatten (afterToken gs))) :
    tokenSkip gs = (token gs ++ gap).length := by
  rw [tokenSkip, h.bytes, List.length_append, Nat.add_sub_cancel]

/-! ## Writing a statement -/

/-- The white space of a line: before its first part, behind the label, behind the keyword, and at
the end of the code. -/
structure Spacing where
  indent : Text
  afterLabel : Text
  afterKeyword : Text
  trail : Text

/-- The label with its colon and a gap behind it, or nothing if there is no label. -/
def labelled (s : Statement) (gap : Text) : Text :=
  s.label.elim [] fun name => name ++ [Text.colon] ++ gap

/-- The parts of a statement with a given spacing. -/
def write (s : Statement) (spacing : Spacing) : Text :=
  spacing.indent ++ s.labelled spacing.afterLabel ++ s.keyword ++ spacing.afterKeyword ++
    s.operands ++ spacing.trail

/-- The parts of a statement are told apart by their spacing, and its body and column agree with
where they stand. -/
structure FitsIn (s : Statement) (spacing : Spacing) : Prop where
  indent : spacing.indent.IsWhiteSpace
  afterLabel : spacing.afterLabel.IsWhiteSpace
  afterKeyword : spacing.afterKeyword.IsWhiteSpace
  trail : spacing.trail.IsWhiteSpace
  label : ∀ name ∈ s.label, Text.IsField name
  keyword : ∀ c ∈ Text.whiteSpace, ¬ Text.ofScalar c <:+: s.keyword
  operandsHead : ∀ c ∈ Text.whiteSpace, ¬ Text.ofScalar c <+: s.operands
  operandsLast : ∀ c ∈ Text.whiteSpace, ¬ Text.ofScalar c <:+ s.operands
  /-- Only a line that holds a label and nothing else has no keyword. -/
  labelOnly : s.keyword = [] → s.label.isSome ∧ s.operands = []
  keywordApart : s.label.isSome → s.keyword ≠ [] → spacing.afterLabel ≠ []
  operandsApart : s.operands ≠ [] → spacing.afterKeyword ≠ []
  body : s.body = s.keyword ++ spacing.afterKeyword ++ s.operands
  column : s.column = (if s.keyword = [] then spacing.indent
    else spacing.indent ++ s.labelled spacing.afterLabel).length + 1

/-- A statement makes up a text, with white space around its parts. -/
def MakesUp (s : Statement) (part : Text) : Prop :=
  ∃ spacing, part = s.write spacing ∧ s.FitsIn spacing

/-! ## What a statement is read from -/

/-- A label is a field without the colon at its end. -/
theorem isField_of_labelName? {head name : Text}
    (hhead : ∀ c ∈ Text.whiteSpace, ¬ Text.ofScalar c <:+: head)
    (h : labelName? head = some name) : name.IsField := by
  obtain ⟨hname, rfl⟩ := labelName?_eq_some_iff.mp h
  refine ⟨hname, ?_⟩
  intro c hc hinside
  exact hhead c hc (List.IsInfix.trans hinside (List.prefix_append name _).isInfix)

section Read

variable {indent trail : Text} (hindent : indent.IsWhiteSpace) (htrail : trail.IsWhiteSpace)
  (hgs : IsTrimmed gs)

include hindent htrail hgs

theorem makesUp_of_no_label (hne : token gs ≠ []) :
    MakesUp ⟨none, Glyph.flatten gs, token gs, Glyph.flatten (afterToken gs), indent.length + 1⟩
      (indent ++ Glyph.flatten gs ++ trail) := by
  obtain ⟨gap, hcut⟩ := hgs.exists_isCut
  obtain ⟨hhead, hend⟩ := hgs.ends_afterToken
  refine ⟨⟨indent, [], gap, trail⟩, ?_, ?_⟩
  · simp only [write, labelled, Option.elim_none, hcut.bytes, List.append_nil, List.append_assoc]
  · exact
      { indent := hindent
        afterLabel := .nil
        afterKeyword := hcut.blank
        trail := htrail
        label := by simp
        keyword := hcut.unbroken
        operandsHead := hhead
        operandsLast := hend
        labelOnly := fun hempty => absurd hempty hne
        keywordApart := by simp
        operandsApart := hcut.apart
        body := hcut.bytes
        column := by simp [labelled] }

theorem makesUp_of_label_only {name : Text} (hname : labelName? (token gs) = some name)
    (hempty : afterToken gs = []) :
    MakesUp ⟨some name, [], [], [], indent.length + 1⟩ (indent ++ Glyph.flatten gs ++ trail) := by
  obtain ⟨gap, hcut⟩ := hgs.exists_isCut
  obtain ⟨-, htoken⟩ := labelName?_eq_some_iff.mp hname
  have hbytes : Glyph.flatten gs = name ++ [Text.colon] ++ gap := by
    rw [hcut.bytes, hempty, htoken]
    exact List.append_nil _
  have hnone : ∀ c ∈ Text.whiteSpace, Text.ofScalar c ≠ [] := fun c hc => Text.ofScalar_ne_nil hc
  rw [hbytes]
  refine ⟨⟨indent, gap, [], trail⟩, ?_, ?_⟩
  · simp only [write, labelled, Option.elim_some, List.append_nil, List.append_assoc]
  · exact
      { indent := hindent
        afterLabel := hcut.blank
        afterKeyword := .nil
        trail := htrail
        label := by
          rintro found ⟨⟩
          exact isField_of_labelName? hcut.unbroken hname
        keyword := fun c hc hinside => hnone c hc (List.infix_nil.mp hinside)
        operandsHead := fun c hc hinside => hnone c hc (List.prefix_nil.mp hinside)
        operandsLast := fun c hc hinside => hnone c hc (List.suffix_nil.mp hinside)
        labelOnly := fun _ => ⟨rfl, rfl⟩
        keywordApart := fun _ hkeyword => absurd rfl hkeyword
        operandsApart := fun hoperands => absurd rfl hoperands
        body := rfl
        column := rfl }

theorem makesUp_of_label {name : Text} (hname : labelName? (token gs) = some name)
    (hrest : afterToken gs ≠ []) :
    MakesUp ⟨some name, Glyph.flatten (afterToken gs), token (afterToken gs),
      Glyph.flatten (afterToken (afterToken gs)), indent.length + 1 + tokenSkip gs⟩
      (indent ++ Glyph.flatten gs ++ trail) := by
  -- The line is cut twice, behind the label and behind the keyword.
  obtain ⟨gap, hcut⟩ := hgs.exists_isCut
  obtain ⟨gap', hcut'⟩ := hgs.afterToken.exists_isCut
  obtain ⟨hhead, hend⟩ := hgs.afterToken.ends_afterToken
  obtain ⟨-, htoken⟩ := labelName?_eq_some_iff.mp hname
  have hkeyword : token (afterToken gs) ≠ [] := token_ne_nil hrest
  refine ⟨⟨indent, gap, gap', trail⟩, ?_, ?_⟩
  · simp only [write, labelled, Option.elim_some]
    rw [hcut.bytes, hcut'.bytes, htoken]
    simp only [List.append_assoc]
  · exact
      { indent := hindent
        afterLabel := hcut.blank
        afterKeyword := hcut'.blank
        trail := htrail
        label := by
          rintro found ⟨⟩
          exact isField_of_labelName? hcut.unbroken hname
        keyword := hcut'.unbroken
        operandsHead := hhead
        operandsLast := hend
        labelOnly := fun hempty => absurd hempty hkeyword
        keywordApart := fun _ _ => hcut.apart (hgs.afterToken.flatten_ne_nil hrest)
        operandsApart := hcut'.apart
        body := hcut'.bytes
        column := by
          rw [tokenSkip_of_isCut hcut, htoken, if_neg hkeyword]
          simp only [labelled, Option.elim_some, List.length_append]
          omega }

theorem makesUp_ofGlyphs (hne : token gs ≠ []) :
    (ofGlyphs (indent.length + 1) gs).MakesUp (indent ++ Glyph.flatten gs ++ trail) := by
  rcases ofGlyphs_cases (indent.length + 1) gs with
    ⟨-, hs⟩ | ⟨name, hname, hempty, hs⟩ | ⟨name, hname, hrest, hs⟩
  · rw [hs]
    exact makesUp_of_no_label hindent htrail hgs hne
  · rw [hs]
    exact makesUp_of_label_only hindent htrail hgs hname hempty
  · rw [hs]
    exact makesUp_of_label hindent htrail hgs hname hrest

end Read

/-! ## Lines -/

/-- The code of a line is all of it up to the first semicolon. -/
def IsCodeOf (part raw : Text) : Prop :=
  Text.semicolon ∉ part ∧ (raw = part ∨ ∃ comment, raw = part ++ Text.semicolon :: comment)

theorem isCodeOf_code (raw : Text) : IsCodeOf (code raw) raw := by
  by_cases h : Text.semicolon ∈ raw
  · obtain ⟨part, comment, rfl, hpart⟩ := List.eq_append_cons_of_mem h
    rw [code_append_comment, code_of_not_mem hpart]
    exact ⟨hpart, .inr ⟨comment, rfl⟩⟩
  · rw [code_of_not_mem h]
    exact ⟨h, .inl rfl⟩

theorem isSome_labelName? (head : Text) :
    (labelName? head).isSome ↔ 1 < head.length ∧ head.getLast? = some Text.colon := by
  unfold labelName?
  split <;> simp_all

/-- The code of a line in three parts: white space, what the statement is read from, and white
space again. -/
theorem exists_trimmed_code (raw : Text) :
    ∃ indent gs trail, indent.IsWhiteSpace ∧ trail.IsWhiteSpace ∧ IsTrimmed gs ∧
      code raw = indent ++ Glyph.flatten gs ++ trail ∧
      ((gs = [] ∧ parse raw = none) ∨
        (token gs ≠ [] ∧ parse raw = some (ofGlyphs (indent.length + 1) gs))) := by
  obtain ⟨blanks, hcode, hblanks⟩ := Glyph.exists_trimEnd_append (Text.glyphs (code raw))
  let kept := Glyph.trimEnd (Text.glyphs (code raw))
  have hkept : kept.takeWhile Glyph.isBlank ++ kept.dropWhile Glyph.isBlank = kept :=
    List.takeWhile_append_dropWhile
  obtain ⟨hglyphs, htrail⟩ := Text.glyphs_flatten hcode
  have htrimmed : IsTrimmed kept := ⟨hglyphs, fun g hg => Glyph.getLast?_trimEnd hg⟩
  rw [← hkept] at htrimmed
  obtain ⟨hindent, -⟩ := Text.glyphs_flatten htrimmed.glyphs_eq
  refine ⟨Glyph.flatten (kept.takeWhile Glyph.isBlank), kept.dropWhile Glyph.isBlank,
    Glyph.flatten blanks, ?_, ?_, htrimmed.of_append, ?_, ?_⟩
  · rw [Text.isWhiteSpace_iff, hindent]
    exact fun g hg => List.mem_takeWhile_imp hg
  · rwa [Text.isWhiteSpace_iff, htrail]
  · rw [← Glyph.flatten_append, hkept, ← Glyph.flatten_append, ← hcode, Text.flatten_glyphs]
  · by_cases hempty : kept.dropWhile Glyph.isBlank = []
    · refine .inl ⟨hempty, ?_⟩
      simp only [parse]
      rw [if_pos (List.isEmpty_iff.mpr hempty)]
    · refine .inr ⟨token_ne_nil hempty, ?_⟩
      simp only [parse]
      rw [if_neg (mt List.isEmpty_iff.mp hempty)]

/-- A line without a statement is white space up to its comment. The statement of any other line
makes up the line, with white space around its parts, and it has a label exactly if the first field
of the line is longer than one byte and ends in a colon. -/
theorem parse_loses_no_byte (raw : Text) :
    ∃ part, IsCodeOf part raw ∧ (parse raw = none ↔ part.IsWhiteSpace) ∧
      ∀ s, parse raw = some s →
        s.MakesUp part ∧
          ∃ first others, Text.HasFields part (first :: others) ∧
            (s.label.isSome ↔ 1 < first.length ∧ first.getLast? = some Text.colon) := by
  obtain ⟨indent, gs, trail, hindent, htrail, hgs, hcode, hparse⟩ := exists_trimmed_code raw
  refine ⟨code raw, isCodeOf_code raw, ?_⟩
  rcases hparse with ⟨rfl, hnone⟩ | ⟨hne, hsome⟩
  · have hblank : (code raw).IsWhiteSpace := by
      rw [hcode]
      exact (hindent.append .nil).append htrail
    rw [hnone]
    exact ⟨iff_of_true rfl hblank, fun s hs => by cases hs⟩
  · obtain ⟨gap, hcut⟩ := hgs.exists_isCut
    obtain ⟨others, hfields⟩ := hcut.exists_hasFields hne hindent htrail
    rw [← hcode] at hfields
    rw [hsome]
    constructor
    · refine iff_of_false (Option.some_ne_none _) ?_
      intro hblank
      have hnone := Text.fields_eq_nil_iff_isWhiteSpace.mpr hblank
      rw [hfields.fields_eq] at hnone
      cases hnone
    · rintro s ⟨⟩
      refine ⟨?_, token gs, others, hfields, ?_⟩
      · rw [hcode]
        exact makesUp_ofGlyphs hindent htrail hgs hne
      · rw [label_ofGlyphs, isSome_labelName?]

/-- A line with a no-break space before its label, an ideographic space before its operands, a byte
that is no text among them, and a comment. -/
def motleyLine : Text :=
  [0xC2, 0xA0] ++ Text.ascii "A:\tLDR " ++ [0xE3, 0x80, 0x80] ++ Text.ascii "0, " ++ [0xFF] ++
    Text.ascii " ; B: HLT"

/-- The statement on that line. -/
def motleyStatement : Statement :=
  { label := some (Text.ascii "A")
    body := Text.ascii "LDR " ++ [0xE3, 0x80, 0x80] ++ Text.ascii "0, " ++ [0xFF]
    keyword := Text.ascii "LDR"
    operands := Text.ascii "0, " ++ [0xFF]
    column := 6 }

theorem motleyLine_loses_no_byte :
    parse motleyLine = some motleyStatement ∧
      ∃ part, IsCodeOf part motleyLine ∧ ¬ part.IsWhiteSpace ∧ motleyStatement.MakesUp part := by
  have hparse : parse motleyLine = some motleyStatement := by decide +kernel
  obtain ⟨part, hcode, hnone, hsome⟩ := parse_loses_no_byte motleyLine
  refine ⟨hparse, part, hcode, ?_, (hsome motleyStatement hparse).1⟩
  rw [← hnone, hparse]
  exact Option.some_ne_none _

end Statement

end WordMachine
