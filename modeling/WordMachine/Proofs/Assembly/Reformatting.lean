import Mathlib.Data.List.Forall2
import WordMachine.Proofs.Assembly.Diagnostics
import WordMachine.Proofs.Source.Formatting

/-!
# Programs in another format

Inserting lines without a statement, and adding white space or a comment to a line, changes neither
the labels nor the image of a program. What is said about a line is the same as before, and is said
about the place to which the line has moved.

## Implementation notes

A change of format comes with a function that gives the new place of each line. Both readings of
the second program are compared with those of the first one line at a time: an inserted line is a
step of the second program that the first one does not take.
-/

namespace WordMachine

open Statement

/-! ## Changes of format -/

/-- The place of each line after a line has been inserted at `start`. -/
def shiftFrom (start i : Nat) : Nat := if i < start then i else i + 1

/-- One change of format. Line `i` of the first program is line `place i` of the second. -/
inductive FormatChange : List Text → List Text → (Nat → Nat) → Prop
  | insert (before after : List Text) {vacant : Text} : IsVacant vacant →
      FormatChange (before ++ after) (before ++ vacant :: after) (shiftFrom before.length)
  | indent (before after : List Text) (raw : Text) {blanks : Text} : blanks.IsWhiteSpace →
      FormatChange (before ++ raw :: after) (before ++ (blanks ++ raw) :: after) id
  | trail (before after : List Text) (raw : Text) {blanks : Text} : blanks.IsWhiteSpace →
      FormatChange (before ++ raw :: after) (before ++ (raw ++ blanks) :: after) id
  | comment (before after : List Text) (raw text : Text) :
      FormatChange (before ++ raw :: after)
        (before ++ (raw ++ Text.semicolon :: text) :: after) id

/-- Any number of changes of format, one after the other. -/
inductive Reformatting (lines : List Text) : List Text → (Nat → Nat) → Prop
  | refl : Reformatting lines lines id
  | change {middle lines' : List Text} {place move : Nat → Nat} :
      Reformatting lines middle place → FormatChange middle lines' move →
      Reformatting lines lines' (move ∘ place)

/-- A change of format inserts one vacant line, or puts a line in the place of one that reads
alike. -/
theorem FormatChange.insertion_or_replacement {lines lines' : List Text} {move : Nat → Nat}
    (h : FormatChange lines lines' move) :
    (∃ before after vacant, IsVacant vacant ∧ lines = before ++ after ∧
      lines' = before ++ vacant :: after ∧ move = shiftFrom before.length) ∨
    ∃ before after raw raw', ReadsAlike raw raw' ∧ lines = before ++ raw :: after ∧
      lines' = before ++ raw' :: after ∧ move = id := by
  cases h with
  | insert before after hvacant => exact .inl ⟨before, after, _, hvacant, rfl, rfl, rfl⟩
  | indent before after raw hblanks =>
      exact .inr ⟨before, after, raw, _, readsAlike_indent hblanks raw, rfl, rfl, rfl⟩
  | trail before after raw hblanks =>
      exact .inr ⟨before, after, raw, _, readsAlike_trail hblanks raw, rfl, rfl, rfl⟩
  | comment before after raw text =>
      exact .inr ⟨before, after, raw, _, readsAlike_comment raw text, rfl, rfl, rfl⟩

/-! ## Programs whose lines have moved -/

/-- The same complaint, about a line that has moved. -/
structure Diagnostic.IsMoved (place : Nat → Nat) (d d' : Diagnostic) : Prop where
  cause : d'.cause = d.cause
  line : ∃ i : Nat, d.position.line = i + 1 ∧ d'.position.line = place i + 1

/-- A program and the same program once its lines have moved: the image and the labels, in their
order, are the same, the complaints are the same in the same order, and each row shows the same at
its new place. -/
structure Program.IsMoved (place : Nat → Nat) (p p' : Program) : Prop where
  image : p'.image = p.image
  labels : p'.labels = p.labels
  diagnostics : List.Forall₂ (Diagnostic.IsMoved place) p.diagnostics p'.diagnostics
  rows : ∀ i row, p.listing[i]? = some row →
    ∃ row', p'.listing[place i]? = some row' ∧ row'.content = row.content

theorem Diagnostic.IsMoved.trans {place move : Nat → Nat} {d d' d'' : Diagnostic}
    (h : IsMoved place d d') (h' : IsMoved move d' d'') : IsMoved (move ∘ place) d d'' := by
  obtain ⟨i, hline, hline'⟩ := h.line
  obtain ⟨j, hmiddle, hline''⟩ := h'.line
  obtain rfl : j = place i := by omega
  exact ⟨h'.cause.trans h.cause, i, hline, hline''⟩

theorem Program.IsMoved.trans {place move : Nat → Nat} {p p' p'' : Program}
    (h : IsMoved place p p') (h' : IsMoved move p' p'') : IsMoved (move ∘ place) p p'' := by
  have hdiagnostics : ∀ {ds ds' ds'' : List Diagnostic},
      List.Forall₂ (Diagnostic.IsMoved place) ds ds' →
      List.Forall₂ (Diagnostic.IsMoved move) ds' ds'' →
      List.Forall₂ (Diagnostic.IsMoved (move ∘ place)) ds ds'' := by
    intro ds ds' ds'' hfirst hsecond
    induction hfirst generalizing ds'' with
    | nil =>
        cases hsecond
        exact .nil
    | cons hhead _ ih =>
        cases hsecond with
        | cons hhead' htail' => exact .cons (hhead.trans hhead') (ih htail')
  constructor
  · exact h'.image.trans h.image
  · exact h'.labels.trans h.labels
  · exact hdiagnostics h.diagnostics h'.diagnostics
  · intro i row hrow
    obtain ⟨row', hrow', hcontent⟩ := h.rows i row hrow
    obtain ⟨row'', hrow'', hcontent'⟩ := h'.rows _ row' hrow'
    exact ⟨row'', hrow'', hcontent'.trans hcontent⟩

/-! ## Lines that read alike -/

theorem Statement.ReadsAlike.parse_cases {raw raw' : Text} (h : ReadsAlike raw raw') :
    (parse raw = none ∧ parse raw' = none) ∨
      ∃ s s', parse raw = some s ∧ parse raw' = some s' ∧ s'.unplaced = s.unplaced := by
  unfold ReadsAlike at h
  cases hraw : parse raw with
  | none =>
      rw [hraw] at h
      exact .inl ⟨rfl, Option.map_eq_none_iff.mp h⟩
  | some s =>
      rw [hraw, Option.map_some] at h
      obtain ⟨s', hraw', hs⟩ := Option.map_eq_some_iff.mp h
      exact .inr ⟨s, s', rfl, hraw', hs⟩

/-- No rule looks at the column of a statement. -/
theorem Demand.ofStatement_of_unplaced (rule : LabelRule) (labels : Labels) {s s' : Statement}
    (h : s'.unplaced = s.unplaced) : ofStatement rule labels s' = ofStatement rule labels s := by
  change ofStatement rule labels s'.unplaced = ofStatement rule labels s.unplaced
  rw [h]

theorem Layout.step_of_readsAlike (rule : LabelRule) (layout : Layout) {raw raw' : Text}
    (h : ReadsAlike raw raw') : step rule layout raw' = step rule layout raw := by
  rcases h.parse_cases with ⟨hraw, hraw'⟩ | ⟨s, s', hraw, hraw', hs⟩
  · simp only [step, hraw, hraw']
  · simp only [step, hraw, hraw']
    change layout.place rule s'.unplaced = layout.place rule s.unplaced
    rw [hs]

/-- A change of format leaves the first reading as it is. -/
theorem FormatChange.layoutLabels_eq (rule : LabelRule) {lines lines' : List Text}
    {move : Nat → Nat} (h : FormatChange lines lines' move) :
    layoutLabels rule lines' = layoutLabels rule lines := by
  unfold layoutLabels Layout.run
  obtain ⟨before, after, vacant, hvacant, rfl, rfl, -⟩ |
    ⟨before, after, raw, raw', hread, rfl, rfl, -⟩ := h.insertion_or_replacement
  · rw [List.foldl_append, List.foldl_cons, List.foldl_append]
    simp only [Layout.step, hvacant.parse_eq_none]
  · rw [List.foldl_append, List.foldl_cons, List.foldl_append, List.foldl_cons,
      Layout.step_of_readsAlike rule _ hread]

namespace Emission

variable {rule : LabelRule} {labels : Labels} {e e' : Emission} {raw raw' : Text}

/-- Where the counters are the same, lines that read alike get the same content. -/
theorem row_content_of_readsAlike (hcounter : e'.counter = e.counter)
    (hread : ReadsAlike raw raw') :
    (e'.row rule labels raw').content = (e.row rule labels raw).content := by
  rcases hread.parse_cases with ⟨hraw, hraw'⟩ | ⟨s, s', hraw, hraw', hs⟩
  · simp only [row, hraw, hraw']
  · simp only [row, hraw, hraw', hcounter, Demand.ofStatement_of_unplaced rule labels hs]

theorem redeclaration_cause (hdeclared : e'.declared = e.declared) {s s' : Statement}
    (hs : s'.unplaced = s.unplaced) :
    (e'.redeclaration s').toList.map Diagnostic.cause =
      (e.redeclaration s).toList.map Diagnostic.cause := by
  have hlabel : s'.unplaced.label = s.unplaced.label := by rw [hs]
  change s'.label = s.label at hlabel
  unfold redeclaration
  rw [hlabel, hdeclared]
  split
  · rfl
  · split <;> rfl

theorem failure_cause (hcounter : e'.counter = e.counter) (column column' : Int) (d : Demand) :
    (e'.failure column' d).toList.map Diagnostic.cause =
      (e.failure column d).toList.map Diagnostic.cause := by
  cases d with
  | nothing => rfl
  | moveTo address => rfl
  | badMove cause => rfl
  | emit word =>
      by_cases hc : maxAddress < e.counter
      · simp [failure, overflow, hcounter, hc]
      · simp [failure, hcounter, hc]
  | reject cause => rfl

/-- Where the readings stand at the same address and have met the same labels, lines that read
alike get the same complaints. -/
theorem complaints_cause (hcounter : e'.counter = e.counter) (hdeclared : e'.declared = e.declared)
    (hread : ReadsAlike raw raw') :
    (e'.complaints rule labels raw').map Diagnostic.cause =
      (e.complaints rule labels raw).map Diagnostic.cause := by
  rcases hread.parse_cases with ⟨hraw, hraw'⟩ | ⟨s, s', hraw, hraw', hs⟩
  · simp only [complaints, hraw, hraw']
  · simp only [complaints, hraw, hraw', List.map_append,
      Demand.ofStatement_of_unplaced rule labels hs]
    rw [redeclaration_cause hdeclared hs, failure_cause hcounter s.column s'.column]

theorem step_counter_of_readsAlike (hcounter : e'.counter = e.counter)
    (hread : ReadsAlike raw raw') :
    (step rule labels e' raw').counter = (step rule labels e raw).counter := by
  rcases hread.parse_cases with ⟨hraw, hraw'⟩ | ⟨s, s', hraw, hraw', hs⟩
  · rw [step_blank _ hraw, step_blank _ hraw', hcounter]
  · rw [step_counter _ hraw, step_counter _ hraw', hcounter,
      Demand.ofStatement_of_unplaced rule labels hs]

theorem step_declared_of_readsAlike (hdeclared : e'.declared = e.declared)
    (hread : ReadsAlike raw raw') :
    (step rule labels e' raw').declared = (step rule labels e raw).declared := by
  rcases hread.parse_cases with ⟨hraw, hraw'⟩ | ⟨s, s', hraw, hraw', hs⟩
  · simpa only [step, hraw, hraw', addRow] using hdeclared
  · rw [step_declared _ hraw, step_declared _ hraw', hdeclared]
    change remember _ s'.unplaced = remember _ s.unplaced
    rw [hs]

end Emission

/-! ## Two readings, line by line -/

/-- The second reading of one program corresponds to that of another, in which the lines have
moved. -/
structure Tracks (rule : LabelRule) (labels : Labels) (place : Nat → Nat)
    (lines lines' : List Text) : Prop where
  counter : (Emission.run rule labels lines').counter = (Emission.run rule labels lines).counter
  declared : (Emission.run rule labels lines').declared = (Emission.run rule labels lines).declared
  image : (Emission.run rule labels lines').image = (Emission.run rule labels lines).image
  diagnostics : List.Forall₂ (Diagnostic.IsMoved place)
    (Emission.run rule labels lines).diagnostics.toList
    (Emission.run rule labels lines').diagnostics.toList
  rows : ∀ i row, (Emission.run rule labels lines).listing[i]? = some row →
    ∃ row', (Emission.run rule labels lines').listing[place i]? = some row' ∧
      row'.content = row.content

theorem forall₂_isMoved {place : Nat → Nat} {i : Nat} {ds ds' : List Diagnostic}
    (hcauses : ds'.map Diagnostic.cause = ds.map Diagnostic.cause)
    (hlines : ∀ d ∈ ds, d.position.line = (i : Int) + 1)
    (hlines' : ∀ d ∈ ds', d.position.line = (place i : Int) + 1) :
    List.Forall₂ (Diagnostic.IsMoved place) ds ds' := by
  induction ds generalizing ds' with
  | nil =>
      obtain rfl : ds' = [] := by simpa using hcauses
      exact .nil
  | cons d ds ih =>
      cases ds' with
      | nil => cases hcauses
      | cons d' ds' =>
          rw [List.map_cons, List.map_cons, List.cons.injEq] at hcauses
          refine .cons ⟨hcauses.1, i, hlines d List.mem_cons_self, hlines' d' List.mem_cons_self⟩ ?_
          apply ih hcauses.2
          · exact fun x hx => hlines x (List.mem_cons_of_mem d hx)
          · exact fun x hx => hlines' x (List.mem_cons_of_mem d' hx)

private theorem getElem?_append_of_some {α : Type} {xs : List α} {i : Nat} {x : α}
    (h : xs[i]? = some x) (ys : List α) : (xs ++ ys)[i]? = some x := by
  obtain ⟨hi, -⟩ := List.getElem?_eq_some_iff.mp h
  rw [List.getElem?_append_left hi, h]

/-- Rows that correspond do so after a further row of each listing. -/
theorem exists_moved_row {place : Nat → Nat} {rows rows' : List Row} {last last' : Row}
    (h : ∀ i row, rows[i]? = some row →
      ∃ row', rows'[place i]? = some row' ∧ row'.content = row.content)
    (hplace : place rows.length = rows'.length) (hcontent : last'.content = last.content)
    {i : Nat} {row : Row} (hrow : (rows ++ [last])[i]? = some row) :
    ∃ row', (rows' ++ [last'])[place i]? = some row' ∧ row'.content = row.content := by
  rcases Nat.lt_or_ge i rows.length with hi | hi
  · rw [List.getElem?_append_left hi] at hrow
    obtain ⟨row', hrow', hsame⟩ := h i row hrow
    exact ⟨row', getElem?_append_of_some hrow' _, hsame⟩
  · obtain ⟨hlength, -⟩ := List.getElem?_eq_some_iff.mp hrow
    obtain rfl : i = rows.length := by
      rw [List.length_append, List.length_singleton] at hlength
      omega
    rw [List.getElem?_concat_length] at hrow
    obtain rfl := Option.some.inj hrow
    exact ⟨last', by rw [hplace, List.getElem?_concat_length], hcontent⟩

namespace Tracks

open Emission

variable {rule : LabelRule} {labels : Labels} {place : Nat → Nat} {lines lines' : List Text}

theorem nil : Tracks rule labels place [] [] := by
  refine ⟨rfl, rfl, rfl, .nil, ?_⟩
  intro i row hrow
  simp [run, start, listing] at hrow

/-- A further line of both programs, in corresponding places. -/
theorem line (h : Tracks rule labels place lines lines') {raw raw' : Text}
    (hread : ReadsAlike raw raw') (hplace : place lines.length = lines'.length) :
    Tracks rule labels place (lines ++ [raw]) (lines' ++ [raw']) := by
  have hcontent : ((run rule labels lines').row rule labels raw').content =
      ((run rule labels lines).row rule labels raw).content :=
    row_content_of_readsAlike h.counter hread
  constructor
  · rw [run_append_singleton, run_append_singleton]
    exact step_counter_of_readsAlike h.counter hread
  · rw [run_append_singleton, run_append_singleton]
    exact step_declared_of_readsAlike h.declared hread
  · rw [run_append_singleton, run_append_singleton, step_image, step_image, hcontent, h.image]
  · rw [diagnostics_append_singleton, diagnostics_append_singleton]
    apply List.rel_append h.diagnostics
    apply forall₂_isMoved (complaints_cause h.counter h.declared hread)
    · exact fun d hd => line_of_mem_complaints_run hd
    · intro d hd
      rw [line_of_mem_complaints_run hd, hplace]
  · intro i row hrow
    rw [listing_append_singleton] at hrow ⊢
    apply exists_moved_row h.rows _ hcontent hrow
    rw [length_listing_run, length_listing_run, hplace]

/-- A further line of the second program that holds no statement. -/
theorem vacant (h : Tracks rule labels place lines lines') {raw : Text} (hraw : IsVacant raw) :
    Tracks rule labels place lines (lines' ++ [raw]) := by
  have hparse := hraw.parse_eq_none
  constructor
  · rw [run_append_singleton, step_blank _ hparse, h.counter]
  · rw [run_append_singleton]
    simpa only [step, hparse, addRow] using h.declared
  · rw [run_append_singleton, step_image]
    simpa only [row, hparse, Content.place] using h.image
  · rw [diagnostics_append_singleton]
    simpa only [complaints, hparse, List.append_nil] using h.diagnostics
  · intro i row hrow
    obtain ⟨row', hrow', hsame⟩ := h.rows i row hrow
    rw [listing_append_singleton]
    exact ⟨row', getElem?_append_of_some hrow' _, hsame⟩

/-- Further lines of both programs. -/
theorem append (h : Tracks rule labels place lines lines') {rest : List Text}
    (hplace : ∀ j < rest.length, place (lines.length + j) = lines'.length + j) :
    Tracks rule labels place (lines ++ rest) (lines' ++ rest) := by
  induction rest generalizing lines lines' with
  | nil => simpa using h
  | cons raw rest ih =>
      have hfirst := h.line (readsAlike_refl raw) (hplace 0 (by simp))
      have hrest : ∀ j < rest.length,
          place ((lines ++ [raw]).length + j) = (lines' ++ [raw]).length + j := by
        intro j hj
        have hnext := hplace (j + 1) (by simpa using hj)
        rw [List.length_append, List.length_append, List.length_singleton, Nat.add_assoc,
          Nat.add_assoc, Nat.add_comm 1 j, hnext]
      simpa using ih hfirst hrest

end Tracks

/-- After a change of format the second reading corresponds to the one before. -/
theorem FormatChange.tracks (rule : LabelRule) (labels : Labels) {lines lines' : List Text}
    {move : Nat → Nat} (h : FormatChange lines lines' move) :
    Tracks rule labels move lines lines' := by
  obtain ⟨before, after, vacant, hvacant, rfl, rfl, rfl⟩ |
    ⟨before, after, raw, raw', hread, rfl, rfl, rfl⟩ := h.insertion_or_replacement
  · have hbefore : Tracks rule labels (shiftFrom before.length) before before := by
      apply Tracks.nil.append
      intro j hj
      simp [shiftFrom, hj]
    have hafter : ∀ j < after.length,
        shiftFrom before.length (before.length + j) = (before ++ [vacant]).length + j := by
      intro j _
      rw [shiftFrom, if_neg (by omega), List.length_append, List.length_singleton]
      omega
    simpa using (hbefore.vacant hvacant).append hafter
  · have hbefore : Tracks rule labels id before before := by
      apply Tracks.nil.append
      simp
    have hafter : ∀ j < after.length,
        id ((before ++ [raw]).length + j) = (before ++ [raw']).length + j := by
      intro j _
      rw [id, List.length_append, List.length_append]
      rfl
    simpa using (hbefore.line hread rfl).append hafter

theorem FormatChange.isMoved (rule : LabelRule) {lines lines' : List Text} {move : Nat → Nat}
    (h : FormatChange lines lines' move) :
    (Program.assemble rule lines).IsMoved move (Program.assemble rule lines') := by
  have hlabels := h.layoutLabels_eq rule
  have htracks := h.tracks rule (layoutLabels rule lines)
  unfold Program.assemble
  rw [hlabels]
  exact ⟨htracks.image, rfl, htracks.diagnostics, htracks.rows⟩

/-- Formatting makes no difference. Whatever vacant lines are inserted into a program, and whatever
white space and comments are added to its lines, in whatever order: image and labels stay as they
are, the same complaints come in the same order, each about the line that it was about, and each
line keeps the content of its row. -/
theorem assemble_reformatted (rule : LabelRule) {lines lines' : List Text} {place : Nat → Nat}
    (h : Reformatting lines lines' place) :
    (Program.assemble rule lines).IsMoved place (Program.assemble rule lines') := by
  induction h with
  | refl =>
      have htracks : Tracks rule (layoutLabels rule lines) id ([] ++ lines) ([] ++ lines) := by
        apply Tracks.nil.append
        simp
      exact ⟨rfl, rfl, htracks.diagnostics, htracks.rows⟩
  | change _ hchange ih => exact ih.trans (hchange.isMoved rule)

/-- A program whose first line ends in the first bytes of an encoding. -/
def brokenOff : List Text := [Text.ascii "JMP" ++ [0xE2, 0x80], Text.ascii "end: HLT"]

/-- The same program after an ideographic space on a line of its own. A line separator stands after
the first line, and a no-break space and a comment after the second. -/
def brokenOffSpaced : List Text :=
  [[0xE3, 0x80, 0x80], Text.ascii "JMP" ++ [0xE2, 0x80] ++ [0xE2, 0x80, 0xA8],
    Text.ascii "end: HLT" ++ [0xC2, 0xA0] ++ Text.semicolon :: Text.ascii "HLT"]

/-- The line separator does not complete the encoding before it: the mnemonic is as unknown as it
was, on line two, and the stop is still at address one. -/
theorem brokenOff_reformatted :
    (∃ place, Reformatting brokenOff brokenOffSpaced place ∧ place 0 = 1 ∧ place 1 = 2 ∧
      (Program.assemble .legacy brokenOff).IsMoved place
        (Program.assemble .legacy brokenOffSpaced)) ∧
    (Program.assemble .legacy brokenOffSpaced).diagnostics =
      [⟨⟨2, 1⟩, .unknownMnemonic (Text.ascii "JMP" ++ [0xE2, 0x80])⟩] ∧
    (Program.assemble .legacy brokenOffSpaced).image.pairs = [(1, Operation.hlt.code)] := by
  have hideographic : Text.IsWhiteSpace [0xE3, 0x80, 0x80] :=
    ⟨[0x3000], by simp [Text.whiteSpace], rfl⟩
  have hseparator : Text.IsWhiteSpace [0xE2, 0x80, 0xA8] :=
    ⟨[0x2028], by simp [Text.whiteSpace], rfl⟩
  have hnoBreak : Text.IsWhiteSpace [0xC2, 0xA0] :=
    ⟨[0x00A0], by simp [Text.whiteSpace], rfl⟩
  have hinsert := Reformatting.refl.change
    (FormatChange.insert [] brokenOff (IsVacant.blank hideographic))
  have hfirst := hinsert.change (.trail [[0xE3, 0x80, 0x80]] [Text.ascii "end: HLT"]
    (Text.ascii "JMP" ++ [0xE2, 0x80]) hseparator)
  have hsecond := hfirst.change (.trail [[0xE3, 0x80, 0x80],
    Text.ascii "JMP" ++ [0xE2, 0x80] ++ [0xE2, 0x80, 0xA8]] [] (Text.ascii "end: HLT") hnoBreak)
  have hall := hsecond.change (.comment [[0xE3, 0x80, 0x80],
    Text.ascii "JMP" ++ [0xE2, 0x80] ++ [0xE2, 0x80, 0xA8]] []
    (Text.ascii "end: HLT" ++ [0xC2, 0xA0]) (Text.ascii "HLT"))
  exact ⟨⟨_, hall, rfl, rfl, assemble_reformatted .legacy hall⟩, by decide +kernel,
    by decide +kernel⟩

end WordMachine
