import Mathlib.Data.List.Induction
import WordMachine.Assembly.Program

/-!
# One line of a reading

Both readings are folds over the lines of a program. This module says once what a single line does
to the address counter, to the image and to the listing of the second reading, as a function of the
demand of its statement. It also names the states that a reading passes through, so that other
modules can speak of the counter before a line.
-/

namespace WordMachine

private theorem foldl_take_succ {σ α : Type} (f : σ → α → σ) (s : σ) {items : List α} {i : Nat}
    {item : α} (h : items[i]? = some item) :
    (items.take (i + 1)).foldl f s = f ((items.take i).foldl f s) item := by
  rw [List.take_add_one, List.foldl_append, h]
  rfl

/-! ## Statements -/

/-- The statement on line `i` of a program. -/
def statementAt (lines : List Text) (i : Nat) : Option Statement := lines[i]?.bind Statement.parse

/-- The address that a statement moves the counter to, if it is a valid location directive. -/
def Statement.location? (statement : Statement) : Option Int :=
  if statement.keyword = Keyword.loc then (Operand.location statement.operands).toOption else none

theorem Statement.location?_eq_some_iff {statement : Statement} {address : Int} :
    statement.location? = some address ↔
      statement.keyword = Keyword.loc ∧ Operand.location statement.operands = .ok address := by
  by_cases hk : statement.keyword = Keyword.loc
  · cases hl : Operand.location statement.operands with
    | error cause => simp [location?, hk, hl, Except.toOption]
    | ok target => simp [location?, hk, hl, Except.toOption]
  · simp [location?, hk]

theorem Layout.advance_of_location {statement : Statement} {address : Int}
    (h : statement.location? = some address) (counter : Int) :
    advance counter statement = address := by
  obtain ⟨hk, hl⟩ := Statement.location?_eq_some_iff.mp h
  simp [advance, hk, hl]

theorem Layout.advance_of_no_location {statement : Statement}
    (h : statement.location? = none) (counter : Int) :
    advance counter statement =
      counter + if statement.keyword = Keyword.loc then 0 else 1 := by
  by_cases hk : statement.keyword = Keyword.loc
  · cases hl : Operand.location statement.operands with
    | error cause => simp [advance, hk, hl]
    | ok target =>
        rw [Statement.location?_eq_some_iff.mpr ⟨hk, hl⟩] at h
        cases h
  · simp [advance, hk]

/-! ## Demands -/

namespace Demand

/-- The counter after a demand has been met at `counter`. -/
def next (counter : Int) : Demand → Int
  | nothing => counter
  | moveTo address => address
  | badMove _ => counter
  | emit _ => counter + 1
  | reject _ => counter + 1

/-- What the row of a demand shows that has been met at `counter`. -/
def content (counter : Int) : Demand → Content
  | nothing => .label
  | moveTo _ => .location
  | badMove _ => .location
  | emit word => if maxAddress < counter then .rejected counter else .word counter word
  | reject _ => .rejected counter

/-- A row that shows an address shows the counter, and its demand takes up one address. -/
theorem next_of_content_address {counter address : Int} {d : Demand}
    (h : (d.content counter).address? = some address) :
    address = counter ∧ d.next counter = counter + 1 := by
  cases d with
  | nothing => simp [content, Content.address?] at h
  | moveTo target => simp [content, Content.address?] at h
  | badMove cause => simp [content, Content.address?] at h
  | emit word =>
      refine ⟨?_, rfl⟩
      by_cases hc : maxAddress < counter
      · simpa [content, hc, Content.address?] using h.symm
      · simpa [content, hc, Content.address?] using h.symm
  | reject cause =>
      refine ⟨?_, rfl⟩
      simpa [content, Content.address?] using h.symm

/-- A row without an address leaves the counter where it is, unless the counter is moved. -/
theorem next_of_content_no_address {counter : Int} {d : Demand}
    (h : (d.content counter).address? = none) (hmove : ∀ target, d ≠ .moveTo target) :
    d.next counter = counter := by
  cases d with
  | nothing => rfl
  | moveTo target => exact absurd rfl (hmove target)
  | badMove cause => rfl
  | emit word =>
      by_cases hc : maxAddress < counter
      · simp [content, hc, Content.address?] at h
      · simp [content, hc, Content.address?] at h
  | reject cause => simp [content, Content.address?] at h

theorem location?_of_ofKeyword {labels : Labels} {statement : Statement} {target : Int}
    (h : ofKeyword labels statement.keyword statement.operands = moveTo target) :
    statement.location? = some target := by
  have hword (result : Except Cause Word) : ofWord result ≠ moveTo target := by
    cases result <;> simp [ofWord]
  by_cases hk : statement.keyword = Keyword.loc
  · rw [ofKeyword, if_pos hk] at h
    cases hl : Operand.location statement.operands with
    | error cause => simp [hl, ofLocation] at h
    | ok address =>
        rw [hl, ofLocation] at h
        cases h
        exact Statement.location?_eq_some_iff.mpr ⟨hk, hl⟩
  · rw [ofKeyword, if_neg hk] at h
    by_cases hd : statement.keyword = Keyword.data
    · rw [if_pos hd] at h
      exact absurd h (hword _)
    · rw [if_neg hd] at h
      exact absurd h (hword _)

/-- Only a valid location directive moves the counter to an address of its own. -/
theorem location?_of_ofStatement {rule : LabelRule} {labels : Labels} {statement : Statement}
    {target : Int} (h : ofStatement rule labels statement = moveTo target) :
    statement.location? = some target := by
  unfold ofStatement at h
  split at h
  · split at h
    · cases h
    · split at h
      · split at h <;> cases h
      · exact location?_of_ofKeyword h
  · exact location?_of_ofKeyword h

/-- A demand moves the counter of the second reading as its statement moves that of the first,
whatever the labels are and whether or not a word can be assembled. -/
theorem next_ofKeyword (labels : Labels) (counter : Int) (statement : Statement) :
    (ofKeyword labels statement.keyword statement.operands).next counter =
      Layout.advance counter statement := by
  have hword (result : Except Cause Word) : (ofWord result).next counter = counter + 1 := by
    cases result <;> rfl
  by_cases hk : statement.keyword = Keyword.loc
  · simp only [ofKeyword, Layout.advance, hk, if_true]
    cases Operand.location statement.operands <;> rfl
  · simp only [ofKeyword, Layout.advance, hk, if_false]
    by_cases hd : statement.keyword = Keyword.data
    · simp only [hd, if_true, hword]
    · simp only [hd, if_false, hword]

end Demand

/-- The image after the word of a row, if it has one, has been placed. -/
def Content.place (image : Image) : Content → Image
  | .word address w => image.insert address w
  | _ => image

namespace Emission

/-- What the row of a demand remarks: the cause of a failure, or else the note on its label. -/
def remark (e : Emission) (column : Int) (note : Option Diagnostic) : Demand → Option Diagnostic
  | .nothing => note
  | .moveTo _ => note
  | .badMove cause => some ⟨e.position column, cause⟩
  | .emit _ => if maxAddress < e.counter then some e.overflow else note
  | .reject cause => some ⟨e.position column, cause⟩

theorem meet_counter (e : Emission) (source : Text) (column : Int) (note : Option Diagnostic)
    (d : Demand) : (e.meet source column note d).counter = d.next e.counter := by
  cases d with
  | nothing => rfl
  | moveTo address => rfl
  | badMove cause => rfl
  | emit word =>
      by_cases hc : maxAddress < e.counter
      · simp [meet, emit, hc, reject, Demand.next]
      · simp [meet, emit, hc, Demand.next]
  | reject cause => rfl

theorem meet_image (e : Emission) (source : Text) (column : Int) (note : Option Diagnostic)
    (d : Demand) :
    (e.meet source column note d).image = (d.content e.counter).place e.image := by
  cases d with
  | nothing => rfl
  | moveTo address => rfl
  | badMove cause => rfl
  | emit word =>
      by_cases hc : maxAddress < e.counter
      · simp [meet, emit, hc, reject, report, addRow, Demand.content, Content.place]
      · simp [meet, emit, hc, Demand.content, Content.place]
  | reject cause => rfl

theorem meet_rows (e : Emission) (source : Text) (column : Int) (note : Option Diagnostic)
    (d : Demand) :
    (e.meet source column note d).rows =
      e.rows.push ⟨source, d.content e.counter, e.remark column note d⟩ := by
  cases d with
  | nothing => rfl
  | moveTo address => rfl
  | badMove cause => rfl
  | emit word =>
      by_cases hc : maxAddress < e.counter
      · simp [meet, emit, hc, reject, report, addRow, Demand.content, remark]
      · simp [meet, emit, hc, addRow, Demand.content, remark]
  | reject cause => rfl

theorem meet_declared (e : Emission) (source : Text) (column : Int) (note : Option Diagnostic)
    (d : Demand) : (e.meet source column note d).declared = e.declared := by
  cases d with
  | nothing => rfl
  | moveTo address => rfl
  | badMove cause => rfl
  | emit word =>
      by_cases hc : maxAddress < e.counter
      · simp [meet, emit, reject, addRow, report, hc]
      · simp [meet, emit, addRow, hc]
  | reject cause => rfl

/-- Reading a label leaves everything alone but the labels met and the diagnostics. -/
theorem readLabel_frame (e : Emission) (statement : Statement) :
    (e.readLabel statement).counter = e.counter ∧
      (e.readLabel statement).linesRead = e.linesRead ∧
      (e.readLabel statement).image = e.image ∧
      (e.readLabel statement).rows = e.rows := by
  cases h : e.redeclaration statement with
  | none => simp [readLabel, reportIfAny, h]
  | some diagnostic => simp [readLabel, reportIfAny, h, report]

theorem remark_readLabel (e : Emission) (statement : Statement) (column : Int)
    (note : Option Diagnostic) (d : Demand) :
    (e.readLabel statement).remark column note d = e.remark column note d := by
  obtain ⟨hcounter, hlines, -, -⟩ := e.readLabel_frame statement
  have hposition (c : Int) : (e.readLabel statement).position c = e.position c := by
    simp only [position, lineNumber, hlines]
  cases d <;> simp only [remark, overflow, hcounter, hposition]

/-! ## Lines -/

/-- The row that the second reading adds for a line. -/
def row (rule : LabelRule) (labels : Labels) (e : Emission) (raw : Text) : Row :=
  match Statement.parse raw with
  | none => ⟨raw, .blank, none⟩
  | some statement =>
    let demand := Demand.ofStatement rule labels statement
    ⟨raw, demand.content e.counter,
      e.remark statement.column (e.redeclaration statement) demand⟩

variable {rule : LabelRule} {labels : Labels}

theorem step_blank (e : Emission) {raw : Text} (h : Statement.parse raw = none) :
    (step rule labels e raw).counter = e.counter := by
  simp [step, h, addRow]

theorem step_counter (e : Emission) {raw : Text} {statement : Statement}
    (h : Statement.parse raw = some statement) :
    (step rule labels e raw).counter =
      (Demand.ofStatement rule labels statement).next e.counter := by
  simp only [step, h, meet_counter, (e.readLabel_frame statement).1]

theorem step_declared (e : Emission) {raw : Text} {statement : Statement}
    (h : Statement.parse raw = some statement) :
    (step rule labels e raw).declared = remember e.declared statement := by
  simp only [step, h, meet_declared, readLabel]

theorem step_rows (e : Emission) (raw : Text) :
    (step rule labels e raw).rows = e.rows.push (e.row rule labels raw) := by
  cases h : Statement.parse raw with
  | none => simp [step, row, h, addRow]
  | some statement =>
      obtain ⟨hcounter, -, -, hrows⟩ := e.readLabel_frame statement
      simp only [step, row, h, meet_rows, remark_readLabel, hcounter, hrows]

/-- The image changes by the word that the new row shows, and by nothing else. -/
theorem step_image (e : Emission) (raw : Text) :
    (step rule labels e raw).image = (e.row rule labels raw).content.place e.image := by
  cases h : Statement.parse raw with
  | none => simp [step, row, h, addRow, Content.place]
  | some statement =>
      obtain ⟨hcounter, -, himage, -⟩ := e.readLabel_frame statement
      simp only [step, row, h, meet_image, hcounter, himage]

end Emission

theorem Layout.step_counter (rule : LabelRule) (layout : Layout) {raw : Text}
    {statement : Statement} (h : Statement.parse raw = some statement) :
    (step rule layout raw).counter =
      if isPassedOver rule statement then layout.counter
      else advance layout.counter statement := by
  simp only [step, h, place]

/-! ## The states before each line -/

/-- The first reading of a program, as it stands before line `i`. -/
def Layout.before (rule : LabelRule) (lines : List Text) (i : Nat) : Layout :=
  run rule (lines.take i)

/-- The second reading of a program, as it stands before line `i`. -/
def Emission.before (rule : LabelRule) (labels : Labels) (lines : List Text) (i : Nat) :
    Emission :=
  run rule labels (lines.take i)

theorem Layout.before_succ (rule : LabelRule) {lines : List Text} {i : Nat} {raw : Text}
    (h : lines[i]? = some raw) :
    before rule lines (i + 1) = step rule (before rule lines i) raw :=
  foldl_take_succ _ _ h

theorem Emission.before_succ (rule : LabelRule) (labels : Labels) {lines : List Text} {i : Nat}
    {raw : Text} (h : lines[i]? = some raw) :
    before rule labels lines (i + 1) = step rule labels (before rule labels lines i) raw :=
  foldl_take_succ _ _ h

/-- Lines that come later make no difference to what stands before line `i`. -/
theorem Emission.before_append_left (rule : LabelRule) (labels : Labels) {lines : List Text}
    {i : Nat} (h : i ≤ lines.length) (rest : List Text) :
    before rule labels (lines ++ rest) i = before rule labels lines i := by
  rw [before, before, List.take_append_of_le_length h]

theorem Emission.before_length (rule : LabelRule) (labels : Labels) (lines : List Text) :
    before rule labels lines lines.length = run rule labels lines := by
  rw [before, List.take_length]

theorem Layout.run_append_singleton (rule : LabelRule) (lines : List Text) (raw : Text) :
    run rule (lines ++ [raw]) = step rule (run rule lines) raw := by
  simp only [run, List.foldl_append, List.foldl_cons, List.foldl_nil]

theorem Emission.run_append_singleton (rule : LabelRule) (labels : Labels) (lines : List Text)
    (raw : Text) :
    run rule labels (lines ++ [raw]) = step rule labels (run rule labels lines) raw := by
  simp only [run, List.foldl_append, List.foldl_cons, List.foldl_nil]

theorem Emission.listing_append_singleton (rule : LabelRule) (labels : Labels) (lines : List Text)
    (raw : Text) :
    (run rule labels (lines ++ [raw])).listing =
      (run rule labels lines).listing ++ [(run rule labels lines).row rule labels raw] := by
  simp [run_append_singleton, listing, step_rows]

theorem Emission.length_listing_run (rule : LabelRule) (labels : Labels) (lines : List Text) :
    (run rule labels lines).listing.length = lines.length := by
  induction lines using List.reverseRecOn with
  | nil => rfl
  | append_singleton lines raw ih =>
      rw [listing_append_singleton, List.length_append, List.length_append, ih]
      rfl

/-- Each line has one row, which the reading adds when it comes to that line. -/
theorem Emission.listing_run_getElem? (rule : LabelRule) (labels : Labels) (lines : List Text)
    (i : Nat) :
    (run rule labels lines).listing[i]? =
      lines[i]?.map ((before rule labels lines i).row rule labels) := by
  induction lines using List.reverseRecOn with
  | nil => simp [run, start, listing]
  | append_singleton lines raw ih =>
      have hlength := length_listing_run rule labels lines
      rw [listing_append_singleton]
      -- The row of a line before the last is in the shorter listing already.
      rcases Nat.lt_trichotomy i lines.length with hi | rfl | hi
      · rw [List.getElem?_append_left (by omega), List.getElem?_append_left hi, ih,
          before_append_left rule labels (by omega)]
      · rw [before_append_left rule labels (by omega), before_length]
        simp [← hlength]
      · rw [List.getElem?_eq_none (by simp; omega), List.getElem?_eq_none (by simp; omega)]
        rfl

theorem Emission.exists_line_of_mem_listing {rule : LabelRule} {labels : Labels}
    {lines : List Text} {found : Row} (h : found ∈ (run rule labels lines).listing) :
    ∃ i raw, lines[i]? = some raw ∧ found = (before rule labels lines i).row rule labels raw := by
  obtain ⟨i, hi⟩ := List.mem_iff_getElem?.mp h
  rw [listing_run_getElem?] at hi
  obtain ⟨raw, hraw, rfl⟩ := Option.map_eq_some_iff.mp hi
  exact ⟨i, raw, hraw, rfl⟩

end WordMachine
