import WordMachine.Proofs.Assembly.Reading
import WordMachine.Proofs.Source.Statement

/-!
# Diagnostics and the rows that they annotate

A line reports what is wrong with its label and then why its own statement fails, so it has at most
two diagnostics. The row of the line shows the last of them. Diagnostics therefore come in the order
of their lines, and the rows can be read off them.
-/

namespace WordMachine

/-- The word of a statement that is no location directive, or the cause why it has none. -/
def Statement.word (s : Statement) (labels : Labels) : Except Cause Word :=
  if s.keyword = Keyword.data then Operand.data labels s.operands
  else encode labels s.keyword (splitOperands s.operands)

theorem Demand.ofKeyword_of_ne_loc (labels : Labels) {s : Statement}
    (hloc : s.keyword ≠ Keyword.loc) :
    ofKeyword labels s.keyword s.operands = ofWord (s.word labels) := by
  rw [ofKeyword, if_neg hloc, Statement.word]
  split <;> rfl

/-- Why a statement fails that stands at the address `counter`. -/
inductive Statement.FailsWith (s : Statement) (labels : Labels) (counter : Int) : Cause → Prop
  /-- A location directive without a valid location. -/
  | location {cause : Cause} : s.keyword = Keyword.loc →
      Operand.location s.operands = .error cause → FailsWith s labels counter cause
  /-- A statement without a word. -/
  | word {cause : Cause} : s.keyword ≠ Keyword.loc → s.word labels = .error cause →
      FailsWith s labels counter cause
  /-- A word that has no place in memory. -/
  | overflow {w : Word} : s.keyword ≠ Keyword.loc → s.word labels = .ok w →
      maxAddress < counter → FailsWith s labels counter (.addressOverflow counter)

namespace Emission

/-- The complaint about a demand that cannot be met. -/
def failure (e : Emission) (column : Int) : Demand → Option Diagnostic
  | .nothing => none
  | .moveTo _ => none
  | .badMove cause => some ⟨e.position column, cause⟩
  | .emit _ => if maxAddress < e.counter then some e.overflow else none
  | .reject cause => some ⟨e.position column, cause⟩

/-- What the second reading reports about a line: first its label, then its statement. -/
def complaints (rule : LabelRule) (labels : Labels) (e : Emission) (raw : Text) :
    List Diagnostic :=
  match Statement.parse raw with
  | none => []
  | some statement =>
    (e.redeclaration statement).toList ++
      (e.failure statement.column (Demand.ofStatement rule labels statement)).toList

/-! ## One line -/

theorem remark_eq (e : Emission) (column : Int) (note : Option Diagnostic) (d : Demand) :
    e.remark column note d = (e.failure column d).or note := by
  cases d with
  | nothing => rfl
  | moveTo address => rfl
  | badMove cause => rfl
  | emit word => by_cases hc : maxAddress < e.counter <;> simp [remark, failure, hc]
  | reject cause => rfl

theorem meet_diagnostics (e : Emission) (source : Text) (column : Int) (note : Option Diagnostic)
    (d : Demand) :
    (e.meet source column note d).diagnostics.toList =
      e.diagnostics.toList ++ (e.failure column d).toList := by
  cases d with
  | nothing => simp [meet, addRow, failure]
  | moveTo address => simp [meet, addRow, failure]
  | badMove cause => simp [meet, addRow, report, failure]
  | emit word =>
      by_cases hc : maxAddress < e.counter
      · simp [meet, emit, reject, addRow, report, failure, hc]
      · simp [meet, emit, addRow, failure, hc]
  | reject cause => simp [meet, reject, addRow, report, failure]

theorem meet_linesRead (e : Emission) (source : Text) (column : Int) (note : Option Diagnostic)
    (d : Demand) : (e.meet source column note d).linesRead = e.linesRead + 1 := by
  cases d with
  | nothing => rfl
  | moveTo address => rfl
  | badMove cause => rfl
  | emit word =>
      by_cases hc : maxAddress < e.counter
      · simp [meet, emit, reject, addRow, report, hc]
      · simp [meet, emit, addRow, hc]
  | reject cause => rfl

theorem readLabel_diagnostics (e : Emission) (statement : Statement) :
    (e.readLabel statement).diagnostics.toList =
      e.diagnostics.toList ++ (e.redeclaration statement).toList := by
  cases h : e.redeclaration statement with
  | none => simp [readLabel, reportIfAny, h]
  | some diagnostic => simp [readLabel, reportIfAny, h, report]

theorem failure_readLabel (e : Emission) (statement : Statement) (column : Int) (d : Demand) :
    (e.readLabel statement).failure column d = e.failure column d := by
  obtain ⟨hcounter, hlines, -, -⟩ := e.readLabel_frame statement
  have hposition (c : Int) : (e.readLabel statement).position c = e.position c := by
    simp only [position, lineNumber, hlines]
  cases d <;> simp only [failure, overflow, hcounter, hposition]

variable {rule : LabelRule} {labels : Labels}

theorem step_diagnostics (e : Emission) (raw : Text) :
    (step rule labels e raw).diagnostics.toList =
      e.diagnostics.toList ++ e.complaints rule labels raw := by
  cases h : Statement.parse raw with
  | none => simp [step, complaints, h, addRow]
  | some statement =>
      simp only [step, complaints, h, meet_diagnostics, readLabel_diagnostics, failure_readLabel,
        List.append_assoc]

theorem step_linesRead (e : Emission) (raw : Text) :
    (step rule labels e raw).linesRead = e.linesRead + 1 := by
  cases h : Statement.parse raw with
  | none => simp [step, h, addRow]
  | some statement =>
      simp only [step, h, meet_linesRead, (e.readLabel_frame statement).2.1]

/-- The row of a line shows the last complaint about it. -/
theorem row_diagnostic (e : Emission) (raw : Text) :
    (e.row rule labels raw).diagnostic = (e.complaints rule labels raw).getLast? := by
  cases h : Statement.parse raw with
  | none => simp [row, complaints, h]
  | some statement =>
      simp only [row, complaints, h, remark_eq]
      cases e.failure statement.column (Demand.ofStatement rule labels statement) with
      | none => cases e.redeclaration statement <;> rfl
      | some diagnostic => simp

theorem redeclaration_eq_some {e : Emission} {statement : Statement} {d : Diagnostic}
    (h : e.redeclaration statement = some d) :
    ∃ name, statement.label = some name ∧
      d = ⟨e.position statement.column, .redeclaredLabel name⟩ := by
  unfold redeclaration at h
  split at h
  · cases h
  · next name hlabel =>
      split at h
      · cases h
        exact ⟨name, hlabel, rfl⟩
      · cases h

theorem line_of_failure {e : Emission} {column : Int} {demand : Demand} {d : Diagnostic}
    (h : e.failure column demand = some d) : d.position.line = e.lineNumber := by
  cases demand with
  | nothing => cases h
  | moveTo address => cases h
  | badMove cause =>
      cases h
      rfl
  | emit word =>
      simp only [failure] at h
      split at h
      · cases h
        rfl
      · cases h
  | reject cause =>
      cases h
      rfl

/-- Complaints about a line carry its number. -/
theorem line_of_mem_complaints {e : Emission} {raw : Text} {d : Diagnostic}
    (h : d ∈ e.complaints rule labels raw) : d.position.line = e.lineNumber := by
  unfold complaints at h
  split at h
  · cases h
  · rcases List.mem_append.mp h with h | h
    · obtain ⟨name, -, rfl⟩ := redeclaration_eq_some (Option.mem_toList.mp h)
      rfl
    · exact line_of_failure (Option.mem_toList.mp h)

/-! ## The failure of a statement -/

theorem failsWith_of_ofKeyword {e : Emission} {s : Statement} {column : Int} {d : Diagnostic}
    (h : e.failure column (Demand.ofKeyword labels s.keyword s.operands) = some d) :
    s.FailsWith labels e.counter d.cause := by
  by_cases hloc : s.keyword = Keyword.loc
  · rw [Demand.ofKeyword, if_pos hloc] at h
    cases hlocation : Operand.location s.operands with
    | ok address =>
        rw [hlocation] at h
        cases h
    | error cause =>
        rw [hlocation] at h
        cases h
        exact .location hloc hlocation
  · rw [Demand.ofKeyword_of_ne_loc labels hloc] at h
    cases hword : s.word labels with
    | error cause =>
        rw [hword] at h
        cases h
        exact .word hloc hword
    | ok w =>
        simp only [hword, Demand.ofWord, failure] at h
        split at h
        · next hmax =>
            cases h
            exact .overflow hloc hword hmax
        · cases h

theorem word_of_stop (labels : Labels) {s : Statement}
    (hkeyword : s.keyword = Operation.hlt.keyword) (hoperands : s.operands = []) :
    ∃ w, s.word labels = .ok w := by
  rw [Statement.word, hkeyword, hoperands]
  exact ⟨_, rfl⟩

/-- Whatever is reported about a statement is its own failure. Under the legacy rule the only
statement after a label that can fail is a stop that has no place in memory. -/
theorem failsWith_of_failure {e : Emission} {raw : Text} {s : Statement}
    (hparse : Statement.parse raw = some s) {column : Int} {d : Diagnostic}
    (h : e.failure column (Demand.ofStatement rule labels s) = some d) :
    s.FailsWith labels e.counter d.cause := by
  unfold Demand.ofStatement at h
  split at h
  · split at h
    · cases h
    · split at h
      · split at h
        · next hbody =>
            have hplain : ∀ b ∈ s.body, Text.isPlain b := by
              rw [hbody, ← List.all_eq_true]
              decide
            obtain ⟨hkeyword, hoperands⟩ := Statement.keyword_of_plain_body hparse hplain
            rw [hbody] at hkeyword
            obtain ⟨w, hword⟩ := word_of_stop labels hkeyword hoperands
            simp only [failure] at h
            split at h
            · next hmax =>
                cases h
                refine .overflow ?_ hword hmax
                rw [hkeyword]
                decide
            · cases h
        · cases h
      · exact failsWith_of_ofKeyword h
  · exact failsWith_of_ofKeyword h

/-! ## Whole runs -/

variable (rule labels)

theorem linesRead_run (lines : List Text) : (run rule labels lines).linesRead = lines.length := by
  induction lines using List.reverseRecOn with
  | nil => rfl
  | append_singleton lines raw ih =>
      rw [run_append_singleton, step_linesRead, ih, List.length_append]
      rfl

theorem lineNumber_run (lines : List Text) :
    (run rule labels lines).lineNumber = (lines.length : Int) + 1 := by
  rw [lineNumber, linesRead_run]

variable {rule labels} in
theorem line_of_mem_complaints_run {lines : List Text} {raw : Text} {d : Diagnostic}
    (h : d ∈ (run rule labels lines).complaints rule labels raw) :
    d.position.line = (lines.length : Int) + 1 := by
  rw [line_of_mem_complaints h, lineNumber_run]

theorem diagnostics_append_singleton (lines : List Text) (raw : Text) :
    (run rule labels (lines ++ [raw])).diagnostics.toList =
      (run rule labels lines).diagnostics.toList ++
        (run rule labels lines).complaints rule labels raw := by
  rw [run_append_singleton, step_diagnostics]

/-- Every diagnostic carries the number of a line. -/
theorem line_of_mem_diagnostics {lines : List Text} {d : Diagnostic}
    (h : d ∈ (run rule labels lines).diagnostics.toList) :
    1 ≤ d.position.line ∧ d.position.line ≤ lines.length := by
  induction lines using List.reverseRecOn with
  | nil => cases h
  | append_singleton lines raw ih =>
      rw [diagnostics_append_singleton] at h
      rw [List.length_append, List.length_singleton]
      rcases List.mem_append.mp h with h | h
      · have hline := ih h
        omega
      · have hline := line_of_mem_complaints_run h
        omega

theorem pairwise_diagnostics_run (lines : List Text) :
    (run rule labels lines).diagnostics.toList.Pairwise
      fun d d' => d.position.line ≤ d'.position.line := by
  induction lines using List.reverseRecOn with
  | nil => exact List.Pairwise.nil
  | append_singleton lines raw ih =>
      rw [diagnostics_append_singleton]
      refine List.pairwise_append.mpr ⟨ih, ?_, ?_⟩
      · apply List.pairwise_of_forall_mem_list
        intro d hd d' hd'
        have hsame : d.position.line = d'.position.line :=
          (line_of_mem_complaints_run hd).trans (line_of_mem_complaints_run hd').symm
        exact Int.le_of_eq hsame
      · intro d hd d' hd'
        have hline := line_of_mem_diagnostics rule labels hd
        rw [line_of_mem_complaints_run hd']
        omega

end Emission

/-- The diagnostics that carry a line number, in the order in which they were reported. -/
def diagnosticsOn (diagnostics : List Diagnostic) (line : Int) : List Diagnostic :=
  diagnostics.filter fun d => d.position.line == line

namespace Emission

variable (rule : LabelRule) (labels : Labels)

/-- The diagnostics on a line are the complaints that the reading makes when it comes to it. -/
theorem diagnosticsOn_run {lines : List Text} {i : Nat} {raw : Text} (h : lines[i]? = some raw) :
    diagnosticsOn (run rule labels lines).diagnostics.toList (i + 1) =
      (before rule labels lines i).complaints rule labels raw := by
  induction lines using List.reverseRecOn with
  | nil => cases h
  | append_singleton lines last ih =>
      rw [diagnostics_append_singleton, diagnosticsOn, List.filter_append]
      rcases Nat.lt_or_ge i lines.length with hi | hi
      · -- The complaints about the last line carry a greater number.
        have hnone : ((run rule labels lines).complaints rule labels last).filter
            (fun d => d.position.line == (i + 1 : Int)) = [] := by
          apply List.filter_eq_nil_iff.mpr
          intro d hd
          rw [line_of_mem_complaints_run hd, beq_iff_eq]
          omega
        rw [List.getElem?_append_left hi] at h
        rw [hnone, List.append_nil, before_append_left rule labels (by omega)]
        exact ih h
      · obtain ⟨hlength, -⟩ := List.getElem?_eq_some_iff.mp h
        obtain rfl : i = lines.length := by
          rw [List.length_append, List.length_singleton] at hlength
          omega
        obtain rfl : last = raw := by simpa using h
        have hearlier : (run rule labels lines).diagnostics.toList.filter
            (fun d => d.position.line == (lines.length + 1 : Int)) = [] := by
          apply List.filter_eq_nil_iff.mpr
          intro d hd
          have hline := line_of_mem_diagnostics rule labels hd
          rw [beq_iff_eq]
          omega
        have hall : ((run rule labels lines).complaints rule labels last).filter
            (fun d => d.position.line == (lines.length + 1 : Int)) =
              (run rule labels lines).complaints rule labels last := by
          apply List.filter_eq_self.mpr
          intro d hd
          rw [line_of_mem_complaints_run hd, beq_self_eq_true]
        rw [hearlier, hall, List.nil_append, before_append_left rule labels (by omega),
          before_length]

variable {rule labels}

theorem length_complaints_le (e : Emission) (raw : Text) :
    (e.complaints rule labels raw).length ≤ 2 := by
  unfold complaints
  split
  · simp
  · next statement hparse =>
      have hlabel := Option.length_toList_le (o := e.redeclaration statement)
      have hfailure := Option.length_toList_le
        (o := e.failure statement.column (Demand.ofStatement rule labels statement))
      rw [List.length_append]
      omega

/-- Of two complaints about a line the first is about its label, and the second is the failure of
its statement. -/
theorem complaints_eq_pair {e : Emission} {raw : Text} {first second : Diagnostic}
    (h : e.complaints rule labels raw = [first, second]) :
    ∃ statement name, Statement.parse raw = some statement ∧ statement.label = some name ∧
      first.cause = .redeclaredLabel name ∧ statement.FailsWith labels e.counter second.cause := by
  unfold complaints at h
  split at h
  · cases h
  · next statement hparse =>
      cases hnote : e.redeclaration statement with
      | none =>
          cases hfailure : e.failure statement.column
              (Demand.ofStatement rule labels statement) <;> simp [hnote, hfailure] at h
      | some note =>
          cases hfailure : e.failure statement.column
              (Demand.ofStatement rule labels statement) with
          | none => simp [hnote, hfailure] at h
          | some failed =>
              simp only [hnote, hfailure, Option.toList_some, List.singleton_append,
                List.cons.injEq, and_true] at h
              obtain ⟨rfl, rfl⟩ := h
              obtain ⟨name, hlabel, rfl⟩ := redeclaration_eq_some hnote
              exact ⟨statement, name, hparse, hlabel, rfl, failsWith_of_failure hparse hfailure⟩

/-- The row of a rejected line shows a complaint, and the row of a blank line shows none. -/
theorem row_diagnostic_of_content (e : Emission) (raw : Text) :
    (∀ address, (e.row rule labels raw).content = .rejected address →
      (e.row rule labels raw).diagnostic.isSome) ∧
    ((e.row rule labels raw).content = .blank → (e.row rule labels raw).diagnostic = none) := by
  cases hparse : Statement.parse raw with
  | none => simp [row, hparse]
  | some statement =>
      simp only [row, hparse, remark_eq]
      cases Demand.ofStatement rule labels statement with
      | nothing => simp [Demand.content]
      | moveTo target => simp [Demand.content]
      | badMove cause => simp [Demand.content]
      | emit word => by_cases hc : maxAddress < e.counter <;> simp [Demand.content, failure, hc]
      | reject cause => simp [Demand.content, failure]

end Emission

/-- The diagnostics `found` on a line agree with its row. `counter` is the address at which the line
stands. -/
structure LineReport (labels : Labels) (counter : Int) (raw : Text) (row : Row)
    (found : List Diagnostic) : Prop where
  /-- The row shows the last diagnostic, and none if there is none. -/
  shown : row.diagnostic = found.getLast?
  atMostTwo : found.length ≤ 2
  /-- Of two diagnostics the first says that the label of the line is declared again, and the second
  is the failure of the statement on the line. -/
  ofTwo : ∀ first second, found = [first, second] →
    ∃ statement name, Statement.parse raw = some statement ∧ statement.label = some name ∧
      first.cause = .redeclaredLabel name ∧ statement.FailsWith labels counter second.cause
  rejected : ∀ address, row.content = .rejected address → row.diagnostic.isSome
  blank : row.content = .blank → row.diagnostic = none

/-- Diagnostics come in the order of their lines, each carries the number of a line, and those on a
line agree with the row of that line. -/
theorem diagnostics_match_rows (rule : LabelRule) (labels : Labels) (lines : List Text) :
    ((Emission.run rule labels lines).diagnostics.toList.Pairwise
      fun d d' => d.position.line ≤ d'.position.line) ∧
    (∀ d ∈ (Emission.run rule labels lines).diagnostics.toList,
      1 ≤ d.position.line ∧ d.position.line ≤ lines.length) ∧
    ∀ (i : Nat) (raw : Text), lines[i]? = some raw →
      ∃ row, (Emission.run rule labels lines).listing[i]? = some row ∧
        LineReport labels (Emission.before rule labels lines i).counter raw row
          (diagnosticsOn (Emission.run rule labels lines).diagnostics.toList (i + 1)) := by
  refine ⟨Emission.pairwise_diagnostics_run rule labels lines, ?_, ?_⟩
  · intro d hd
    exact Emission.line_of_mem_diagnostics rule labels hd
  · intro i raw hraw
    refine ⟨(Emission.before rule labels lines i).row rule labels raw, ?_, ?_⟩
    · rw [Emission.listing_run_getElem?, hraw, Option.map_some]
    · rw [Emission.diagnosticsOn_run rule labels hraw]
      exact
        { shown := Emission.row_diagnostic _ raw
          atMostTwo := Emission.length_complaints_le _ raw
          ofTwo := fun _ _ hpair => Emission.complaints_eq_pair hpair
          rejected := (Emission.row_diagnostic_of_content _ raw).1
          blank := (Emission.row_diagnostic_of_content _ raw).2 }

/-- A label that is declared again before a stop that runs past the memory. -/
def pastTheEndAgain : List Text :=
  ["LOC 65535", "end: HLT", "end: HLT", "; nothing"].map Text.ascii

/-- Under the legacy rule, too, the second stop has two diagnostics: one is about its label, and the
other one, which its row shows, is about the word. -/
theorem pastTheEndAgain_report :
    ∃ row first second statement,
      (Emission.run .legacy .empty pastTheEndAgain).listing[2]? = some row ∧
      diagnosticsOn (Emission.run .legacy .empty pastTheEndAgain).diagnostics.toList 3 =
        [first, second] ∧
      row.diagnostic = some second ∧
      Statement.parse (Text.ascii "end: HLT") = some statement ∧
      first.cause = .redeclaredLabel (Text.ascii "end") ∧
      statement.FailsWith .empty 65536 second.cause := by
  obtain ⟨-, -, hlines⟩ := diagnostics_match_rows .legacy .empty pastTheEndAgain
  obtain ⟨row, hrow, report⟩ := hlines 2 (Text.ascii "end: HLT") rfl
  have hfound : diagnosticsOn (Emission.run .legacy .empty pastTheEndAgain).diagnostics.toList 3 =
      [⟨⟨3, 6⟩, .redeclaredLabel (Text.ascii "end")⟩, ⟨⟨3, 1⟩, .addressOverflow 65536⟩] := by
    decide +kernel
  have hcounter : (Emission.before .legacy .empty pastTheEndAgain 2).counter = 65536 := by
    decide +kernel
  obtain ⟨statement, name, hparse, -, -, hfails⟩ := report.ofTwo _ _ hfound
  rw [hcounter] at hfails
  have hshown := report.shown.trans (congrArg List.getLast? hfound)
  exact ⟨row, _, _, statement, hrow, hfound, hshown, hparse, rfl, hfails⟩

end WordMachine
