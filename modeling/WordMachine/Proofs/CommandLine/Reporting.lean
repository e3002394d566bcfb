import WordMachine.CommandLine.Assemble
import WordMachine.Proofs.Assembly.Causes
import WordMachine.Proofs.Assembly.Reformatting

/-!
# Reports of diagnostics

A diagnostic points into the line that it is about, so its report shows that line with a marker
under one of its bytes. There are two limits to this. A field has at most a million places, and the
marker of a column beyond that does not stand under it. And a report is one message of the log,
which may have no room for all of it.
-/

namespace WordMachine

/-! ## Errors in the log -/

/-- A text with a line feed at its end, which is added if there is none. -/
def Text.ended (t : Text) : Text :=
  if t.getLast? = some Text.lineFeed then t else t ++ [Text.lineFeed]

theorem Text.length_ended_le (t : Text) : t.ended.length ≤ t.length + 1 := by
  unfold Text.ended
  split
  · omega
  · rw [List.length_append, List.length_singleton]

/-- A log writes every error. One of at most `room` bytes is shown whole, on lines of its own, and
of a longer one no more than so many bytes. -/
structure Log.ShowsErrors (log : Log) (room : Nat) : Prop where
  written : ∀ verbosity text, log.writes verbosity (.error text) = true
  whole : ∀ text, text.length ≤ room → log.shown (.error text) = text.ended
  cut : ∀ text, room < text.length →
    log.shown (.error text) <+: text.take room ++ [Text.lineFeed]

namespace Log.ShowsErrors

variable {log : Log} {room : Nat} (h : log.ShowsErrors room)

include h

theorem line_error (verbosity : Int) (text : Text) :
    log.line verbosity (.error text) = log.head (.error text) ++ log.shown (.error text) := by
  rw [Log.line, h.written, if_pos rfl]

/-- An error is shown whole only if there is room for it. -/
theorem length_shown_le (text : Text) :
    (log.shown (.error text)).length ≤ min text.length room + 1 := by
  by_cases hroom : text.length ≤ room
  · rw [h.whole text hroom, Nat.min_eq_left hroom]
    exact text.length_ended_le
  · have hlength := (h.cut text (Nat.lt_of_not_le hroom)).length_le
    rwa [List.length_append, List.length_take, List.length_singleton, Nat.min_comm] at hlength

/-- What follows a text that fills the log is not shown. -/
theorem mem_of_mem_shown {text more : Text} {b : UInt8} (hroom : room ≤ text.length)
    (hmore : more ≠ []) (hb : b ∈ log.shown (.error (text ++ more))) :
    b ∈ text ∨ b = Text.lineFeed := by
  have hpos := List.length_pos_iff.mpr hmore
  have hcut := h.cut (text ++ more) (by rw [List.length_append]; omega)
  rw [List.take_append_of_le_length hroom] at hcut
  rcases List.mem_append.mp (hcut.subset hb) with hb | hb
  · exact .inl (List.mem_of_mem_take hb)
  · exact .inr (List.mem_singleton.mp hb)

end Log.ShowsErrors

/-- The standard log has room for 14956 bytes of an error. -/
theorem Log.standard_showsErrors : Log.standard.ShowsErrors 14956 where
  written _ _ := rfl
  whole text hroom := by
    have hcut : (Notice.error text).cut = text := List.take_of_length_le hroom
    simp only [Log.standard, hcut, Text.ended]
    split
    · exact List.append_nil text
    · rfl
  cut text _ := by
    change text.take 14956 ++ _ <+: _
    split
    · rw [List.append_nil]
      exact List.prefix_append _ _
    · exact List.prefix_rfl

namespace CommandLine

/-! ## The report of a diagnostic -/

/-- A report up to the place of its marker: the message and the line that it is about. -/
def reportHead (origin : Origin) (d : Diagnostic) (raw : Text) : Text :=
  origin.name ++ [Text.colon] ++ d.message ++ [Text.lineFeed] ++ raw ++ [Text.lineFeed] ++
    Text.ascii "\x1b[31m"

/-- A report with its marker under a column. -/
def markedReport (origin : Origin) (d : Diagnostic) (raw : Text) (column : Nat) : Text :=
  reportHead origin d raw ++ List.replicate (column - 1) Text.space ++ Text.ascii "^" ++
    Text.ascii "\x1b[0m"

/-- A report whose marker stands under no column, after the complaint that its field is too wide. -/
def misplacedReport (origin : Origin) (d : Diagnostic) (raw : Text) : Text :=
  reportHead origin d raw ++ Text.ascii "%!(BADWIDTH)^" ++ Text.ascii "\x1b[0m"

/-- What is printed of the report of a diagnostic. -/
def printedReport (log : Log) (verbosity : Int) (origin : Origin) (lines : List Text)
    (d : Diagnostic) : Text :=
  render log verbosity [.notice (.error (report origin lines d))]

section Report

variable {lines : List Text} {d : Diagnostic} {i column : Nat} {raw : Text}

theorem columnMarker_eq (hwidth : column ≤ widestField) :
    columnMarker column = List.replicate (column - 1) Text.space ++ Text.ascii "^" := by
  rw [columnMarker, if_pos (by omega), Text.padLeft]
  rfl

theorem columnMarker_of_lt (hwidth : widestField < column) :
    columnMarker column = Text.ascii "%!(BADWIDTH)^" := by
  rw [columnMarker, if_neg (by omega)]
  rfl

theorem report_eq (h : d.PointsInto lines i raw column) (origin : Origin) :
    report origin lines d =
      if column ≤ widestField then markedReport origin d raw column
      else misplacedReport origin d raw := by
  have hindex : ((i : Int) + 1).toNat - 1 = i := by omega
  have hline : ¬ (i : Int) + 1 < 1 := by omega
  have hreport : report origin lines d =
      reportHead origin d raw ++ columnMarker column ++ Text.ascii "\x1b[0m" := by
    simp only [report, h.position, hindex, if_neg hline, h.line, reportHead]
  rw [hreport]
  split
  · next hwidth => rw [columnMarker_eq hwidth, ← List.append_assoc, markedReport]
  · next hwidth => rw [columnMarker_of_lt (Nat.lt_of_not_le hwidth), misplacedReport]

/-- The complaint that a field is too wide is shorter than the field. -/
theorem length_misplacedReport_lt (hwidth : widestField < column) (origin : Origin) :
    (misplacedReport origin d raw).length < (markedReport origin d raw column).length := by
  have hmark : (Text.ascii "%!(BADWIDTH)^").length = 13 := rfl
  rw [widestField] at hwidth
  simp only [misplacedReport, markedReport, List.length_append, List.length_replicate, hmark]
  omega

theorem ended_markedReport (origin : Origin) :
    (markedReport origin d raw column).ended =
      markedReport origin d raw column ++ [Text.lineFeed] := by
  have hlast : (Text.ascii "\x1b[0m").getLast? = some 0x6D := by decide
  have hend : (markedReport origin d raw column).getLast? ≠ some Text.lineFeed := by
    rw [markedReport, List.getLast?_append, hlast, Option.some_or]
    decide
  exact if_neg hend

/-- The line and the marker under its column are shown exactly if the column is no wider than a
field and the log has room for them. -/
theorem shown_eq_markedReport_iff (h : d.PointsInto lines i raw column) (origin : Origin)
    {log : Log} {room : Nat} (hlog : log.ShowsErrors room) :
    log.shown (.error (report origin lines d)) =
        markedReport origin d raw column ++ [Text.lineFeed] ↔
      column ≤ widestField ∧ (markedReport origin d raw column).length ≤ room := by
  rw [report_eq h origin]
  by_cases hwidth : column ≤ widestField
  · rw [if_pos hwidth]
    constructor
    · intro hshown
      have hlength := hlog.length_shown_le (markedReport origin d raw column)
      rw [hshown, List.length_append, List.length_singleton] at hlength
      exact ⟨hwidth, by omega⟩
    · rintro ⟨-, hroom⟩
      rw [hlog.whole _ hroom, ended_markedReport]
  · rw [if_neg hwidth]
    constructor
    · intro hshown
      have hlength := hlog.length_shown_le (misplacedReport origin d raw)
      rw [hshown, List.length_append, List.length_singleton] at hlength
      have hshorter : (misplacedReport origin d raw).length <
          (markedReport origin d raw column).length :=
        length_misplacedReport_lt (Nat.lt_of_not_le hwidth) origin
      omega
    · rintro ⟨hle, -⟩
      exact absurd hle hwidth

end Report

/-- Every diagnostic points into its line: to the keyword of its statement, to a label that has the
line for itself, or to the first byte if there is no place for a word. Its report shows the line
with the marker under that column, unless the column is beyond a million. It is printed so, after
the head of a log message, exactly if the log has room for it as well. -/
theorem diagnostics_point_into_their_lines (rule : LabelRule) (labels : Labels)
    (lines : List Text) (d : Diagnostic)
    (hd : d ∈ (Emission.run rule labels lines).diagnostics.toList) :
    ∃ (i : Nat) (raw : Text) (column : Nat), d.PointsInto lines i raw column ∧
      ∀ origin : Origin,
        report origin lines d =
          (if column ≤ 1000000 then markedReport origin d raw column
            else misplacedReport origin d raw) ∧
        ∀ (log : Log) (room : Nat), log.ShowsErrors room → ∀ verbosity : Int,
          (printedReport log verbosity origin lines d =
              log.head (.error (report origin lines d)) ++ markedReport origin d raw column ++
                [Text.lineFeed] ↔
            column ≤ 1000000 ∧ (markedReport origin d raw column).length ≤ room) := by
  obtain ⟨i, raw, column, hpoints⟩ := Emission.exists_pointsInto hd
  refine ⟨i, raw, column, hpoints, fun origin => ⟨report_eq hpoints origin, ?_⟩⟩
  intro log room hlog verbosity
  have hprinted : printedReport log verbosity origin lines d =
      log.head (.error (report origin lines d)) ++ log.shown (.error (report origin lines d)) := by
    rw [printedReport, render, List.flatMap_singleton]
    exact hlog.line_error verbosity _
  rw [hprinted, List.append_assoc, List.append_cancel_left_eq]
  exact shown_eq_markedReport_iff hpoints origin hlog

/-- A label that is declared again after a blank of two bytes and a tab. -/
def declaredAgain : List Text :=
  [Text.ascii "a:", [0xC2, 0xA0] ++ Text.ascii "\ta: ; again"]

/-- The complaint about the second declaration. -/
def declaredAgainComplaint : Diagnostic := ⟨⟨2, 4⟩, .redeclaredLabel (Text.ascii "a")⟩

/-- The marker stands under the fourth byte of the second line, where the label begins. -/
theorem declaredAgain_printed :
    declaredAgainComplaint ∈
      (Emission.run .ordinary .empty declaredAgain).diagnostics.toList ∧
    printedReport .standard 0 .standardInput declaredAgain declaredAgainComplaint =
      Text.ascii "E <stdin>:02:04: Redeclaration of label 'a'\n" ++
        ([0xC2, 0xA0] ++ Text.ascii "\ta: ; again") ++ Text.ascii "\n\x1b[31m   ^\x1b[0m\n" := by
  have hmem : declaredAgainComplaint ∈
      (Emission.run .ordinary .empty declaredAgain).diagnostics.toList := by decide +kernel
  obtain ⟨i, raw, column, hpoints, hprinted⟩ :=
    diagnostics_point_into_their_lines .ordinary .empty declaredAgain declaredAgainComplaint hmem
  obtain ⟨rfl, rfl⟩ : i = 1 ∧ column = 4 := hpoints.eq_of_position rfl
  obtain rfl : [0xC2, 0xA0] ++ Text.ascii "\ta: ; again" = raw := Option.some.inj hpoints.line
  refine ⟨hmem, ?_⟩
  rw [((hprinted .standardInput).2 .standard 14956 Log.standard_showsErrors 0).mpr
    ⟨by decide, by decide +kernel⟩]
  decide +kernel

/-! ## Reports without their marker -/

theorem diagnostics_run_singleton (rule : LabelRule) (labels : Labels) (raw : Text) :
    (Emission.run rule labels [raw]).diagnostics.toList =
      Emission.start.complaints rule labels raw :=
  (Emission.step_diagnostics Emission.start raw).trans (List.nil_append _)

theorem parse_append_comment (raw text : Text) :
    Statement.parse (raw ++ Text.semicolon :: text) = Statement.parse raw := by
  simp only [Statement.parse, Statement.code_append_comment]

/-- An unknown instruction with a long comment. -/
def overlongLine : Text := Text.ascii "FOO " ++ Text.semicolon :: List.replicate 15000 0x63

/-- The complaint about the instruction. -/
def overlongLineComplaint : Diagnostic := ⟨⟨1, 1⟩, .unknownMnemonic (Text.ascii "FOO")⟩

theorem overlongLineComplaint_mem :
    overlongLineComplaint ∈
      (Emission.run .ordinary .empty [overlongLine]).diagnostics.toList := by
  have hsame : Emission.start.complaints .ordinary .empty overlongLine =
      Emission.start.complaints .ordinary .empty (Text.ascii "FOO ") := by
    simp only [Emission.complaints, overlongLine, parse_append_comment]
  rw [diagnostics_run_singleton, hsame]
  decide +kernel

theorem length_overlongLine : overlongLine.length = 15005 := by
  rw [overlongLine, List.length_append, List.length_cons, List.length_replicate]
  rfl

theorem caret_not_mem_overlongLine : 0x5E ∉ overlongLine := by
  intro h
  rcases List.mem_append.mp h with h | h
  · exact absurd h (by decide)
  · rcases List.mem_cons.mp h with h | h
    · exact absurd h (by decide)
    · exact absurd (List.eq_of_mem_replicate h) (by decide)

/-- The report of the complaint up to the line. -/
def overlongLineMessage : Text := Text.ascii "p.asm:01:01: Unknown instruction 'FOO'\n"

theorem exists_report_overlongLine :
    ∃ more, more ≠ [] ∧
      report (.file (Text.ascii "p.asm")) [overlongLine] overlongLineComplaint =
        overlongLineMessage ++ overlongLine ++ more := by
  obtain ⟨i, raw, column, hpoints⟩ := Emission.exists_pointsInto overlongLineComplaint_mem
  obtain ⟨rfl, rfl⟩ : i = 0 ∧ column = 1 := hpoints.eq_of_position rfl
  obtain rfl : overlongLine = raw := Option.some.inj hpoints.line
  have hmessage : (Origin.file (Text.ascii "p.asm")).name ++ [Text.colon] ++
      overlongLineComplaint.message ++ [Text.lineFeed] = overlongLineMessage := by decide +kernel
  refine ⟨[Text.lineFeed] ++ Text.ascii "\x1b[31m" ++ List.replicate (1 - 1) Text.space ++
    Text.ascii "^" ++ Text.ascii "\x1b[0m", by simp, ?_⟩
  rw [report_eq hpoints, if_pos (by decide), markedReport, reportHead, hmessage]
  simp only [List.append_assoc]

/-- A line of more bytes than the log has room for is not shown whole, and the marker under it is
not shown at all. -/
theorem not_shown_overlongLine {log : Log} {room : Nat} (hlog : log.ShowsErrors room)
    (hroom : room ≤ 15000) :
    ¬ overlongLine <:+:
      log.shown (.error (report (.file (Text.ascii "p.asm")) [overlongLine]
        overlongLineComplaint)) ∧
    ¬ Text.ascii "^" <:+:
      log.shown (.error (report (.file (Text.ascii "p.asm")) [overlongLine]
        overlongLineComplaint)) := by
  obtain ⟨more, hmore, hreport⟩ := exists_report_overlongLine
  rw [hreport]
  constructor
  · intro hpart
    have hlength := hpart.length_le
    have hshown := hlog.length_shown_le (overlongLineMessage ++ overlongLine ++ more)
    rw [length_overlongLine] at hlength
    omega
  · intro hpart
    have hfull : room ≤ (overlongLineMessage ++ overlongLine).length := by
      rw [List.length_append, length_overlongLine]
      omega
    have hcaret : 0x5E ∈ Text.ascii "^" := by decide
    rcases hlog.mem_of_mem_shown hfull hmore (hpart.subset hcaret) with h | h
    · rcases List.mem_append.mp h with h | h
      · exact absurd h (by decide)
      · exact caret_not_mem_overlongLine h
    · exact absurd h (by decide)

theorem isWhiteSpace_replicate (n : Nat) : Text.IsWhiteSpace (List.replicate n Text.space) := by
  refine ⟨List.replicate n 0x20, fun c hc => ?_, ?_⟩
  · rw [List.eq_of_mem_replicate hc]
    decide
  · have hspace : Text.ofScalar 0x20 = [Text.space] := by decide
    rw [List.flatMap_replicate, hspace, List.flatten_replicate_singleton]

/-- An unknown instruction behind blanks. -/
def indentedLine (indent : Nat) : Text := List.replicate indent Text.space ++ Text.ascii "FOO"

/-- The blanks do not change what the line says. -/
theorem readsAlike_indentedLine (indent : Nat) :
    Statement.ReadsAlike (Text.ascii "FOO") (indentedLine indent) :=
  Statement.readsAlike_indent (isWhiteSpace_replicate indent) _

/-- The keyword of a line stands behind its blanks. -/
theorem lt_column_of_pointed {indent column : Nat} {s : Statement}
    (hs : Statement.parse (indentedLine indent) = some s)
    (h : s.pointed <+: (indentedLine indent).drop (column - 1)) (hcolumn : 1 ≤ column) :
    indent < column := by
  have hread := readsAlike_indentedLine indent
  have hpointed : s.pointed = Text.ascii "FOO" := by
    have hplain : (Statement.parse (Text.ascii "FOO")).map Statement.unplaced =
        some ⟨none, Text.ascii "FOO", Text.ascii "FOO", [], 0⟩ := by decide +kernel
    unfold Statement.ReadsAlike at hread
    rw [hs, hplain, Option.map_some, Option.some.injEq] at hread
    change s.unplaced.pointed = _
    rw [hread]
    rfl
  -- Otherwise the keyword would begin with a blank.
  by_contra hle
  obtain ⟨blanks, hblanks⟩ : ∃ blanks, indent - (column - 1) = blanks + 1 :=
    ⟨indent - column, by omega⟩
  rw [hpointed, indentedLine, List.drop_append_of_le_length (by simp; omega), List.drop_replicate,
    hblanks, List.replicate_succ, List.cons_append] at h
  obtain ⟨rest, hrest⟩ := h
  exact absurd (List.cons.inj hrest).1 (by decide)

/-- The complaint about the instruction points behind the blanks. -/
theorem exists_indentedLine_complaint (indent : Nat) :
    ∃ d ∈ (Emission.run .ordinary .empty [indentedLine indent]).diagnostics.toList,
      ∃ column, d.PointsInto [indentedLine indent] 0 (indentedLine indent) column ∧
        indent < column := by
  have hcauses : (Emission.start.complaints .ordinary .empty (indentedLine indent)).map
      Diagnostic.cause = [.unknownMnemonic (Text.ascii "FOO")] :=
    (Emission.complaints_cause rfl rfl (readsAlike_indentedLine indent)).trans (by decide +kernel)
  obtain ⟨d, hd, hcause⟩ : ∃ d ∈ Emission.start.complaints .ordinary .empty (indentedLine indent),
      d.cause = .unknownMnemonic (Text.ascii "FOO") := by
    rw [← List.mem_map, hcauses]
    exact List.mem_singleton_self _
  rw [← diagnostics_run_singleton] at hd
  obtain ⟨i, raw, column, hpoints⟩ := Emission.exists_pointsInto hd
  obtain ⟨rfl, rfl⟩ : i = 0 ∧ raw = indentedLine indent := by
    have hline := hpoints.line
    cases i with
    | zero => exact ⟨rfl, (Option.some.inj hline).symm⟩
    | succ i => cases hline
  obtain ⟨s, hs, -, hpointed⟩ := hpoints.statement (by simp [hcause])
  exact ⟨d, hd, column, hpoints, lt_column_of_pointed hs hpointed hpoints.first⟩

/-- Two lines whose report is not printed with the line and the marker under its column. The first
is longer than a log has room for that shows no more than 15000 bytes of an error, as the standard
one does not. The second has its instruction beyond the widest field, and no log shows the marker
under it. -/
theorem overlongLine_not_printed :
    (overlongLineComplaint ∈
        (Emission.run .ordinary .empty [overlongLine]).diagnostics.toList ∧
      Log.standard.ShowsErrors 14956 ∧
      ∀ (log : Log) (room : Nat), log.ShowsErrors room → room ≤ 15000 →
        ¬ overlongLine <:+:
          log.shown (.error (report (.file (Text.ascii "p.asm")) [overlongLine]
            overlongLineComplaint)) ∧
        ¬ Text.ascii "^" <:+:
          log.shown (.error (report (.file (Text.ascii "p.asm")) [overlongLine]
            overlongLineComplaint))) ∧
    ∃ d ∈ (Emission.run .ordinary .empty [indentedLine 1000000]).diagnostics.toList,
      ∀ origin, report origin [indentedLine 1000000] d =
        misplacedReport origin d (indentedLine 1000000) := by
  refine ⟨⟨overlongLineComplaint_mem, Log.standard_showsErrors, fun log room hlog hroom =>
    not_shown_overlongLine hlog hroom⟩, ?_⟩
  obtain ⟨d, hd, column, hpoints, hcolumn⟩ := exists_indentedLine_complaint 1000000
  exact ⟨d, hd, fun origin => (report_eq hpoints origin).trans (if_neg (Nat.not_le_of_lt hcolumn))⟩

end CommandLine

end WordMachine
