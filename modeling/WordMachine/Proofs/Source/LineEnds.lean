import WordMachine.Assembly.Program
import WordMachine.Proofs.Text.Lines

/-!
# Line ends

A line of a source may end in a line feed, with or without a carriage return before it, and the last
line may lack its end. Reading drops the ends, so that the same lines are assembled in each case.
-/

namespace WordMachine

namespace Text

/-- What ends a line. -/
inductive LineEnd where
  | feed
  | returnFeed
  deriving DecidableEq, Repr

namespace LineEnd

/-- The bytes after a line. -/
def bytes : LineEnd → Text
  | feed => [lineFeed]
  | returnFeed => [carriageReturn, lineFeed]

/-- The bytes between a line and its line feed. -/
def lead : LineEnd → Text
  | feed => []
  | returnFeed => [carriageReturn]

theorem bytes_eq (e : LineEnd) : e.bytes = e.lead ++ [lineFeed] := by cases e <;> rfl

theorem lineFeed_not_mem_lead (e : LineEnd) : lineFeed ∉ e.lead := by cases e <;> decide

theorem length_lead_le (e : LineEnd) : e.lead.length ≤ 1 := by cases e <;> decide

end LineEnd

/-- Lines with the same end after each of them. -/
def terminated (e : LineEnd) (lines : List Text) : Text := lines.flatMap fun l => l ++ e.bytes

theorem terminated_cons (e : LineEnd) (l : Text) (lines : List Text) :
    terminated e (l :: lines) = l ++ e.lead ++ lineFeed :: terminated e lines := by
  simp [terminated, LineEnd.bytes_eq]

/-- Each line is cut off at its line feed, and what stands before the line feed stays. -/
theorem rawLines_terminated_append (e : LineEnd) {lines : List Text}
    (h : ∀ l ∈ lines, lineFeed ∉ l) (rest : Text) :
    rawLines (terminated e lines ++ rest) = lines.map (· ++ e.lead) ++ rawLines rest := by
  induction lines with
  | nil => rfl
  | cons l lines ih =>
      have hfeed : lineFeed ∉ l ++ e.lead := by
        rw [List.mem_append, not_or]
        exact ⟨h l List.mem_cons_self, e.lineFeed_not_mem_lead⟩
      rw [terminated_cons, List.append_assoc, List.cons_append, rawLines_cons hfeed,
        ih fun other hother => h other (List.mem_cons_of_mem l hother), List.map_cons,
        List.cons_append]

theorem dropLastByte_of_ne {byte : UInt8} {t : Text} (h : t.getLast? ≠ some byte) :
    dropLastByte byte t = t := by
  rw [dropLastByte, if_neg h]

theorem dropLastByte_concat (byte : UInt8) (t : Text) : dropLastByte byte (t ++ [byte]) = t := by
  rw [dropLastByte, if_pos List.getLast?_concat, List.dropLast_concat]

end Text

namespace Program

/-- A line as a source may hold it: no line feed in it, no carriage return at its end, and short
enough for both of them to be read after it. -/
structure IsSourceLine (l : Text) : Prop where
  noFeed : Text.lineFeed ∉ l
  noReturn : l.getLast? ≠ some Text.carriageReturn
  short : l.length ≤ 1048574

/-- The text of lines with the same end. The last line may lack its end, unless it is empty. -/
inductive WrittenWith (e : Text.LineEnd) (lines : List Text) : Text → Prop
  | ended : WrittenWith e lines (Text.terminated e lines)
  | unended {body : List Text} {last : Text} : lines = body ++ [last] → last ≠ [] →
      WrittenWith e lines (Text.terminated e body ++ last)

/-- Dropping carriage returns twice leaves a line, whatever its end. -/
theorem IsSourceLine.dropReturns {l : Text} (h : IsSourceLine l) (e : Text.LineEnd) :
    Text.dropLastByte Text.carriageReturn
      (Text.dropLastByte Text.carriageReturn (l ++ e.lead)) = l := by
  have hkept := Text.dropLastByte_of_ne h.noReturn
  cases e with
  | feed => rw [Text.LineEnd.lead, List.append_nil, hkept, hkept]
  | returnFeed => rw [Text.LineEnd.lead, Text.dropLastByte_concat, hkept]

theorem readSource_of_short {source : Text}
    (h : ∀ l ∈ Text.rawLines source, l.length < lineLimit) :
    readSource source = .ok ((Text.rawLines source).map fun l =>
      Text.dropLastByte Text.carriageReturn (Text.dropLastByte Text.carriageReturn l)) := by
  simp only [readSource, Text.readLines_of_short h, List.map_map]
  rfl

/-- Lines are read as they are, whether or not the end of a line has left a carriage return. -/
theorem readSource_of_rawLines {source : Text} {e : Text.LineEnd} {body rest : List Text}
    (hraw : Text.rawLines source = body.map (· ++ e.lead) ++ rest)
    (h : ∀ l ∈ body ++ rest, IsSourceLine l) : readSource source = .ok (body ++ rest) := by
  have hbody : ∀ l ∈ body, IsSourceLine l := fun l hl => h l (List.mem_append_left rest hl)
  have hrest : ∀ l ∈ rest, IsSourceLine l := fun l hl => h l (List.mem_append_right body hl)
  have hshort : ∀ l ∈ Text.rawLines source, l.length < lineLimit := by
    intro l hl
    rw [hraw, List.mem_append] at hl
    rw [lineLimit]
    rcases hl with hl | hl
    · obtain ⟨kept, hkept, rfl⟩ := List.mem_map.mp hl
      have hlength := (hbody kept hkept).short
      have hlead := e.length_lead_le
      rw [List.length_append]
      omega
    · have hlength := (hrest l hl).short
      omega
  rw [readSource_of_short hshort, hraw, List.map_append, List.map_map]
  congr 2
  · calc body.map _ = body.map id := List.map_congr_left fun l hl => (hbody l hl).dropReturns e
      _ = body := List.map_id body
  · calc rest.map _ = rest.map id := List.map_congr_left fun l hl => by
          simpa [Text.LineEnd.lead] using (hrest l hl).dropReturns .feed
      _ = rest := List.map_id rest

theorem readSource_of_writtenWith {lines : List Text} (h : ∀ l ∈ lines, IsSourceLine l)
    {e : Text.LineEnd} {source : Text} (hsource : WrittenWith e lines source) :
    readSource source = .ok lines := by
  cases hsource with
  | ended =>
      have hraw := Text.rawLines_terminated_append e (fun l hl => (h l hl).noFeed) []
      have hnone : Text.rawLines [] = [] := rfl
      rw [List.append_nil, hnone] at hraw
      have hread := readSource_of_rawLines hraw (by rwa [List.append_nil])
      rwa [List.append_nil] at hread
  | @unended body last hlines hlast =>
      subst hlines
      have hfeed : ∀ l ∈ body, Text.lineFeed ∉ l := fun l hl =>
        (h l (List.mem_append_left [last] hl)).noFeed
      have hlastFeed : Text.lineFeed ∉ last :=
        (h last (List.mem_append_right body (List.mem_singleton_self last))).noFeed
      have hraw := Text.rawLines_terminated_append e hfeed last
      rw [Text.rawLines_of_not_mem hlastFeed hlast] at hraw
      exact readSource_of_rawLines hraw h

/-- Lines are read, and assembled, alike from every text that they are written as: with or without
carriage returns, and with or without an end after the last line. -/
theorem line_ends_make_no_difference {lines : List Text} (h : ∀ l ∈ lines, IsSourceLine l)
    (e : Text.LineEnd) {source : Text} (hsource : WrittenWith e lines source) :
    readSource source = .ok lines ∧
      ∀ rule : LabelRule, assembleSource rule source = .ok (assemble rule lines) := by
  have hread := readSource_of_writtenWith h hsource
  refine ⟨hread, fun rule => ?_⟩
  rw [assembleSource, hread]
  rfl

/-- A longest line, an empty one, and a stop after a carriage return that ends no line. -/
def longestLine : List Text :=
  [List.replicate 1048574 0x78, [], Text.ascii "stop:\rHLT"]

theorem isSourceLine_replicate {n : Nat} (h : n ≤ 1048574) :
    IsSourceLine (List.replicate n 0x78) where
  noFeed hmem := absurd (List.eq_of_mem_replicate hmem) (by decide)
  noReturn hlast := absurd (List.eq_of_mem_replicate (List.mem_of_getLast? hlast)) (by decide)
  short := by rwa [List.length_replicate]

theorem longestLine_isSourceLine : ∀ l ∈ longestLine, IsSourceLine l := by
  intro l hl
  rw [longestLine, List.mem_cons, List.mem_cons, List.mem_singleton] at hl
  rcases hl with rfl | rfl | rfl
  · exact isSourceLine_replicate (Nat.le_refl _)
  · exact ⟨by decide, by decide, by decide⟩
  · exact ⟨by decide, by decide, by decide⟩

/-- The three lines are read from line feeds alone as from carriage returns and line feeds without
an end after the last line. -/
theorem longestLine_line_ends :
    readSource (Text.terminated .feed longestLine) = .ok longestLine ∧
    readSource (Text.terminated .returnFeed longestLine.dropLast ++ Text.ascii "stop:\rHLT") =
      .ok longestLine ∧
    assembleSource .ordinary (Text.terminated .feed longestLine) =
      assembleSource .ordinary
        (Text.terminated .returnFeed longestLine.dropLast ++ Text.ascii "stop:\rHLT") := by
  have hunended : WrittenWith .returnFeed longestLine
      (Text.terminated .returnFeed longestLine.dropLast ++ Text.ascii "stop:\rHLT") :=
    .unended rfl (by decide)
  obtain ⟨hread, hassembled⟩ := line_ends_make_no_difference longestLine_isSourceLine .feed .ended
  obtain ⟨hread', hassembled'⟩ :=
    line_ends_make_no_difference longestLine_isSourceLine .returnFeed hunended
  exact ⟨hread, hread', (hassembled .ordinary).trans (hassembled' .ordinary).symm⟩

end Program

end WordMachine
