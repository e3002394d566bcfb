import WordMachine.Proofs.Assembly.Reading
import WordMachine.Proofs.Source.Statement

/-!
# How far the readings drift apart under the legacy rule

Under the legacy rule the first reading counts no address for a line with a label, while the second
assembles a stop that stands there. Each such line puts the second reading one address further
ahead. A valid location directive without a label sets both counters to the same address; no other
line makes a difference.
-/

namespace WordMachine

namespace Statement

/-- Whether a statement is a stop after a label, with nothing else on the line. -/
def isLabelledStop (statement : Statement) : Bool :=
  statement.label.isSome && statement.body == Operation.hlt.keyword

/-- Whether a statement is a valid location directive without a label. -/
def isPlainMove (statement : Statement) : Bool :=
  statement.label.isNone && statement.location?.isSome

/-- Where something stands after a label, it begins with a keyword. -/
theorem keyword_ne_nil_of_body {raw : Text} {statement : Statement}
    (h : parse raw = some statement) (hlabel : statement.label.isSome)
    (hbody : statement.body ≠ []) : statement.keyword ≠ [] := by
  simp only [parse] at h
  split at h
  · cases h
  · cases h
    unfold ofGlyphs at hlabel hbody ⊢
    split at hlabel
    · simp at hlabel
    · next name hname =>
        simp only [hname] at hbody ⊢
        split at hbody
        · exact absurd rfl hbody
        · next hrest =>
            simp only [hrest]
            exact token_ne_nil (by simpa [afterToken] using hrest)

end Statement

/-- The lines after the last valid location directive without a label, or all lines if there is
none. -/
def sincePlainMove (lines : List Text) : List Text :=
  (lines.reverse.takeWhile fun raw => !(Statement.parse raw).any Statement.isPlainMove).reverse

/-- The number of stops after a label since the last valid location directive without a label. -/
def drift (lines : List Text) : Nat :=
  (sincePlainMove lines).countP fun raw => (Statement.parse raw).any Statement.isLabelledStop

theorem drift_of_plainMove (lines : List Text) {raw : Text}
    (h : (Statement.parse raw).any Statement.isPlainMove) : drift (lines ++ [raw]) = 0 := by
  simp [drift, sincePlainMove, h]

theorem drift_append_singleton (lines : List Text) {raw : Text}
    (h : (Statement.parse raw).any Statement.isPlainMove = false) :
    drift (lines ++ [raw]) =
      drift lines + if (Statement.parse raw).any Statement.isLabelledStop then 1 else 0 := by
  simp [drift, sincePlainMove, h, List.countP_append, List.countP_singleton]

/-- After a label the legacy rule assembles a stop and nothing else. -/
theorem Demand.next_ofStatement_labelled (labels : Labels) (counter : Int) {raw : Text}
    {statement : Statement} (h : Statement.parse raw = some statement)
    (hlabel : statement.label.isSome) :
    (ofStatement .legacy labels statement).next counter =
      counter + if statement.isLabelledStop then 1 else 0 := by
  by_cases hbody : statement.body = Operation.hlt.keyword
  · have hkeyword : statement.keyword ≠ [] := by
      apply Statement.keyword_ne_nil_of_body h hlabel
      rw [hbody]
      decide
    simp [ofStatement, Statement.isLabelledStop, hlabel, hkeyword, hbody, next]
  · by_cases hkeyword : statement.keyword = []
    · simp [ofStatement, Statement.isLabelledStop, hlabel, hkeyword, hbody, next]
    · simp [ofStatement, Statement.isLabelledStop, hlabel, hkeyword, hbody, next]

section Step

variable (labels : Labels) {lines : List Text} {raw : Text} {statement : Statement}
  {e : Emission} {layout : Layout}

/-- A line with a label puts the second reading ahead by one if it is a stop, and else keeps the
distance. -/
theorem step_drift_labelled (hparse : Statement.parse raw = some statement)
    (hlabel : statement.label.isSome) (h : e.counter = layout.counter + drift lines) :
    (e.step .legacy labels raw).counter =
      (layout.step .legacy raw).counter + drift (lines ++ [raw]) := by
  have hmove : (Statement.parse raw).any Statement.isPlainMove = false := by
    simp [hparse, Statement.isPlainMove, Option.isSome_iff_ne_none.mp hlabel]
  have hpassed : Layout.isPassedOver .legacy statement := by
    simp [Layout.isPassedOver, hlabel]
  rw [Emission.step_counter e hparse, Demand.next_ofStatement_labelled labels _ hparse hlabel,
    Layout.step_counter _ _ hparse, if_pos hpassed, drift_append_singleton _ hmove, hparse, h]
  cases hstop : statement.isLabelledStop with
  | false => simp [hstop]
  | true =>
      simp only [Option.any_some, hstop, if_true]
      omega

/-- A line without a label moves both counters to its target, or both by the same distance. -/
theorem step_drift_unlabelled (hparse : Statement.parse raw = some statement)
    (hlabel : statement.label = none) (h : e.counter = layout.counter + drift lines) :
    (e.step .legacy labels raw).counter =
      (layout.step .legacy raw).counter + drift (lines ++ [raw]) := by
  have hdemand : Demand.ofStatement .legacy labels statement =
      Demand.ofKeyword labels statement.keyword statement.operands := by
    simp [Demand.ofStatement, hlabel]
  have hpassed : ¬ Layout.isPassedOver .legacy statement := by
    simp [Layout.isPassedOver, hlabel]
  rw [Emission.step_counter e hparse, hdemand, Demand.next_ofKeyword,
    Layout.step_counter _ _ hparse, if_neg hpassed]
  cases hlocation : statement.location? with
  | some target =>
      -- Both counters come to the target, whatever the distance was before.
      have hmove : (Statement.parse raw).any Statement.isPlainMove := by
        simp [hparse, Statement.isPlainMove, hlocation, hlabel]
      rw [drift_of_plainMove _ hmove, Layout.advance_of_location hlocation,
        Layout.advance_of_location hlocation]
      simp
  | none =>
      have hmove : (Statement.parse raw).any Statement.isPlainMove = false := by
        simp [hparse, Statement.isPlainMove, hlocation]
      have hstop : (Statement.parse raw).any Statement.isLabelledStop = false := by
        simp [hparse, Statement.isLabelledStop, hlabel]
      rw [drift_append_singleton _ hmove, hstop, Layout.advance_of_no_location hlocation,
        Layout.advance_of_no_location hlocation, h]
      simp only [Bool.false_eq_true, if_false]
      omega

end Step

theorem Emission.run_counter_legacy (labels : Labels) (lines : List Text) :
    (run .legacy labels lines).counter = (Layout.run .legacy lines).counter + drift lines := by
  induction lines using List.reverseRecOn with
  | nil => rfl
  | append_singleton lines raw ih =>
      rw [run_append_singleton, Layout.run_append_singleton]
      cases hparse : Statement.parse raw with
      | none =>
          rw [step_blank _ hparse, ih, Layout.step, hparse,
            drift_append_singleton _ (by simp [hparse])]
          simp [hparse]
      | some statement =>
          cases hlabel : statement.label with
          | none => exact step_drift_unlabelled labels hparse hlabel ih
          | some name => exact step_drift_labelled labels hparse (by simp [hlabel]) ih

/-- Before each line the second reading is ahead of the first by the labelled stops since the last
plain move, against any label table. -/
theorem counter_drift_legacy (lines : List Text) (labels : Labels) (i : Nat) :
    (Emission.before .legacy labels lines i).counter - (Layout.before .legacy lines i).counter =
      drift (lines.take i) := by
  have h := Emission.run_counter_legacy labels (lines.take i)
  rw [Emission.before, Layout.before]
  omega

end WordMachine
