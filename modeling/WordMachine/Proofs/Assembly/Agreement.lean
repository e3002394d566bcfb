import WordMachine.Proofs.Assembly.LabelTable

/-!
# The two readings count alike

Under the ordinary rule the second reading has the same counter before each line as the first,
against any label table. A label therefore names the address at which its line is assembled, or,
on a line of its own, the address of the next statement.
-/

namespace WordMachine

/-- The address that row `i` of a listing shows; only the row of a word or of a rejected statement
shows one. -/
def Listing.addressAt (listing : Listing) (i : Nat) : Option Int :=
  listing[i]?.bind fun row => row.content.address?

/-- Row `k` is the first after row `i` that shows an address. -/
structure NextAddressed (listing : Listing) (i k : Nat) (address : Int) : Prop where
  isLater : i < k
  isShown : listing.addressAt k = some address
  noneBetween : ∀ j, i < j → j < k → listing.addressAt j = none

/-- No line between lines `i` and `k` holds a valid location directive. -/
def NoMoveBetween (lines : List Text) (i k : Nat) : Prop :=
  ∀ j, i < j → j < k → (statementAt lines j).bind Statement.location? = none

theorem Demand.ofStatement_ordinary (labels : Labels) {statement : Statement}
    (h : statement.keyword ≠ []) :
    ofStatement .ordinary labels statement =
      ofKeyword labels statement.keyword statement.operands := by
  by_cases hl : statement.label.isSome
  · simp [ofStatement, hl, h]
  · simp [ofStatement, hl]

/-- Under the ordinary rule a statement moves both counters alike. -/
theorem Demand.next_ofStatement_ordinary (labels : Labels) (counter : Int)
    (statement : Statement) :
    (ofStatement .ordinary labels statement).next counter =
      if Layout.isPassedOver .ordinary statement then counter
      else Layout.advance counter statement := by
  by_cases hl : statement.label.isSome
  · by_cases hk : statement.keyword = []
    · simp [ofStatement, Layout.isPassedOver, hl, hk, next]
    · rw [ofStatement_ordinary labels hk, next_ofKeyword]
      simp [Layout.isPassedOver, hk]
  · simp [ofStatement, Layout.isPassedOver, hl, next_ofKeyword]

theorem Emission.run_counter_ordinary (labels : Labels) (lines : List Text) :
    (run .ordinary labels lines).counter = (Layout.run .ordinary lines).counter := by
  induction lines using List.reverseRecOn with
  | nil => rfl
  | append_singleton lines raw ih =>
      rw [run_append_singleton, Layout.run_append_singleton]
      cases h : Statement.parse raw with
      | none => rw [step_blank _ h, ih, Layout.step, h]
      | some statement =>
          rw [step_counter _ h, Layout.step_counter _ _ h, ih, Demand.next_ofStatement_ordinary]

/-- A statement that is no location directive has a row that shows the counter. -/
theorem Demand.content_ofKeyword_address (labels : Labels) (counter : Int) {keyword : Text}
    (operands : Text) (h : keyword ≠ Keyword.loc) :
    ((ofKeyword labels keyword operands).content counter).address? = some counter := by
  have hword (result : Except Cause Word) :
      ((ofWord result).content counter).address? = some counter := by
    cases result with
    | error cause => rfl
    | ok word =>
        by_cases hc : maxAddress < counter
        · simp [ofWord, content, hc, Content.address?]
        · simp [ofWord, content, hc, Content.address?]
  rw [ofKeyword, if_neg h]
  by_cases hd : keyword = Keyword.data
  · rw [if_pos hd, hword]
  · rw [if_neg hd, hword]

namespace Emission

variable {labels : Labels} {lines : List Text} {i : Nat}

theorem addressAt_run (rule : LabelRule) (labels : Labels) {statement : Statement}
    (h : statementAt lines i = some statement) :
    (run rule labels lines).listing.addressAt i =
      ((Demand.ofStatement rule labels statement).content
        (before rule labels lines i).counter).address? := by
  obtain ⟨raw, hraw, hparse⟩ := Option.bind_eq_some_iff.mp h
  simp only [Listing.addressAt, listing_run_getElem?, hraw, Option.map_some, Option.bind_some,
    row, hparse]

/-- A row that shows an address shows the counter before its line. -/
theorem addressAt_run_eq (rule : LabelRule) {address : Int}
    (h : (run rule labels lines).listing.addressAt i = some address) :
    address = (before rule labels lines i).counter := by
  obtain ⟨row, hrow, haddress⟩ := Option.bind_eq_some_iff.mp h
  rw [listing_run_getElem?] at hrow
  obtain ⟨raw, hraw, rfl⟩ := Option.map_eq_some_iff.mp hrow
  cases hparse : Statement.parse raw with
  | none => simp [Emission.row, hparse, Content.address?] at haddress
  | some statement =>
      simp only [Emission.row, hparse] at haddress
      exact (Demand.next_of_content_address haddress).1

/-- A line whose row shows no address keeps the counter, unless it is a valid location
directive. -/
theorem before_succ_counter_of_no_address (rule : LabelRule)
    (hrow : (run rule labels lines).listing.addressAt i = none)
    (hmove : (statementAt lines i).bind Statement.location? = none) :
    (before rule labels lines (i + 1)).counter = (before rule labels lines i).counter := by
  cases hraw : lines[i]? with
  | none =>
      have htake : lines.take (i + 1) = lines.take i := by simp [List.take_add_one, hraw]
      rw [before, before, htake]
  | some raw =>
      rw [before_succ rule labels hraw]
      cases hparse : Statement.parse raw with
      | none => exact step_blank _ hparse
      | some statement =>
          have hstatement : statementAt lines i = some statement := by
            simp [statementAt, hraw, hparse]
          rw [hstatement, Option.bind_some] at hmove
          rw [addressAt_run rule labels hstatement] at hrow
          rw [step_counter _ hparse]
          apply Demand.next_of_content_no_address hrow
          intro target hdemand
          rw [Demand.location?_of_ofStatement hdemand] at hmove
          cases hmove

/-- Over lines without addresses and without moves the counter stays where it is. -/
theorem before_counter_of_no_address (rule : LabelRule) {k : Nat} (hik : i ≤ k)
    (hrows : ∀ j, i ≤ j → j < k → (run rule labels lines).listing.addressAt j = none)
    (hmoves : ∀ j, i ≤ j → j < k → (statementAt lines j).bind Statement.location? = none) :
    (before rule labels lines k).counter = (before rule labels lines i).counter := by
  induction hik with
  | refl => rfl
  | @step k hik ih =>
      rw [before_succ_counter_of_no_address rule (hrows k hik (by omega)) (hmoves k hik (by omega))]
      apply ih
      · intro j hj hjk
        exact hrows j hj (by omega)
      · intro j hj hjk
        exact hmoves j hj (by omega)

end Emission

/-- A label that stands alone demands nothing. -/
theorem FirstDeclaration.ofStatement_alone {lines : List Text} {i : Nat} {name : Text}
    (first : FirstDeclaration lines i name) {statement : Statement}
    (h : statementAt lines i = some statement) (hkeyword : statement.keyword = [])
    {rule : LabelRule} {labels : Labels} :
    Demand.ofStatement rule labels statement = .nothing := by
  obtain ⟨raw, hraw, hparse⟩ := Option.bind_eq_some_iff.mp h
  have hlabel : statement.label = some name := by
    simpa [hraw, declared?, hparse] using first.declares
  simp [Demand.ofStatement, hlabel, hkeyword]

/-- Before each line of a program both readings have the same counter, against any label table. So a
label names the address that the row of its own statement shows; and a label that stands alone
names the address of the next row that shows one, as long as no location directive stands between
them. -/
theorem label_names_assembled_address (lines : List Text) :
    (∀ labels i, (Emission.before .ordinary labels lines i).counter =
      (Layout.before .ordinary lines i).counter) ∧
    ∀ i name statement, FirstDeclaration lines i name → statementAt lines i = some statement →
      (statement.keyword ≠ [] → statement.keyword ≠ Keyword.loc →
        ∃ address, (Program.assemble .ordinary lines).listing.addressAt i = some address ∧
          (Program.assemble .ordinary lines).labels.lookup name = some address) ∧
      (statement.keyword = [] → ∀ k address,
        NextAddressed (Program.assemble .ordinary lines).listing i k address →
        NoMoveBetween lines i k →
        (Program.assemble .ordinary lines).labels.lookup name = some address) := by
  have agree : ∀ labels i, (Emission.before .ordinary labels lines i).counter =
      (Layout.before .ordinary lines i).counter :=
    fun labels i => Emission.run_counter_ordinary labels (lines.take i)
  refine ⟨agree, ?_⟩
  intro i name statement first hstatement
  have hlookup : (Program.assemble .ordinary lines).labels.lookup name =
      some (Layout.before .ordinary lines i).counter := lookup_layoutLabels .ordinary first
  constructor
  · intro hkeyword hloc
    refine ⟨_, ?_, hlookup⟩
    have hrow := Emission.addressAt_run .ordinary (layoutLabels .ordinary lines) hstatement
    rw [Demand.ofStatement_ordinary _ hkeyword, Demand.content_ofKeyword_address _ _ _ hloc,
      agree] at hrow
    exact hrow
  · intro hkeyword k address next hmoves
    have hrow : (Program.assemble .ordinary lines).listing.addressAt i = none := by
      have hrow := Emission.addressAt_run .ordinary (layoutLabels .ordinary lines) hstatement
      rwa [first.ofStatement_alone hstatement hkeyword] at hrow
    have hmove : (statementAt lines i).bind Statement.location? = none := by
      rw [hstatement, Option.bind_some, Statement.location?, hkeyword]
      rfl
    -- From the line of the label up to row `k` nothing is assembled and nothing moves the counter.
    have hcounter : (Emission.before .ordinary (layoutLabels .ordinary lines) lines k).counter =
        (Emission.before .ordinary (layoutLabels .ordinary lines) lines i).counter := by
      apply Emission.before_counter_of_no_address .ordinary (Nat.le_of_lt next.isLater)
      · intro j hij hjk
        rcases Nat.eq_or_lt_of_le hij with rfl | hij
        · exact hrow
        · exact next.noneBetween j hij hjk
      · intro j hij hjk
        rcases Nat.eq_or_lt_of_le hij with rfl | hij
        · exact hmove
        · exact hmoves j hij hjk
    rw [hlookup, Emission.addressAt_run_eq .ordinary next.isShown, hcounter, agree]

/-- A program in which one label stands before a statement and another stands alone. -/
def twoLabels : List Text :=
  ["LOC 8", "here: LDR 0,0,9", "there:", "; nothing", "HLT"].map Text.ascii

/-- The first label names the address of its own row, and the second that of the row after the
comment. -/
theorem twoLabels_lookup :
    (∃ address, (Program.assemble .ordinary twoLabels).listing.addressAt 1 = some address ∧
      (Program.assemble .ordinary twoLabels).labels.lookup (Text.ascii "here") = some address) ∧
    (Program.assemble .ordinary twoLabels).labels.lookup (Text.ascii "there") = some 9 := by
  obtain ⟨-, hlabels⟩ := label_names_assembled_address twoLabels
  constructor
  · have hfirst : FirstDeclaration twoLabels 1 (Text.ascii "here") :=
      ⟨by decide +kernel, by decide +kernel⟩
    exact (hlabels 1 _ _ hfirst rfl).1 (by decide +kernel) (by decide +kernel)
  · have hfirst : FirstDeclaration twoLabels 2 (Text.ascii "there") :=
      ⟨by decide +kernel, by decide +kernel⟩
    apply (hlabels 2 _ _ hfirst rfl).2 (by decide +kernel) 4
    · refine ⟨by decide, by decide +kernel, ?_⟩
      intro j hj hj'
      obtain rfl : j = 3 := by omega
      decide +kernel
    · intro j hj hj'
      obtain rfl : j = 3 := by omega
      decide +kernel

end WordMachine
