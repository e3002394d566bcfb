import Mathlib.Data.Nat.Find
import WordMachine.Proofs.Assembly.Bounds
import WordMachine.Proofs.Assembly.LabelTable

/-!
# The order of the label table

The table lists the labels in the order of the lines that first declare them. Each has the counter
of its line as address, which may lie beyond the memory but is never negative.
-/

namespace WordMachine

theorem exists_firstDeclaration {lines : List Text} {name : Text}
    (h : ∃ i : Nat, lines[i]?.bind declared? = some name) : ∃ i, FirstDeclaration lines i name := by
  classical
  exact ⟨Nat.find h, Nat.find_spec h, fun _ => Nat.find_min h⟩

namespace Layout

variable {rule : LabelRule}

/-! ## Addresses -/

theorem advance_nonneg {counter : Int} (h : 0 ≤ counter) (statement : Statement) :
    0 ≤ advance counter statement := by
  unfold advance
  split
  · split
    · next hlocation => exact (Operand.location_in_memory hlocation).1
    · exact h
  · omega

theorem step_counter_nonneg {layout : Layout} (h : 0 ≤ layout.counter) (raw : Text) :
    0 ≤ (step rule layout raw).counter := by
  cases hparse : Statement.parse raw with
  | none => simpa only [step, hparse] using h
  | some statement =>
      rw [step_counter rule layout hparse]
      split
      · exact h
      · exact advance_nonneg h statement

theorem run_counter_nonneg (rule : LabelRule) (lines : List Text) :
    0 ≤ (run rule lines).counter := by
  induction lines using List.reverseRecOn with
  | nil => exact Int.le_refl 0
  | append_singleton lines raw ih =>
      rw [run_append_singleton]
      exact step_counter_nonneg ih raw

/-! ## Entries -/

/-- The entry that a line adds to the table. -/
def fresh? (layout : Layout) (raw : Text) : Option (Text × Int) :=
  (declared? raw).bind fun name =>
    if (layout.labels.lookup name).isSome then none else some (name, layout.counter)

theorem entries_step (layout : Layout) (raw : Text) :
    (step rule layout raw).labels.entries =
      layout.labels.entries ++ (layout.fresh? raw).toList := by
  cases hparse : Statement.parse raw with
  | none => simp [step, fresh?, declared?, hparse]
  | some statement =>
      cases hlabel : statement.label with
      | none => simp [step, place, declare, fresh?, declared?, hparse, hlabel]
      | some name =>
          by_cases hknown : (layout.labels.lookup name).isSome <;>
            simp [step, place, declare, Labels.declare, fresh?, declared?, hparse, hlabel, hknown]

/-- The entry that line `i` adds to the table. -/
def added? (rule : LabelRule) (lines : List Text) (i : Nat) : Option (Text × Int) :=
  lines[i]?.bind (before rule lines i).fresh?

theorem entries_before (lines : List Text) (n : Nat) :
    (before rule lines n).labels.entries = (List.range n).filterMap (added? rule lines) := by
  induction n with
  | zero => rfl
  | succ n ih =>
      have hlast : [n].filterMap (added? rule lines) = (added? rule lines n).toList := by
        cases h : added? rule lines n <;> simp [h]
      rw [List.range_succ, List.filterMap_append, ← ih, hlast]
      cases hline : lines[n]? with
      | some raw => rw [before_succ rule hline, entries_step, added?, hline, Option.bind_some]
      | none =>
          have hend : lines.length ≤ n := List.getElem?_eq_none_iff.mp hline
          rw [added?, hline, Option.bind_none, Option.toList_none, List.append_nil, before, before,
            List.take_of_length_le hend, List.take_of_length_le (by omega)]

/-- A line adds an entry exactly if it is the first that declares its label. -/
theorem added?_eq_some_iff {lines : List Text} {i : Nat} {name : Text} {address : Int} :
    added? rule lines i = some (name, address) ↔
      FirstDeclaration lines i name ∧ (before rule lines i).counter = address := by
  constructor
  · intro h
    obtain ⟨raw, hraw, hfresh⟩ := Option.bind_eq_some_iff.mp h
    obtain ⟨declared, hdeclared, hnew⟩ := Option.bind_eq_some_iff.mp hfresh
    split at hnew
    · cases hnew
    · next hunknown =>
        cases hnew
        refine ⟨⟨?_, ?_⟩, rfl⟩
        · rw [hraw, Option.bind_some, hdeclared]
        · -- An earlier declaration would have left the label in the table.
          intro j hj hearlier
          rw [← List.getElem?_take_of_lt hj] at hearlier
          obtain ⟨k, hfirst⟩ := exists_firstDeclaration ⟨j, hearlier⟩
          have hknown : (before rule lines i).labels.lookup name = some _ :=
            lookup_layoutLabels rule hfirst
          exact hunknown (by rw [hknown, Option.isSome_some])
  · rintro ⟨hfirst, rfl⟩
    obtain ⟨raw, hraw, hdeclares⟩ := Option.bind_eq_some_iff.mp hfirst.declares
    have hunknown : (before rule lines i).labels.lookup name = none := lookup_before hfirst
    simp [added?, fresh?, hraw, hdeclares, hunknown]

end Layout

/-! ## The whole table -/

variable {rule : LabelRule} {lines : List Text}

theorem entries_layoutLabels :
    (layoutLabels rule lines).entries =
      (List.range lines.length).filterMap (Layout.added? rule lines) := by
  rw [← Layout.entries_before, Layout.before, List.take_length, layoutLabels]

theorem mem_entries_layoutLabels {name : Text} {address : Int} :
    (name, address) ∈ (layoutLabels rule lines).entries ↔
      ∃ i, FirstDeclaration lines i name ∧ (Layout.before rule lines i).counter = address := by
  simp only [entries_layoutLabels, List.mem_filterMap, List.mem_range, Layout.added?_eq_some_iff]
  constructor
  · rintro ⟨i, -, h⟩
    exact ⟨i, h⟩
  · rintro ⟨i, h⟩
    obtain ⟨raw, hraw, -⟩ := Option.bind_eq_some_iff.mp h.1.declares
    exact ⟨i, (List.getElem?_eq_some_iff.mp hraw).1, h⟩

/-- The address of a label is the counter of its first declaration, and a label that no line
declares has none. -/
theorem lookup_layoutLabels_eq_some_iff {name : Text} {address : Int} :
    (layoutLabels rule lines).lookup name = some address ↔
      ∃ i, FirstDeclaration lines i name ∧ (Layout.before rule lines i).counter = address := by
  constructor
  · intro h
    obtain ⟨earlier, later, hentries, -⟩ := List.lookup_eq_some_iff.mp h
    rw [← mem_entries_layoutLabels, hentries]
    simp
  · rintro ⟨i, hfirst, rfl⟩
    exact lookup_layoutLabels rule hfirst

theorem mem_entries_iff_lookup {name : Text} {address : Int} :
    (name, address) ∈ (layoutLabels rule lines).entries ↔
      (layoutLabels rule lines).lookup name = some address :=
  mem_entries_layoutLabels.trans lookup_layoutLabels_eq_some_iff.symm

theorem lookup_layoutLabels_nonneg {name : Text} {address : Int}
    (h : (layoutLabels rule lines).lookup name = some address) : 0 ≤ address := by
  obtain ⟨i, -, rfl⟩ := lookup_layoutLabels_eq_some_iff.mp h
  exact Layout.run_counter_nonneg rule (lines.take i)

/-- A label is the first declared one of those at an address, and line `i` declares it. -/
structure FirstLabelAt (rule : LabelRule) (lines : List Text) (address : Int) (i : Nat)
    (name : Text) : Prop where
  declaration : FirstDeclaration lines i name
  lookup : (layoutLabels rule lines).lookup name = some address
  isFirst : ∀ j < i, ∀ other, FirstDeclaration lines j other →
    (layoutLabels rule lines).lookup other ≠ some address

theorem any_added?_iff {i : Nat} {address : Int} :
    (Layout.added? rule lines i).any (fun entry => entry.2 == address) = true ↔
      ∃ name, FirstDeclaration lines i name ∧
        (layoutLabels rule lines).lookup name = some address := by
  simp only [Option.any_eq_true, beq_iff_eq, Prod.exists, Layout.added?_eq_some_iff]
  constructor
  · rintro ⟨name, held, ⟨hfirst, rfl⟩, rfl⟩
    exact ⟨name, hfirst, lookup_layoutLabels rule hfirst⟩
  · rintro ⟨name, hfirst, hlookup⟩
    rw [lookup_layoutLabels rule hfirst] at hlookup
    exact ⟨name, _, ⟨hfirst, rfl⟩, Option.some.inj hlookup⟩

/-- The first entry at an address is that of the first declared label there. -/
theorem find?_entries_layoutLabels {address : Int} {name : Text} :
    ((layoutLabels rule lines).entries.find? fun entry => entry.2 == address).map Prod.fst =
        some name ↔
      ∃ i, FirstLabelAt rule lines address i name := by
  rw [entries_layoutLabels, List.find?_filterMap]
  constructor
  · intro h
    obtain ⟨⟨found, held⟩, hentry, rfl⟩ := Option.map_eq_some_iff.mp h
    obtain ⟨i, hi, hadded⟩ := Option.bind_eq_some_iff.mp hentry
    obtain ⟨hat, -, hbefore⟩ := List.find?_range_eq_some.mp hi
    obtain ⟨hfirst, rfl⟩ := Layout.added?_eq_some_iff.mp hadded
    rw [hadded, Option.any_some, beq_iff_eq] at hat
    refine ⟨i, hfirst, ?_, ?_⟩
    · exact (lookup_layoutLabels rule hfirst).trans (congrArg some hat)
    · intro j hj other hother hsame
      have hnone := hbefore j hj
      rw [any_added?_iff.mpr ⟨other, hother, hsame⟩] at hnone
      cases hnone
  · rintro ⟨i, h⟩
    have hrange : (List.range lines.length).find? (fun k =>
        (Layout.added? rule lines k).any fun entry => entry.2 == address) = some i := by
      obtain ⟨raw, hraw, -⟩ := Option.bind_eq_some_iff.mp h.declaration.declares
      refine List.find?_range_eq_some.mpr ⟨any_added?_iff.mpr ⟨name, h.declaration, h.lookup⟩,
        List.mem_range.mpr (List.getElem?_eq_some_iff.mp hraw).1, ?_⟩
      intro j hj
      rw [Bool.not_eq_true', Bool.eq_false_iff]
      intro hany
      obtain ⟨other, hother, hsame⟩ := any_added?_iff.mp hany
      exact h.isFirst j hj other hother hsame
    rw [hrange, Option.bind_some, Layout.added?_eq_some_iff.mpr ⟨h.declaration, rfl⟩]
    rfl

end WordMachine
