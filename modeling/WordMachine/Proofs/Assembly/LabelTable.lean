import WordMachine.Proofs.Assembly.Reading

/-!
# The label table of the first reading

A label keeps the counter of the first line that declares it, whatever the lines after it do. This
holds under either rule for statements that stand after a label.
-/

namespace WordMachine

/-- The label that a line declares. -/
def declared? (raw : Text) : Option Text := (Statement.parse raw).bind Statement.label

/-- Line `i` is the first that declares a label. -/
structure FirstDeclaration (lines : List Text) (i : Nat) (name : Text) : Prop where
  declares : lines[i]?.bind declared? = some name
  isFirst : ∀ j < i, lines[j]?.bind declared? ≠ some name

theorem Labels.lookup_declare (labels : Labels) (name other : Text) (address : Int) :
    (labels.declare name address).lookup other =
      (labels.lookup other).or (if other = name then some address else none) := by
  cases h : labels.lookup name with
  | some known =>
      simp only [declare, h, Option.isSome_some, if_true]
      by_cases he : other = name
      · simp [he, h]
      · simp [he]
  | none =>
      have hadd : labels.declare name address = ⟨labels.entries ++ [(name, address)]⟩ := by
        simp [declare, h]
      rw [hadd, lookup, lookup, List.lookup_append]
      by_cases he : other = name
      · simp [he]
      · simp [he, List.lookup_cons, beq_false_of_ne he]

namespace Layout

variable {rule : LabelRule} {name : Text}

/-- A line adds its own label at the counter, and only if the label is new. -/
theorem lookup_step (layout : Layout) (raw : Text) :
    (step rule layout raw).labels.lookup name =
      (layout.labels.lookup name).or
        (if declared? raw = some name then some layout.counter else none) := by
  cases h : Statement.parse raw with
  | none => simp [step, h, declared?]
  | some statement =>
      cases hl : statement.label with
      | none => simp [step, h, place, declare, hl, declared?]
      | some found =>
          simp only [step, h, place, declare, hl, declared?, Option.bind_some,
            Labels.lookup_declare, Option.some.injEq, eq_comm (a := name)]

theorem lookup_foldl_of_some {lines : List Text} {layout : Layout} {address : Int}
    (h : layout.labels.lookup name = some address) :
    (lines.foldl (step rule) layout).labels.lookup name = some address := by
  induction lines generalizing layout with
  | nil => exact h
  | cons raw rest ih =>
      apply ih
      rw [lookup_step, h, Option.some_or]

theorem lookup_foldl_of_absent {lines : List Text} {layout : Layout}
    (absent : ∀ raw ∈ lines, declared? raw ≠ some name) :
    (lines.foldl (step rule) layout).labels.lookup name = layout.labels.lookup name := by
  induction lines generalizing layout with
  | nil => rfl
  | cons raw rest ih =>
      rw [List.foldl_cons, ih fun r hr => absent r (List.mem_cons_of_mem raw hr), lookup_step,
        if_neg (absent raw List.mem_cons_self), Option.or_none]

/-- No line before the first declaration puts the label into the table. -/
theorem lookup_before {lines : List Text} {i : Nat} (first : FirstDeclaration lines i name) :
    (before rule lines i).labels.lookup name = none := by
  have absent : ∀ raw ∈ lines.take i, declared? raw ≠ some name := by
    intro raw hraw
    obtain ⟨j, hj, hget⟩ := List.mem_take_iff_getElem.mp hraw
    have hfresh := first.isFirst j (by omega)
    rwa [List.getElem?_eq_getElem (by omega), Option.bind_some, hget] at hfresh
  exact lookup_foldl_of_absent absent

end Layout

/-- The table gives a label the counter of the first line that declares it. -/
theorem lookup_layoutLabels (rule : LabelRule) {lines : List Text} {i : Nat} {name : Text}
    (first : FirstDeclaration lines i name) :
    (layoutLabels rule lines).lookup name = some (Layout.before rule lines i).counter := by
  obtain ⟨raw, hraw, hdeclares⟩ := Option.bind_eq_some_iff.mp first.declares
  have hafter : (Layout.before rule lines (i + 1)).labels.lookup name =
      some (Layout.before rule lines i).counter := by
    rw [Layout.before_succ rule hraw, Layout.lookup_step, Layout.lookup_before first,
      if_pos hdeclares, Option.none_or]
  have hrun : Layout.run rule lines =
      (lines.drop (i + 1)).foldl (Layout.step rule) (Layout.before rule lines (i + 1)) := by
    rw [Layout.before, Layout.run, Layout.run, ← List.foldl_append, List.take_append_drop]
  rw [layoutLabels, hrun]
  exact Layout.lookup_foldl_of_some hafter

end WordMachine
