import Mathlib.Data.Set.Card
import WordMachine.Proofs.Assembly.Causes
import WordMachine.Proofs.Assembly.Declarations
import WordMachine.Proofs.Source.Head

/-!
# Declarations and redeclarations

The first reading keeps the first declaration of each label, and the second reading complains about
every other one. The two readings keep books of their own, but both go by the labels at the heads of
the same lines. So the label table holds each declared label once, and a line is reported exactly if
an earlier line declares its label.
-/

namespace WordMachine

/-- The label of a line is the name that stands at the head of its code. -/
theorem declared?_eq_some_iff {raw name : Text} :
    declared? raw = some name ↔ name ≠ [] ∧ Statement.HeadedBy raw name :=
  Statement.label_of_parse_iff

/-! ## The table -/

section Table

variable {rule : LabelRule} {lines : List Text}

theorem exists_mem_declared?_iff {name : Text} :
    (∃ raw ∈ lines, declared? raw = some name) ↔ ∃ i, FirstDeclaration lines i name := by
  constructor
  · rintro ⟨raw, hraw, hdeclares⟩
    obtain ⟨i, hi⟩ := List.mem_iff_getElem?.mp hraw
    exact exists_firstDeclaration ⟨i, by rw [hi, Option.bind_some, hdeclares]⟩
  · rintro ⟨i, hfirst⟩
    obtain ⟨raw, hraw, hdeclares⟩ := Option.bind_eq_some_iff.mp hfirst.declares
    exact ⟨raw, List.mem_of_getElem? hraw, hdeclares⟩

theorem mem_names_layoutLabels {name : Text} :
    name ∈ (layoutLabels rule lines).names ↔ ∃ raw ∈ lines, declared? raw = some name := by
  rw [exists_mem_declared?_iff, Labels.names, List.mem_map]
  constructor
  · rintro ⟨⟨found, address⟩, hentry, rfl⟩
    obtain ⟨i, hfirst, -⟩ := mem_entries_layoutLabels.mp hentry
    exact ⟨i, hfirst⟩
  · rintro ⟨i, hfirst⟩
    exact ⟨(name, _), mem_entries_layoutLabels.mpr ⟨i, hfirst, rfl⟩, rfl⟩

/-- The labels come in the order of the lines that first declare them. -/
theorem pairwise_names_layoutLabels :
    (layoutLabels rule lines).names.Pairwise fun a b =>
      ∃ i j, i < j ∧ FirstDeclaration lines i a ∧ FirstDeclaration lines j b := by
  rw [Labels.names, entries_layoutLabels, List.pairwise_map, List.pairwise_filterMap]
  refine List.pairwise_lt_range.imp ?_
  rintro i j hij ⟨a, _⟩ ha ⟨b, _⟩ hb
  exact ⟨i, j, hij, (Layout.added?_eq_some_iff.mp ha).1, (Layout.added?_eq_some_iff.mp hb).1⟩

theorem nodup_names_layoutLabels : (layoutLabels rule lines).names.Nodup := by
  refine pairwise_names_layoutLabels.imp ?_
  rintro a b ⟨i, j, hij, hfirst, hother⟩ rfl
  exact hother.isFirst i hij hfirst.declares

theorem size_layoutLabels :
    (layoutLabels rule lines).size =
      Set.ncard {name | ∃ raw ∈ lines, declared? raw = some name} := by
  have hset : {name | ∃ raw ∈ lines, declared? raw = some name} =
      ((layoutLabels rule lines).names.toFinset : Set Text) := by
    ext name
    simp [mem_names_layoutLabels]
  rw [hset, Set.ncard_coe_finset, List.toFinset_card_of_nodup nodup_names_layoutLabels,
    Labels.names, List.length_map, Labels.size]

theorem Labels.byName_perm (labels : Labels) : labels.byName.Perm labels.entries :=
  List.mergeSort_perm _ _

/-- A statement adds one to the counter at most, unless it moves it into the memory. -/
theorem Layout.advance_le {counter bound : Int} (h : counter ≤ bound) (hbound : maxAddress ≤ bound)
    (statement : Statement) : advance counter statement ≤ bound + 1 := by
  unfold advance
  split
  · split
    · next hlocation =>
        have := (Operand.location_in_memory hlocation).2
        omega
    · omega
  · omega

theorem Layout.run_counter_le (rule : LabelRule) (lines : List Text) :
    (run rule lines).counter ≤ maxAddress + lines.length := by
  induction lines using List.reverseRecOn with
  | nil => exact Int.ofNat_le.mpr (Nat.zero_le 65535)
  | append_singleton lines raw ih =>
      rw [run_append_singleton, List.length_append, List.length_singleton]
      cases hparse : Statement.parse raw with
      | none =>
          simp only [step, hparse]
          omega
      | some statement =>
          rw [step_counter rule _ hparse]
          split
          · omega
          · have := advance_le ih (by omega) statement
            omega

theorem lookup_layoutLabels_le {name : Text} {address : Int}
    (h : (layoutLabels rule lines).lookup name = some address) :
    address ≤ maxAddress + lines.length := by
  obtain ⟨i, -, rfl⟩ := lookup_layoutLabels_eq_some_iff.mp h
  have hcounter := Layout.run_counter_le rule (lines.take i)
  have hlength := List.length_take_le' i lines
  rw [Layout.before]
  omega

end Table

/-! ## Complaints about labels -/

/-- The label that a cause reports as declared again. -/
def Cause.redeclared? : Cause → Option Text
  | redeclaredLabel name => some name
  | _ => none

theorem Cause.redeclared?_of_inStatement {cause : Cause} (h : cause.inStatement) :
    cause.redeclared? = none := by
  cases cause with
  | redeclaredLabel name => cases h
  | _ => rfl

/-- A statement never fails because of its label. -/
theorem Statement.FailsWith.redeclared? {s : Statement} {labels : Labels} {counter : Int}
    {cause : Cause} (h : s.FailsWith labels counter cause) : cause.redeclared? = none := by
  cases h with
  | location _ h => exact Cause.redeclared?_of_inStatement (Operand.inStatement_of_location h)
  | word _ h => exact Cause.redeclared?_of_inStatement (Statement.inStatement_of_word h)
  | overflow _ _ _ => rfl

/-- The labels that are reported on a line as declared again. -/
def redeclaredOn (diagnostics : List Diagnostic) (line : Int) : List Text :=
  (diagnosticsOn diagnostics line).filterMap fun d => d.cause.redeclared?

namespace Emission

variable {rule : LabelRule} {labels : Labels} {name : Text}

theorem mem_declared_step {e : Emission} {raw : Text} :
    name ∈ (step rule labels e raw).declared ↔ name ∈ e.declared ∨ declared? raw = some name := by
  cases hparse : Statement.parse raw with
  | none => simp [step, hparse, addRow, declared?]
  | some statement =>
      rw [step_declared e hparse, declared?, hparse, Option.bind_some, remember]
      cases hlabel : statement.label with
      | none => simp
      | some found =>
          by_cases hknown : found ∈ e.declared
          · simp only [List.contains_iff_mem, hknown, if_true, Option.some.injEq]
            constructor
            · exact .inl
            · rintro (h | rfl)
              · exact h
              · exact hknown
          · simp only [List.contains_iff_mem, hknown, if_false, List.mem_cons, Option.some.injEq]
            rw [or_comm, eq_comm]

/-- The second reading knows the labels of the lines that it has read. -/
theorem mem_declared_run {lines : List Text} :
    name ∈ (run rule labels lines).declared ↔ ∃ raw ∈ lines, declared? raw = some name := by
  induction lines using List.reverseRecOn with
  | nil => simp [run, start]
  | append_singleton lines raw ih =>
      rw [run_append_singleton, mem_declared_step, ih]
      simp [or_and_right, exists_or]

/-- Of the complaints about a line, those about its label: one if the label is known, and otherwise
none. -/
theorem redeclared?_complaints (e : Emission) (raw : Text) :
    (e.complaints rule labels raw).filterMap (fun d => d.cause.redeclared?) =
      ((declared? raw).filter fun found => e.declared.contains found).toList := by
  cases hparse : Statement.parse raw with
  | none => simp [complaints, hparse, declared?]
  | some statement =>
      have hfailure : (e.failure statement.column
          (Demand.ofStatement rule labels statement)).toList.filterMap
            (fun d => d.cause.redeclared?) = [] := by
        rw [List.filterMap_eq_nil_iff]
        intro d hd
        exact (failsWith_of_failure hparse (Option.mem_toList.mp hd)).redeclared?
      simp only [complaints, hparse, List.filterMap_append, hfailure, List.append_nil, declared?,
        Option.bind_some, redeclaration]
      cases statement.label with
      | none => rfl
      | some found =>
          dsimp only
          by_cases hknown : e.declared.contains found
          · rw [if_pos hknown, Option.filter_some_pos hknown]
            rfl
          · rw [if_neg hknown, Option.filter_some_neg (Bool.eq_false_of_not_eq_true hknown)]
            rfl

end Emission

section Programs

variable {rule : LabelRule} {lines : List Text}

theorem exists_mem_take_declared?_iff {i : Nat} {name : Text} :
    (∃ raw ∈ lines.take i, declared? raw = some name) ↔
      ∃ j < i, lines[j]?.bind declared? = some name := by
  constructor
  · rintro ⟨raw, hraw, hdeclares⟩
    obtain ⟨j, hj⟩ := List.mem_iff_getElem?.mp hraw
    rw [List.getElem?_take] at hj
    split at hj
    · next hlt => exact ⟨j, hlt, by rw [hj, Option.bind_some, hdeclares]⟩
    · cases hj
  · rintro ⟨j, hj, hdeclares⟩
    obtain ⟨raw, hget, hdeclares⟩ := Option.bind_eq_some_iff.mp hdeclares
    refine ⟨raw, ?_, hdeclares⟩
    exact List.mem_of_getElem? ((List.getElem?_take_of_lt hj).trans hget)

/-- The labels reported on a line are the label of the line, if an earlier line declares it, and
nothing otherwise. -/
theorem exists_redeclaredOn_eq (rule : LabelRule) (lines : List Text) (i : Nat) :
    ∃ found : Option Text,
      redeclaredOn (Program.assemble rule lines).diagnostics (i + 1) = found.toList ∧
        ∀ name, found = some name ↔
          lines[i]?.bind declared? = some name ∧ ∃ j < i, lines[j]?.bind declared? = some name := by
  let labels := layoutLabels rule lines
  cases hraw : lines[i]? with
  | none =>
      refine ⟨none, ?_, by simp⟩
      have hend : lines.length ≤ i := List.getElem?_eq_none_iff.mp hraw
      have hempty : diagnosticsOn (Program.assemble rule lines).diagnostics (i + 1) = [] := by
        apply List.filter_eq_nil_iff.mpr
        intro d hd
        have hline := Emission.line_of_mem_diagnostics rule labels hd
        rw [beq_iff_eq]
        omega
      rw [redeclaredOn, hempty]
      rfl
  | some raw =>
      refine ⟨(declared? raw).filter fun found =>
        (Emission.before rule labels lines i).declared.contains found, ?_, ?_⟩
      · have hcomplaints := Emission.diagnosticsOn_run rule labels hraw
        exact (congrArg (List.filterMap fun d => d.cause.redeclared?) hcomplaints).trans
          (Emission.redeclared?_complaints _ raw)
      · intro name
        rw [Option.filter_eq_some_iff, List.contains_iff_mem, Emission.before,
          Emission.mem_declared_run, exists_mem_take_declared?_iff, Option.bind_some]

end Programs

/-- A label table is that of a program's lines under a label rule. -/
structure IsTableOf (rule : LabelRule) (lines : List Text) (labels : Labels) : Prop where
  /-- The labels are the names that stand at the head of a line. -/
  declared : ∀ name, name ∈ labels.names ↔
    ∃ raw ∈ lines, name ≠ [] ∧ Statement.HeadedBy raw name
  once : labels.names.Nodup
  inOrder : labels.names.Pairwise fun a b =>
    ∃ i j, i < j ∧ FirstDeclaration lines i a ∧ FirstDeclaration lines j b
  size : labels.size = Set.ncard {name | ∃ raw ∈ lines, name ≠ [] ∧ Statement.HeadedBy raw name}
  /-- The sorted table has the same labels at the same addresses. -/
  byName : labels.byName.Perm labels.entries
  mem_byName : ∀ name address,
    (name, address) ∈ labels.byName ↔ labels.lookup name = some address
  /-- A label has the counter before the first line that declares it. -/
  lookup : ∀ name address, labels.lookup name = some address ↔
    ∃ i, FirstDeclaration lines i name ∧ (Layout.before rule lines i).counter = address
  inBounds : ∀ name address, labels.lookup name = some address →
    0 ≤ address ∧ address ≤ 65535 + lines.length

theorem isTableOf_layoutLabels (rule : LabelRule) (lines : List Text) :
    IsTableOf rule lines (layoutLabels rule lines) where
  declared name := by simpa only [declared?_eq_some_iff] using mem_names_layoutLabels
  once := nodup_names_layoutLabels
  inOrder := pairwise_names_layoutLabels
  size := by simpa only [declared?_eq_some_iff] using size_layoutLabels
  byName := Labels.byName_perm _
  mem_byName name address := (Labels.byName_perm _).mem_iff.trans mem_entries_iff_lookup
  lookup name address := lookup_layoutLabels_eq_some_iff
  inBounds name address h := ⟨lookup_layoutLabels_nonneg h, lookup_layoutLabels_le h⟩

/-- The label table is exact, and redeclarations are all reported. The table holds the labels at the
heads of the lines. In the assembled program a line is reported once if an earlier line declares its
label, and not at all otherwise. -/
theorem label_table_exact (rule : LabelRule) (lines : List Text) :
    (∀ raw name, declared? raw = some name ↔ name ≠ [] ∧ Statement.HeadedBy raw name) ∧
    IsTableOf rule lines (layoutLabels rule lines) ∧
    (∀ (i : Nat) (name : Text),
      redeclaredOn (Program.assemble rule lines).diagnostics (i + 1) = [name] ↔
        lines[i]?.bind declared? = some name ∧ ∃ j < i, lines[j]?.bind declared? = some name) ∧
    ∀ i : Nat, redeclaredOn (Program.assemble rule lines).diagnostics (i + 1) = [] ↔
      ∀ name, lines[i]?.bind declared? = some name →
        ∀ j < i, lines[j]?.bind declared? ≠ some name := by
  refine ⟨fun _ _ => declared?_eq_some_iff, isTableOf_layoutLabels rule lines, ?_, ?_⟩
  · intro i name
    obtain ⟨found, hreported, hfound⟩ := exists_redeclaredOn_eq rule lines i
    rw [hreported, ← hfound]
    cases found <;> simp
  · intro i
    obtain ⟨found, hreported, hfound⟩ := exists_redeclaredOn_eq rule lines i
    rw [hreported, Option.toList_eq_nil_iff, Option.eq_none_iff_forall_ne_some]
    constructor
    · intro hnone name hdeclares j hj hearlier
      exact hnone name ((hfound name).mpr ⟨hdeclares, j, hj, hearlier⟩)
    · intro hnew name hsome
      obtain ⟨hdeclares, j, hj, hearlier⟩ := (hfound name).mp hsome
      exact hnew name hdeclares j hj hearlier

end WordMachine
