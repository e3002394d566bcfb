import WordMachine.Assembly.Operand
import WordMachine.Proofs.Numeral.Literal

/-!
# Resolving operands

An operand is a literal or a label, and its form alone decides which of the two. A text in the form
of a number never comes to stand for a label, not even if it cannot be read: the label table is
asked only for texts that are neither decimal nor begin with a zero. A missing table is the empty
one.
-/

namespace WordMachine

namespace Operand

variable {labels : Labels} {t : Text}

theorem resolve_eq_ok_iff {v : Int} :
    resolve labels t = .ok v ↔
      Numeral.readNumber t = .ok v ∨
        Numeral.readNumber t = .error .notNumeric ∧ labels.lookup t = some v := by
  cases hread : Numeral.readNumber t with
  | ok value => simp [resolve, hread]
  | error e =>
      cases e with
      | notNumeric => cases hlookup : labels.lookup t <;> simp [resolve, hread, hlookup]
      | _ => simp [resolve, hread]

/-- An operand that does not resolve is reported as it stands, and as a label if it could have been
one. -/
theorem resolve_of_ne_ok (h : ∀ v, resolve labels t ≠ .ok v) :
    ∃ asLabel, resolve labels t = .error (.unresolvedOperand t asLabel) ∧
      (asLabel = true ↔ t ≠ [] ∧ Numeral.readNumber t = .error .notNumeric) := by
  cases hread : Numeral.readNumber t with
  | ok value => exact absurd (resolve_eq_ok_iff.mpr (.inl hread)) (h value)
  | error e =>
      cases e with
      | notNumeric =>
          cases hlookup : labels.lookup t with
          | some address => exact absurd (resolve_eq_ok_iff.mpr (.inr ⟨hread, hlookup⟩)) (h address)
          | none => exact ⟨!t.isEmpty, by simp only [resolve, hread, hlookup], by simp⟩
      | _ => exact ⟨false, by simp only [resolve, hread], by simp⟩

theorem resolve_eq_error_iff {cause : Cause} :
    resolve labels t = .error cause ↔
      (∀ v, resolve labels t ≠ .ok v) ∧
        ∃ asLabel, cause = .unresolvedOperand t asLabel ∧
          (asLabel = true ↔ t ≠ [] ∧ Numeral.readNumber t = .error .notNumeric) := by
  constructor
  · intro h
    have hfails : ∀ v, resolve labels t ≠ .ok v := by
      intro v hv
      rw [h] at hv
      cases hv
    obtain ⟨asLabel, herror, hmark⟩ := resolve_of_ne_ok hfails
    exact ⟨hfails, asLabel, Except.error.inj (h.symm.trans herror), hmark⟩
  · rintro ⟨hfails, asLabel, rfl, hmark⟩
    obtain ⟨found, herror, hfound⟩ := resolve_of_ne_ok hfails
    have hsame : found = asLabel := Bool.eq_iff_iff.mpr (hfound.trans hmark.symm)
    rw [herror, hsame]

/-- The label table plays no part for a text in the form of a number. -/
theorem resolve_eq_resolve_empty (h : Numeral.readNumber t ≠ .error .notNumeric) :
    resolve labels t = resolve .empty t := by
  cases hread : Numeral.readNumber t with
  | ok value => simp only [resolve, hread]
  | error e =>
      cases e with
      | notNumeric => exact absurd hread h
      | _ => simp only [resolve, hread]

end Operand

/-- Operands have one grammar. Numbers are the literals of 32 bits, and what is neither decimal nor
begins with a zero is no number. An operand resolves to the number that it writes, or, if it is no
number, to the address of the label that it names; any other operand is unresolved. So an operand
that is neither a literal nor a known label has no value, and a label whose name has the form of a
number makes no difference. -/
theorem operands_have_one_grammar (labels : Labels) (t : Text) :
    (∀ v, Numeral.readNumber t = .ok v ↔
      Numeral.Literal t v ∧ -2147483648 ≤ v ∧ v ≤ 2147483647) ∧
    (Numeral.readNumber t = .error .notNumeric ↔
      (∀ v, ¬ Numeral.DecimalLiteral t v) ∧ t.head? ≠ some Numeral.zeroByte) ∧
    (∀ v, Operand.resolve labels t = .ok v ↔
      Numeral.readNumber t = .ok v ∨
        Numeral.readNumber t = .error .notNumeric ∧ labels.lookup t = some v) ∧
    (∀ cause, Operand.resolve labels t = .error cause ↔
      (∀ v, Operand.resolve labels t ≠ .ok v) ∧
        ∃ asLabel, cause = .unresolvedOperand t asLabel ∧
          (asLabel = true ↔ t ≠ [] ∧ Numeral.readNumber t = .error .notNumeric)) ∧
    ((∀ v, ¬ Numeral.Literal t v) → labels.lookup t = none →
      ∀ v, Operand.resolve labels t ≠ .ok v) ∧
    ((∃ v, Numeral.DecimalLiteral t v) ∨ t.head? = some Numeral.zeroByte →
      Operand.resolve labels t = Operand.resolve .empty t) := by
  refine ⟨fun _ => Numeral.readNumber_eq_ok_iff, Numeral.readNumber_eq_notNumeric_iff,
    fun _ => Operand.resolve_eq_ok_iff, fun _ => Operand.resolve_eq_error_iff, ?_, ?_⟩
  · intro hmalformed hundefined v hv
    rcases Operand.resolve_eq_ok_iff.mp hv with hread | ⟨-, hlookup⟩
    · exact hmalformed v (Numeral.readNumber_eq_ok_iff.mp hread).1
    · rw [hundefined] at hlookup
      cases hlookup
  · intro hform
    apply Operand.resolve_eq_resolve_empty
    rw [ne_eq, Numeral.readNumber_eq_notNumeric_iff]
    rintro ⟨hdecimal, hzero⟩
    rcases hform with ⟨v, hv⟩ | hhead
    · exact hdecimal v hv
    · exact hzero hhead

end WordMachine
