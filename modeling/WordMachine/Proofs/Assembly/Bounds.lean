import WordMachine.Proofs.Assembly.Image
import WordMachine.Proofs.Assembly.Reading

/-!
# The addresses of an assembled image

The counter of the second reading may run past the last address, but it is never negative, and a
word is placed only where there is memory. Both hold against any label table.
-/

namespace WordMachine

theorem Operand.location_in_memory {operands : Text} {address : Int}
    (h : location operands = .ok address) : 0 ≤ address ∧ address ≤ maxAddress := by
  unfold location at h
  split at h
  · cases h
  · split at h
    · cases h
    · split at h
      · cases h
      · next hrange =>
          cases h
          omega

theorem Statement.location?_in_memory {statement : Statement} {address : Int}
    (h : statement.location? = some address) : 0 ≤ address ∧ address ≤ maxAddress :=
  Operand.location_in_memory (location?_eq_some_iff.mp h).2

namespace Image

theorem InMemory.insert {image : Image} (h : image.InMemory) {address : Int}
    (haddress : 0 ≤ address ∧ address ≤ maxAddress) (word : Word) :
    InMemory (image.insert address word) := by
  intro other hother
  rcases Std.ExtTreeMap.mem_insert.mp hother with heq | hmem
  · rw [← Std.LawfulEqCmp.eq_of_compare heq]
    exact haddress
  · exact h other hmem

end Image

namespace Demand

variable {counter : Int} {rule : LabelRule} {labels : Labels} {statement : Statement}

theorem next_nonneg (h : 0 ≤ counter) :
    0 ≤ (ofStatement rule labels statement).next counter := by
  cases hd : ofStatement rule labels statement with
  | nothing => exact h
  | moveTo target => exact (Statement.location?_in_memory (location?_of_ofStatement hd)).1
  | badMove cause => exact h
  | emit word =>
      simp only [next]
      omega
  | reject cause =>
      simp only [next]
      omega

/-- A word that runs past the last address is rejected, so that it is not placed. -/
theorem place_content_inMemory {image : Image} (h : 0 ≤ counter) (himage : image.InMemory)
    (d : Demand) : ((d.content counter).place image).InMemory := by
  cases d with
  | nothing => exact himage
  | moveTo target => exact himage
  | badMove cause => exact himage
  | emit word =>
      by_cases hc : maxAddress < counter
      · simpa only [content, hc, if_true, Content.place] using himage
      · simp only [content, hc, if_false, Content.place]
        exact himage.insert ⟨h, by omega⟩ word
  | reject cause => exact himage

end Demand

namespace Emission

/-- The second reading is at an address that is not negative and has placed words in memory only. -/
structure InBounds (e : Emission) : Prop where
  counter : 0 ≤ e.counter
  image : e.image.InMemory

variable (rule : LabelRule) (labels : Labels)

theorem InBounds.step {e : Emission} (h : e.InBounds) (raw : Text) :
    (e.step rule labels raw).InBounds := by
  cases hparse : Statement.parse raw with
  | none =>
      refine ⟨?_, ?_⟩
      · rw [step_blank e hparse]
        exact h.counter
      · rw [step_image]
        simpa only [row, hparse, Content.place] using h.image
  | some statement =>
      refine ⟨?_, ?_⟩
      · rw [step_counter e hparse]
        exact Demand.next_nonneg h.counter
      · rw [step_image]
        simp only [row, hparse]
        exact Demand.place_content_inMemory h.counter h.image _

theorem run_inBounds (lines : List Text) : (run rule labels lines).InBounds := by
  induction lines using List.reverseRecOn with
  | nil => exact ⟨Int.le_refl 0, fun _ hmem => absurd hmem Std.ExtTreeMap.not_mem_empty⟩
  | append_singleton lines raw ih =>
      rw [run_append_singleton]
      exact ih.step rule labels raw

end Emission

theorem Program.image_assemble_inMemory (rule : LabelRule) (lines : List Text) :
    (assemble rule lines).image.InMemory :=
  (Emission.run_inBounds rule _ lines).image

end WordMachine
