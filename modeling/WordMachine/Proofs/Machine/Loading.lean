import WordMachine.Proofs.Assembly.Image
import WordMachine.Proofs.Machine.Memory
import WordMachine.Proofs.Word

/-!
# Loading an image

An image whose addresses are all in memory can be loaded into any machine. What the machine held
before is gone: the memory holds the image and zeros, and the program counter stands at the lowest
address of the image.
-/

namespace WordMachine

/-- The memory holds the words of an image, and zero at every other address. -/
def Memory.Holds (memory : Memory) (image : Image) : Prop :=
  ∀ address : Word, memory.read address = image[address.toInt]?.getD 0

theorem Memory.Holds.write {memory : Memory} {image : Image} (h : memory.Holds image)
    {address : Int} (haddress : 0 ≤ address ∧ address ≤ maxAddress) (word : Word) :
    (memory.write (Word.ofInt address) word).Holds (image.insert address word) := by
  intro other
  by_cases hother : other = Word.ofInt address
  · subst hother
    rw [read_write_self, Word.toInt_ofInt haddress.1 haddress.2,
      Std.ExtTreeMap.getElem?_insert_self, Option.getD_some]
  · have hne : address ≠ other.toInt := by
      intro heq
      rw [heq, Word.ofInt_toInt] at hother
      exact hother rfl
    rw [read_write_of_ne memory word hother, h other, Std.ExtTreeMap.getElem?_insert,
      if_neg (fun heq => hne (Std.LawfulEqCmp.eq_of_compare heq))]

namespace Machine

/-- Whatever a machine held, resetting it leaves the state in which every word is zero. -/
theorem reset_eq_initial (m : Machine) : m.reset = initial := by
  simp only [reset, initial, Memory.clear, Vector.map_const']

/-- Storing pairs whose addresses are in memory succeeds, and touches nothing but the memory. -/
theorem storeAll_of_in_memory {pairs : List (Int × Word)}
    (h : ∀ pair ∈ pairs, 0 ≤ pair.1 ∧ pair.1 ≤ maxAddress) (m : Machine) {image : Image}
    (hm : m.memory.Holds image) :
    ∃ memory : Memory, m.storeAll pairs = ({ m with memory := memory }, none) ∧
      memory.Holds (pairs.foldl (fun image pair => image.insert pair.1 pair.2) image) := by
  -- The memory holds what has been stored so far, so the image grows along with the machine.
  induction pairs generalizing m image with
  | nil => exact ⟨m.memory, rfl, hm⟩
  | cons pair rest ih =>
      have hpair := h pair List.mem_cons_self
      obtain ⟨memory, hrest, hholds⟩ :=
        ih (fun other hother => h other (List.mem_cons_of_mem pair hother))
          (m.store (Word.ofInt pair.1) pair.2) (hm.write hpair pair.2)
      refine ⟨memory, ?_, hholds⟩
      rw [storeAll, if_neg (by omega), hrest]
      rfl

/-- A machine is about to run an image: it stands at the lowest address, and it holds nothing else
than the image. -/
structure IsLoaded (m : Machine) (image : Image) : Prop where
  memory : m.memory.Holds image
  counter_of_empty : image = ∅ → m.counter = 0
  counter_mem : image ≠ ∅ → m.counter.toInt ∈ image
  counter_le : ∀ address ∈ image, m.counter.toInt ≤ address
  registers : ∀ slot, m.registers.get slot = 0
  index : ∀ slot, m.index.get slot = 0
  instruction : m.instruction = 0
  halted : m.halted = false

theorem entryPoint_empty : entryPoint ∅ = 0 := rfl

theorem toInt_entryPoint {image : Image} (h : image.InMemory) (hne : image ≠ ∅) :
    (entryPoint image).toInt ∈ image ∧ ∀ address ∈ image, (entryPoint image).toInt ≤ address := by
  cases hpairs : image.pairs with
  | nil =>
      have hempty : image = ∅ := by
        rw [← Image.ofPairs_pairs image, hpairs]
        rfl
      exact absurd hempty hne
  | cons pair rest =>
      have hmem : pair ∈ image.pairs := by simp [hpairs]
      obtain ⟨hlow, hhigh⟩ := h.of_mem_pairs hmem
      have hentry : (entryPoint image).toInt = pair.1 := by
        rw [entryPoint, hpairs]
        exact Word.toInt_ofInt hlow hhigh
      rw [hentry]
      exact ⟨Image.mem_of_mem_pairs hmem, fun _ => Image.le_of_pairs_eq_cons hpairs⟩

/-- Every machine can be loaded with an image whose addresses are in memory. -/
theorem reload_of_inMemory {image : Image} (h : image.InMemory) (m : Machine) :
    ∃ loaded : Machine, m.reload image = (loaded, none) ∧ loaded.IsLoaded image := by
  have hclear : initial.memory.Holds ∅ := by
    intro address
    simp [initial]
  obtain ⟨memory, hstore, hholds⟩ :=
    storeAll_of_in_memory (fun _ hpair => h.of_mem_pairs hpair) initial hclear
  have himage : image.pairs.foldl (fun image pair => image.insert pair.1 pair.2) ∅ = image :=
    Image.ofPairs_pairs image
  rw [himage] at hholds
  refine ⟨_, by rw [reload, reset_eq_initial, hstore], ?_⟩
  exact
    { memory := hholds
      counter_of_empty := by
        rintro rfl
        exact entryPoint_empty
      counter_mem := fun hne => (toInt_entryPoint h hne).1
      counter_le := by
        intro address haddress
        have hne : image ≠ ∅ := by
          rintro rfl
          exact Std.ExtTreeMap.not_mem_empty haddress
        exact (toInt_entryPoint h hne).2 address haddress
      registers := fun slot => Vector.getElem_replicate slot.isLt
      index := fun slot => Vector.getElem_replicate slot.isLt
      instruction := rfl
      halted := rfl }

end Machine

end WordMachine
