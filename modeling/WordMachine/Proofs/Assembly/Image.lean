import WordMachine.Assembly.Diagnostic
import WordMachine.Assembly.Image

/-!
# Images and their pairs

An image is the image of its own pairs, which stand in ascending order of their addresses.
-/

namespace WordMachine.Image

/-- Every address of an image is an address of the memory. -/
def InMemory (image : Image) : Prop := ∀ address ∈ image, 0 ≤ address ∧ address ≤ maxAddress

theorem mem_pairs_iff {image : Image} {address : Int} {word : Word} :
    (address, word) ∈ image.pairs ↔ image[address]? = some word :=
  Std.ExtTreeMap.mem_toList_iff_getElem?_eq_some

theorem mem_of_mem_pairs {image : Image} {pair : Int × Word} (h : pair ∈ image.pairs) :
    pair.1 ∈ image := by
  have hget := mem_pairs_iff.mp h
  exact Std.ExtTreeMap.mem_iff_isSome_getElem?.mpr (by simp [hget])

theorem exists_pair_of_mem {image : Image} {address : Int} (h : address ∈ image) :
    ∃ word, (address, word) ∈ image.pairs := by
  obtain ⟨word, hword⟩ := Option.isSome_iff_exists.mp
    (Std.ExtTreeMap.mem_iff_isSome_getElem?.mp h)
  exact ⟨word, mem_pairs_iff.mpr hword⟩

theorem InMemory.of_mem_pairs {image : Image} (h : image.InMemory) {pair : Int × Word}
    (hpair : pair ∈ image.pairs) : 0 ≤ pair.1 ∧ pair.1 ≤ maxAddress :=
  h pair.1 (mem_of_mem_pairs hpair)

/-- Putting the pairs of an image together again gives the same image. -/
theorem ofPairs_pairs (image : Image) : ofPairs image.pairs = image := by
  have hlist : ofPairs image.pairs = Std.ExtTreeMap.ofList image.toList compare := by
    rw [Std.ExtTreeMap.ofList_eq_foldl]
    rfl
  rw [hlist]
  apply Std.ExtTreeMap.ext_getElem?
  intro address
  cases h : image[address]? with
  | some word =>
      apply Std.ExtTreeMap.getElem?_ofList_of_mem Std.ReflCmp.compare_self
        Std.ExtTreeMap.distinct_keys_toList
      exact mem_pairs_iff.mpr h
  | none =>
      apply Std.ExtTreeMap.getElem?_ofList_of_contains_eq_false
      rw [Std.ExtTreeMap.map_fst_toList_eq_keys, Std.ExtTreeMap.contains_keys,
        Std.ExtTreeMap.contains_eq_isSome_getElem?, h, Option.isSome_none]

theorem pairwise_pairs (image : Image) : image.pairs.Pairwise fun p q => p.1 < q.1 := by
  have hordered : image.pairs.Pairwise fun p q => compare p.1 q.1 = .lt :=
    Std.ExtTreeMap.ordered_keys_toList
  exact hordered.imp Int.compare_eq_lt.mp

theorem addresses_eq (image : Image) : image.addresses = image.pairs.map Prod.fst :=
  Std.ExtTreeMap.map_fst_toList_eq_keys.symm

/-- The pairs that stand before an address are those of the lower addresses. -/
theorem countP_lt_of_pairs_eq {image : Image} {before after : List (Int × Word)}
    {pair : Int × Word} (h : image.pairs = before ++ pair :: after) :
    image.addresses.countP (· < pair.1) = before.length := by
  have hordered := image.pairwise_pairs
  rw [h, List.pairwise_append, List.pairwise_cons] at hordered
  obtain ⟨-, ⟨hafter, -⟩, hbefore⟩ := hordered
  have hlower : (before.map Prod.fst).countP (· < pair.1) = before.length := by
    rw [List.countP_map, List.countP_eq_length]
    intro p hp
    exact decide_eq_true (hbefore p hp pair List.mem_cons_self)
  have hhigher : ((pair :: after).map Prod.fst).countP (· < pair.1) = 0 := by
    rw [List.countP_map, List.countP_eq_zero]
    intro p hp
    rcases List.mem_cons.mp hp with rfl | hp
    · simp
    · have hlt := hafter p hp
      simp only [Function.comp_apply, decide_eq_true_eq]
      omega
  rw [addresses_eq, h, List.map_append, List.countP_append, hlower, hhigher, Nat.add_zero]

/-- The lowest of the addresses of an image that are not addresses of the memory. -/
structure FirstOutside (image : Image) (address : Int) : Prop where
  mem : address ∈ image
  outside : ¬ (0 ≤ address ∧ address ≤ maxAddress)
  isLeast : ∀ other ∈ image, ¬ (0 ≤ other ∧ other ≤ maxAddress) → address ≤ other

/-- Up to the first address outside the memory, all addresses are in memory. -/
theorem exists_firstOutside {image : Image} (h : ¬ image.InMemory) :
    ∃ before pair after, image.pairs = before ++ pair :: after ∧
      (∀ p ∈ before, 0 ≤ p.1 ∧ p.1 ≤ maxAddress) ∧ image.FirstOutside pair.1 := by
  let outside := fun pair : Int × Word => decide ¬ (0 ≤ pair.1 ∧ pair.1 ≤ maxAddress)
  obtain ⟨found, hfound⟩ : ∃ found, image.pairs.find? outside = some found := by
    rw [← Option.isSome_iff_exists, List.find?_isSome]
    obtain ⟨address, hmem, hout⟩ : ∃ address ∈ image, ¬ (0 ≤ address ∧ address ≤ maxAddress) := by
      simpa [InMemory] using h
    obtain ⟨word, hpair⟩ := exists_pair_of_mem hmem
    exact ⟨(address, word), hpair, decide_eq_true hout⟩
  obtain ⟨hout, before, after, hpairs, hbefore⟩ := List.find?_eq_some_iff_append.mp hfound
  have hmem : found ∈ image.pairs := by simp [hpairs]
  have hinside : ∀ p ∈ before, 0 ≤ p.1 ∧ p.1 ≤ maxAddress := by
    intro p hp
    simpa [outside] using hbefore p hp
  refine ⟨before, found, after, hpairs, hinside, mem_of_mem_pairs hmem, of_decide_eq_true hout, ?_⟩
  intro other hother hout'
  obtain ⟨word, hpair⟩ := exists_pair_of_mem hother
  rw [hpairs, List.mem_append, List.mem_cons] at hpair
  rcases hpair with hpair | rfl | hpair
  · exact absurd (hinside _ hpair) hout'
  · exact Int.le_refl other
  · have hordered := image.pairwise_pairs
    rw [hpairs, List.pairwise_append, List.pairwise_cons] at hordered
    exact Int.le_of_lt (hordered.2.1.1 _ hpair)

/-- The first pair has the lowest address. -/
theorem le_of_pairs_eq_cons {image : Image} {address other : Int} {word : Word}
    {rest : List (Int × Word)} (h : image.pairs = (address, word) :: rest)
    (hother : other ∈ image) : address ≤ other := by
  have hordered := image.pairwise_pairs
  rw [h] at hordered
  obtain ⟨found, hpair⟩ := exists_pair_of_mem hother
  rw [h, List.mem_cons] at hpair
  rcases hpair with hpair | hpair
  · cases hpair
    exact Int.le_refl address
  · exact Int.le_of_lt ((List.pairwise_cons.mp hordered).1 _ hpair)

end WordMachine.Image
