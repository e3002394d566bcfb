import WordMachine.Proofs.Assembly.Bounds

/-!
# What a listing says about the image

A listing has one row for each line, and the image can be read off it: an address holds the word of
the last row that shows a word there. No other row contributes to the image. All of this holds
against any label table and under either rule for statements that stand after a label.
-/

namespace WordMachine

namespace Listing

/-- The last row that shows a word at an address shows this word. -/
def ShowsLast (listing : Listing) (address : Int) (word : Word) : Prop :=
  ∃ earlier row later, listing = earlier ++ row :: later ∧ row.content = .word address word ∧
    ∀ r ∈ later, ∀ other, r.content ≠ .word address other

variable {listing : Listing} {address : Int} {word : Word}

theorem not_showsLast_nil : ¬ ShowsLast [] address word := by
  rintro ⟨earlier, row, later, hsplit, -, -⟩
  simp at hsplit

/-- A new row at the end is the last one at the address of its word, and no other address sees
it. -/
theorem showsLast_append_singleton (row : Row) :
    ShowsLast (listing ++ [row]) address word ↔
      row.content = .word address word ∨
        (∀ other, row.content ≠ .word address other) ∧ listing.ShowsLast address word := by
  constructor
  · rintro ⟨earlier, shown, later, hsplit, hshown, hlater⟩
    rcases List.eq_nil_or_concat later with rfl | ⟨rest, last, rfl⟩
    · obtain ⟨-, hrow⟩ := List.append_inj' hsplit rfl
      cases hrow
      exact Or.inl hshown
    · rw [List.concat_eq_append] at hsplit hlater
      rw [← List.cons_append, ← List.append_assoc] at hsplit
      obtain ⟨hlisting, hrow⟩ := List.append_inj' hsplit rfl
      cases hrow
      refine Or.inr ⟨hlater row (by simp), earlier, shown, rest, hlisting, hshown, ?_⟩
      intro r hr
      exact hlater r (List.mem_append_left _ hr)
  · rintro (hrow | ⟨hrow, earlier, shown, later, rfl, hshown, hlater⟩)
    · exact ⟨listing, row, [], rfl, hrow, by simp⟩
    · refine ⟨earlier, shown, later ++ [row], by simp, hshown, ?_⟩
      intro r hr
      rcases List.mem_append.mp hr with hr | hr
      · exact hlater r hr
      · rw [List.mem_singleton.mp hr]
        exact hrow

/-- A new row at the front is the last one at the address of its word if no other row shows a word
there. -/
theorem showsLast_cons (row : Row) :
    ShowsLast (row :: listing) address word ↔
      listing.ShowsLast address word ∨
        row.content = .word address word ∧
          ∀ r ∈ listing, ∀ other, r.content ≠ .word address other := by
  constructor
  · rintro ⟨earlier, shown, later, hsplit, hshown, hlater⟩
    cases earlier with
    | nil =>
        cases hsplit
        exact Or.inr ⟨hshown, hlater⟩
    | cons first earlier =>
        cases hsplit
        exact Or.inl ⟨earlier, shown, later, rfl, hshown, hlater⟩
  · rintro (⟨earlier, shown, later, rfl, hshown, hlater⟩ | ⟨hshown, hlater⟩)
    · exact ⟨row :: earlier, shown, later, rfl, hshown, hlater⟩
    · exact ⟨[], row, listing, rfl, hshown, hlater⟩

end Listing

/-- Placing the word of a row changes what the image holds at the address of that word only. -/
theorem Content.getElem?_place_eq_some_iff (image : Image) {address : Int} {word : Word}
    (content : Content) :
    (content.place image)[address]? = some word ↔
      content = .word address word ∨
        (∀ other, content ≠ .word address other) ∧ image[address]? = some word := by
  cases content with
  | blank => simp [place]
  | location => simp [place]
  | label => simp [place]
  | word placed w =>
      simp only [place, Std.ExtTreeMap.getElem?_insert]
      by_cases hplaced : placed = address
      · subst hplaced
        simp
      · have hcompare : compare placed address ≠ .eq := fun heq =>
          hplaced (Std.LawfulEqCmp.eq_of_compare heq)
        simp [hplaced, hcompare]
  | rejected placed => simp [place]

namespace Emission

variable (rule : LabelRule) (labels : Labels)

@[simp] theorem row_source (e : Emission) (raw : Text) : (e.row rule labels raw).source = raw := by
  unfold row
  split <;> rfl

theorem map_source_listing_run (lines : List Text) :
    (run rule labels lines).listing.map Row.source = lines := by
  induction lines using List.reverseRecOn with
  | nil => rfl
  | append_singleton lines raw ih =>
      rw [listing_append_singleton, List.map_append, ih, List.map_singleton, row_source]

/-- The image holds a word exactly where the listing shows it last. -/
theorem getElem?_image_run (lines : List Text) (address : Int) (word : Word) :
    (run rule labels lines).image[address]? = some word ↔
      (run rule labels lines).listing.ShowsLast address word := by
  induction lines using List.reverseRecOn with
  | nil =>
      constructor
      · intro h
        have hempty : (∅ : Image)[address]? = none := Std.ExtTreeMap.getElem?_empty
        exact absurd (hempty.symm.trans h) (by simp)
      · intro h
        exact absurd h Listing.not_showsLast_nil
  | append_singleton lines raw ih =>
      rw [listing_append_singleton, Listing.showsLast_append_singleton, run_append_singleton,
        step_image, Content.getElem?_place_eq_some_iff, ih]

end Emission

theorem Demand.counter_of_content_word {d : Demand} {counter address : Int} {word : Word}
    (h : d.content counter = .word address word) : address = counter ∧ counter ≤ maxAddress := by
  cases d with
  | emit w =>
      simp only [content] at h
      split at h
      · cases h
      · cases h
        omega
  | nothing => cases h
  | moveTo target => cases h
  | badMove cause => cases h
  | reject cause => cases h

namespace Emission

variable {rule : LabelRule} {labels : Labels}

/-- A row that shows a word shows it at an address of the memory. -/
theorem row_word_in_memory {e : Emission} (h : e.InBounds) {raw : Text} {address : Int}
    {word : Word} (hrow : (e.row rule labels raw).content = .word address word) :
    0 ≤ address ∧ address ≤ maxAddress := by
  cases hparse : Statement.parse raw with
  | none => simp [row, hparse] at hrow
  | some statement =>
      simp only [row, hparse] at hrow
      obtain ⟨rfl, hmax⟩ := Demand.counter_of_content_word hrow
      exact ⟨h.counter, hmax⟩

theorem word_in_memory_of_mem_listing {lines : List Text} {row : Row}
    (hmem : row ∈ (run rule labels lines).listing) {address : Int} {word : Word}
    (hrow : row.content = .word address word) : 0 ≤ address ∧ address ≤ maxAddress := by
  obtain ⟨i, raw, -, rfl⟩ := exists_line_of_mem_listing hmem
  exact row_word_in_memory (run_inBounds rule labels (lines.take i)) hrow

end Emission

/-- The second reading makes one row for each line, with the line as its source. A row that shows a
word shows it at an address of the memory, and the image holds a word at an address exactly if the
last row that shows a word there shows this one. -/
theorem listing_determines_image (rule : LabelRule) (labels : Labels) (lines : List Text) :
    (Emission.run rule labels lines).listing.map Row.source = lines ∧
    (∀ row ∈ (Emission.run rule labels lines).listing, ∀ address word,
      row.content = .word address word → 0 ≤ address ∧ address ≤ 65535) ∧
    ∀ address word, (Emission.run rule labels lines).image[address]? = some word ↔
      (Emission.run rule labels lines).listing.ShowsLast address word := by
  refine ⟨Emission.map_source_listing_run rule labels lines, ?_, ?_⟩
  · intro row hmem address word hrow
    exact Emission.word_in_memory_of_mem_listing hmem hrow
  · intro address word
    exact Emission.getElem?_image_run rule labels lines address word

/-- Two words at one address, with a rejected statement and a label at it between them. -/
def overlapping : List Text :=
  ["LOC 5", "Data 1", "LOC 5", "Data", "LOC 5", "last:", "Data 2", "LOC 5 5"].map Text.ascii

/-- Both words have a row in memory, and only the second one is in the image. -/
theorem overlapping_image :
    (∃ row ∈ (Emission.run .ordinary .empty overlapping).listing,
      row.content = .word 5 1 ∧ (0 : Int) ≤ 5 ∧ (5 : Int) ≤ 65535) ∧
    (Emission.run .ordinary .empty overlapping).listing.ShowsLast 5 2 ∧
    ¬ (Emission.run .ordinary .empty overlapping).listing.ShowsLast 5 1 := by
  obtain ⟨-, hmemory, himage⟩ := listing_determines_image .ordinary .empty overlapping
  have hheld : (Emission.run .ordinary .empty overlapping).image[(5 : Int)]? = some 2 := by
    decide +kernel
  refine ⟨?_, (himage 5 2).mp hheld, ?_⟩
  · have hrow : (⟨Text.ascii "Data 1", .word 5 1, none⟩ : Row) ∈
        (Emission.run .ordinary .empty overlapping).listing := by decide +kernel
    exact ⟨_, hrow, rfl, hmemory _ hrow 5 1 rfl⟩
  · intro hfirst
    have hother := (himage 5 1).mpr hfirst
    rw [hheld] at hother
    exact absurd hother (by decide)

end WordMachine
