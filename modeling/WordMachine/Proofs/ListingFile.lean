import Mathlib.Data.List.Sort
import WordMachine.Proofs.Assembly.Rendering
import WordMachine.Proofs.LoadFile

/-!
# The load file inside the listing file

The lines of a load file can be picked out of the listing as text: they are the starts of the lines
that begin with two octal numbers of six digits, with the last line for each address kept and the
rest put in order. Only rows that show a word give such lines, whatever the source and the remarks
contain.
-/

namespace WordMachine

/-! ## Octal numbers of six digits -/

namespace Numeral

/-- Whether a byte is an octal digit. -/
def isOctalDigit (b : UInt8) : Bool := 0x30 ≤ b && b ≤ 0x37

/-- Whether a text starts with six octal digits. -/
def startsWithSixDigits (t : Text) : Bool := 6 ≤ t.length && (t.take 6).all isOctalDigit

/-- The number that octal digits stand for. -/
def octalValue (t : Text) : Nat := t.foldl (fun n b => n * 8 + (b.toNat - 0x30)) 0

theorem isOctalDigit_of_mem_padLeft {width n : Nat} {b : UInt8}
    (h : b ∈ Text.padLeft width zeroByte (digits 8 n)) : isOctalDigit b := by
  have hall : ∀ d : Fin 8, isOctalDigit (digitByte d) := by decide
  rcases List.mem_append.mp h with h | h
  · rw [List.eq_of_mem_replicate h]
    decide
  · obtain ⟨d, hd, rfl⟩ := exists_digit_of_mem_digits (by decide) h
    exact hall ⟨d, hd⟩

theorem isDecimalDigit_of_isOctalDigit {b : UInt8} (h : isOctalDigit b) : isDecimalDigit b := by
  simp only [isOctalDigit, isDecimalDigit, Bool.and_eq_true, decide_eq_true_eq,
    UInt8.le_iff_toNat_le] at h ⊢
  exact ⟨h.1, Nat.le_trans h.2 (by decide)⟩

theorem startsWithSixDigits_append {t : Text} (hlength : t.length = 6)
    (ht : ∀ b ∈ t, isOctalDigit b) (rest : Text) : startsWithSixDigits (t ++ rest) = true := by
  simp only [startsWithSixDigits, List.length_append, Bool.and_eq_true, decide_eq_true_eq,
    List.all_eq_true]
  refine ⟨by omega, ?_⟩
  rw [← hlength, List.take_left]
  exact ht

theorem startsWithSixDigits_cons {b : UInt8} (h : isOctalDigit b = false) (rest : Text) :
    startsWithSixDigits (b :: rest) = false := by
  simp [startsWithSixDigits, h]

theorem octalValue_append_digitByte (t : Text) {d : Nat} (h : d < 8) :
    octalValue (t ++ [digitByte d]) = octalValue t * 8 + d := by
  have hall : ∀ d : Fin 8, (digitByte d).toNat - 0x30 = d := by decide
  simp only [octalValue, List.foldl_append, List.foldl_cons, List.foldl_nil, hall ⟨d, h⟩]

theorem octalValue_digitsWithin {fuel n : Nat} (h : n < fuel) :
    octalValue (digitsWithin 8 fuel n) = n := by
  induction fuel generalizing n with
  | zero => omega
  | succ fuel ih =>
      rw [digitsWithin]
      split
      · next hlt => simpa [octalValue] using octalValue_append_digitByte [] hlt
      · rw [octalValue_append_digitByte _ (Nat.mod_lt n (by decide)), ih (by omega)]
        omega

theorem octalValue_replicate_zero (count : Nat) (t : Text) :
    octalValue (List.replicate count zeroByte ++ t) = octalValue t := by
  induction count with
  | zero => rfl
  | succ count ih => exact ih

end Numeral

namespace Word

theorem isOctalDigit_of_mem_octal {w : Word} {b : UInt8} (h : b ∈ w.octal) :
    Numeral.isOctalDigit b := by
  rw [octal_eq] at h
  exact Numeral.isOctalDigit_of_mem_padLeft h

theorem octalValue_octal (w : Word) : Numeral.octalValue w.octal = w.toNat := by
  rw [octal_eq, Text.padLeft, Numeral.octalValue_replicate_zero, Numeral.digits]
  exact Numeral.octalValue_digitsWithin (Nat.lt_succ_self w.toNat)

end Word

/-! ## The lines that show a word -/

namespace ListingFile

open Numeral

/-- Whether a line starts with six octal digits, a space and six octal digits. -/
def isWordLine (t : Text) : Bool :=
  startsWithSixDigits t && t[6]? == some Text.space && startsWithSixDigits (t.drop 7)

/-- The address at the start of such a line. -/
def lineAddress (line : Text) : Nat := octalValue (line.take 6)

/-- Keeps the last of the lines with one address. -/
def lastOfEach : List Text → List Text
  | [] => []
  | line :: rest =>
    if rest.any (lineAddress · == lineAddress line) then lastOfEach rest
    else line :: lastOfEach rest

/-- The address and the word of each line that starts with them, the last one for each address, by
ascending address. -/
def wordLines (lines : List Text) : List Text :=
  (lastOfEach ((lines.filter isWordLine).map (List.take 13))).mergeSort
    fun a b => lineAddress a ≤ lineAddress b

theorem isWordLine_octal (address word : Word) (rest : Text) :
    isWordLine (address.octal ++ [Text.space] ++ word.octal ++ rest) = true := by
  have hline : address.octal ++ [Text.space] ++ word.octal ++ rest =
      address.octal ++ (Text.space :: (word.octal ++ rest)) := by simp
  have hspace : (address.octal ++ (Text.space :: (word.octal ++ rest)))[6]? = some Text.space := by
    rw [List.getElem?_append_right (by rw [Word.length_octal]), Word.length_octal]
    rfl
  have hdrop : (address.octal ++ (Text.space :: (word.octal ++ rest))).drop 7 =
      word.octal ++ rest := by
    rw [List.drop_append, List.drop_of_length_le (by rw [Word.length_octal]; decide),
      Word.length_octal]
    rfl
  have hdigits (w : Word) (rest : Text) : startsWithSixDigits (w.octal ++ rest) = true :=
    startsWithSixDigits_append w.length_octal (fun _ => Word.isOctalDigit_of_mem_octal) rest
  rw [hline, isWordLine, hspace, hdrop, hdigits, hdigits]
  rfl

theorem isWordLine_cons {b : UInt8} (h : isOctalDigit b = false) (rest : Text) :
    isWordLine (b :: rest) = false := by
  rw [isWordLine, startsWithSixDigits_cons h, Bool.false_and, Bool.false_and]

/-- Blanks after an octal number leave no room for a second one. A number that is longer than six
digits has no space after the sixth. -/
theorem isWordLine_number_blanks (n : Nat) (rest : Text) :
    isWordLine (Text.padLeft 6 zeroByte (digits 8 n) ++ Text.space :: Text.space :: rest) =
      false := by
  generalize hnumber : Text.padLeft 6 zeroByte (digits 8 n) = number
  have hlength : 6 ≤ number.length := by
    rw [← hnumber, Text.padLeft, List.length_append, List.length_replicate]
    omega
  rcases Nat.eq_or_lt_of_le hlength with hsix | hmore
  · have hdrop : (number ++ Text.space :: Text.space :: rest).drop 7 = Text.space :: rest := by
      rw [List.drop_append, List.drop_of_length_le (by omega), ← hsix]
      rfl
    rw [isWordLine, hdrop, startsWithSixDigits_cons (by decide), Bool.and_false]
  · have hdigit : isOctalDigit number[6] := by
      apply isOctalDigit_of_mem_padLeft
      rw [hnumber]
      exact List.getElem_mem hmore
    have hspace : ¬ some number[6] = some Text.space := by
      intro h
      rw [Option.some.inj h] at hdigit
      exact absurd hdigit (by decide)
    have hget : (number ++ Text.space :: Text.space :: rest)[6]? = some number[6] := by
      rw [List.getElem?_append_left hmore, List.getElem?_eq_getElem hmore]
    rw [isWordLine, hget, beq_eq_false_iff_ne.mpr hspace, Bool.and_false, Bool.false_and]

/-- A line without a statement is a blank or a comment from its first byte on. -/
theorem isWordLine_of_parse_none {raw : Text} (h : Statement.parse raw = none) :
    isWordLine raw = false := by
  cases raw with
  | nil => rfl
  | cons b rest =>
      apply isWordLine_cons
      cases hdigit : isOctalDigit b with
      | false => rfl
      | true =>
          have hplain := (Text.isPlain_of_isDecimalDigit (isDecimalDigit_of_isOctalDigit hdigit)).1
          have hcomment : b ≠ Text.semicolon := by
            rintro rfl
            exact absurd hdigit (by decide)
          exact absurd h (Statement.parse_cons_ne_none rest hplain hcomment)

end ListingFile

/-! ## Rows -/

namespace Row

/-- What every row of a listing satisfies: it is blank only for a line without a statement, and a
word that it shows lies in memory. -/
structure WellFormed (row : Row) : Prop where
  blank : row.content = .blank → Statement.parse row.source = none
  word : ∀ address word, row.content = .word address word → 0 ≤ address ∧ address ≤ maxAddress

/-- The line of the load file for the word that a row shows. -/
def shownEntry (row : Row) : Option Text :=
  match row.content with
  | .word address word => some (LoadFile.entry (address, word))
  | _ => none

theorem shownEntry_of_word {row : Row} {address : Int} {word : Word}
    (h : row.content = .word address word) :
    row.shownEntry = some (LoadFile.entry (address, word)) := by
  simp [shownEntry, h]

theorem shownEntry_eq_some_iff {row : Row} {line : Text} :
    row.shownEntry = some line ↔
      ∃ address word, row.content = .word address word ∧ LoadFile.entry (address, word) = line := by
  constructor
  · intro h
    unfold shownEntry at h
    split at h
    · next address word hcontent => exact ⟨address, word, hcontent, Option.some.inj h⟩
    · cases h
  · rintro ⟨address, word, hcontent, rfl⟩
    exact shownEntry_of_word hcontent

theorem shownEntry_eq_none {row : Row} (h : ∀ address word, row.content ≠ .word address word) :
    row.shownEntry = none := by
  rw [Option.eq_none_iff_forall_ne_some]
  intro line hline
  obtain ⟨address, word, hcontent, -⟩ := shownEntry_eq_some_iff.mp hline
  exact h address word hcontent

end Row

/-- Every row that the second reading makes is well-formed. -/
theorem Emission.wellFormed_of_mem_listing {rule : LabelRule} {labels : Labels} {lines : List Text}
    {row : Row} (h : row ∈ (run rule labels lines).listing) : row.WellFormed where
  blank := by
    obtain ⟨i, raw, -, rfl⟩ := exists_line_of_mem_listing h
    intro hblank
    rw [row_source]
    cases hparse : Statement.parse raw with
    | none => rfl
    | some statement =>
        simp only [Emission.row, hparse] at hblank
        cases hdemand : Demand.ofStatement rule labels statement with
        | emit word =>
            simp only [hdemand, Demand.content] at hblank
            split at hblank <;> cases hblank
        | _ => simp [hdemand, Demand.content] at hblank
  word _ _ hcontent := word_in_memory_of_mem_listing h hcontent

namespace LoadFile

variable {address : Int} {word : Word}

theorem length_entry (h : 0 ≤ address ∧ address ≤ maxAddress) :
    (entry (address, word)).length = 13 := by
  rw [entry_eq h, List.length_append, List.length_append, Word.length_octal, Word.length_octal]
  rfl

theorem lineAddress_entry (h : 0 ≤ address ∧ address ≤ maxAddress) :
    ListingFile.lineAddress (entry (address, word)) = address.toNat := by
  have hvalue : (Word.ofInt address).toInt = address := Word.toInt_ofInt h.1 h.2
  rw [ListingFile.lineAddress, entry_eq h, List.append_assoc,
    List.take_left' (Word.length_octal _), Word.octalValue_octal, ← hvalue, Word.ofInt_toInt]
  rfl

end LoadFile

namespace ListingFile

open Numeral

theorem render_of_word {row : Row} {address : Int} {word : Word}
    (h : row.content = .word address word) :
    row.render = LoadFile.entry (address, word) ++ ([Text.space] ++ row.source ++ row.trailer) := by
  simp [Row.render_eq, h, Content.columns, LoadFile.entry]

/-- A row has the shape of a word line exactly if it shows a word. -/
theorem isWordLine_render_iff {row : Row} (h : row.WellFormed) :
    isWordLine row.render = true ↔ ∃ address word, row.content = .word address word := by
  have hblanks (count : Nat) (rest : Text) :
      isWordLine (List.replicate (count + 1) Text.space ++ rest) = false :=
    isWordLine_cons (by decide) _
  cases hcontent : row.content with
  | word address word =>
      have hword : isWordLine row.render = true := by
        rw [render_of_word hcontent, LoadFile.entry_eq (h.word address word hcontent)]
        exact isWordLine_octal _ _ _
      simp [hword]
  | blank =>
      have hrender : row.render = row.source := by
        simp [Row.render, Content.render, hcontent]
      rw [hrender, isWordLine_of_parse_none (h.blank hcontent)]
      simp
  | location =>
      rw [Row.render_eq, hcontent, Content.columns, List.append_assoc, hblanks]
      simp
  | label =>
      rw [Row.render_eq, hcontent, Content.columns, List.append_assoc, hblanks]
      simp
  | rejected address =>
      have hrejected : isWordLine row.render = false := by
        rw [Row.render_eq, hcontent, Content.columns, padded]
        split
        · exact isWordLine_cons (by decide) _
        · have hline := isWordLine_number_blanks address.natAbs
            (List.replicate 6 Text.space ++ row.source ++ row.trailer)
          simpa [List.replicate_succ] using hline
      simp [hrejected]

/-- The word lines of a listing, cut after the word, are the lines of the load file for its words,
in the order of the rows. -/
theorem cut_wordLines {listing : Listing} (h : ∀ row ∈ listing, row.WellFormed) :
    ((listing.map Row.render).filter isWordLine).map (List.take 13) =
      listing.filterMap Row.shownEntry := by
  induction listing with
  | nil => rfl
  | cons row rest ih =>
      have hrow := h row List.mem_cons_self
      have hrest := ih fun r hr => h r (List.mem_cons_of_mem row hr)
      rw [List.map_cons]
      by_cases hword : ∃ address word, row.content = .word address word
      · rw [List.filter_cons_of_pos ((isWordLine_render_iff hrow).mpr hword), List.map_cons, hrest]
        obtain ⟨address, word, hcontent⟩ := hword
        rw [List.filterMap_cons_some (Row.shownEntry_of_word hcontent), render_of_word hcontent,
          List.take_left' (LoadFile.length_entry (hrow.word address word hcontent))]
      · have hskip : ¬ isWordLine row.render = true := fun hline =>
          hword ((isWordLine_render_iff hrow).mp hline)
        rw [List.filter_cons_of_neg hskip, hrest, List.filterMap_cons_none]
        apply Row.shownEntry_eq_none
        intro address word hcontent
        exact hword ⟨address, word, hcontent⟩

/-! ## The last line of each address -/

theorem mem_lastOfEach_cons {line first : Text} {rest : List Text} :
    line ∈ lastOfEach (first :: rest) ↔
      line ∈ lastOfEach rest ∨
        line = first ∧ ∀ later ∈ rest, lineAddress later ≠ lineAddress first := by
  rw [lastOfEach]
  split
  · next hlater =>
      obtain ⟨later, hmem, heq⟩ := List.any_eq_true.mp hlater
      constructor
      · exact Or.inl
      · rintro (hline | ⟨-, hnone⟩)
        · exact hline
        · exact absurd (beq_iff_eq.mp heq) (hnone later hmem)
  · next hlater =>
      have hnone : ∀ later ∈ rest, lineAddress later ≠ lineAddress first := by
        intro later hmem heq
        exact hlater (List.any_eq_true.mpr ⟨later, hmem, beq_iff_eq.mpr heq⟩)
      rw [List.mem_cons]
      constructor
      · rintro (rfl | hline)
        · exact Or.inr ⟨rfl, hnone⟩
        · exact Or.inl hline
      · rintro (hline | ⟨rfl, -⟩)
        · exact Or.inr hline
        · exact Or.inl rfl

theorem lastOfEach_subset (lines : List Text) : lastOfEach lines ⊆ lines := by
  induction lines with
  | nil => exact List.Subset.refl []
  | cons first rest ih =>
      intro line hline
      rcases mem_lastOfEach_cons.mp hline with hline | ⟨rfl, -⟩
      · exact List.mem_cons_of_mem first (ih hline)
      · exact List.mem_cons_self

theorem pairwise_lastOfEach (lines : List Text) :
    (lastOfEach lines).Pairwise fun a b => lineAddress a ≠ lineAddress b := by
  induction lines with
  | nil => exact List.Pairwise.nil
  | cons first rest ih =>
      rw [lastOfEach]
      split
      · exact ih
      · next hlater =>
          refine List.pairwise_cons.mpr ⟨?_, ih⟩
          intro later hmem heq
          apply hlater
          exact List.any_eq_true.mpr ⟨later, lastOfEach_subset rest hmem, beq_iff_eq.mpr heq.symm⟩

/-- The lines with an address come from the rows that show a word there. -/
theorem forall_lineAddress_ne_iff {listing : Listing} (h : ∀ row ∈ listing, row.WellFormed)
    {address : Int} (hmemory : 0 ≤ address ∧ address ≤ maxAddress) :
    (∀ line ∈ listing.filterMap Row.shownEntry, lineAddress line ≠ address.toNat) ↔
      ∀ row ∈ listing, ∀ word, row.content ≠ .word address word := by
  constructor
  · intro hne row hrow word hword
    apply hne _ (List.mem_filterMap.mpr ⟨row, hrow, Row.shownEntry_of_word hword⟩)
    exact LoadFile.lineAddress_entry hmemory
  · intro hne line hline heq
    obtain ⟨row, hrow, hentry⟩ := List.mem_filterMap.mp hline
    obtain ⟨shown, word, hword, rfl⟩ := Row.shownEntry_eq_some_iff.mp hentry
    have hshown := (h row hrow).word shown word hword
    rw [LoadFile.lineAddress_entry hshown] at heq
    have hsame : shown = address := by omega
    exact hne row hrow word (hsame ▸ hword)

/-- Of the words that a listing shows, those shown last are left. -/
theorem mem_lastOfEach_entries {listing : Listing} (h : ∀ row ∈ listing, row.WellFormed)
    (line : Text) :
    line ∈ lastOfEach (listing.filterMap Row.shownEntry) ↔
      ∃ address word, listing.ShowsLast address word ∧ LoadFile.entry (address, word) = line := by
  induction listing with
  | nil => simp [lastOfEach, Listing.not_showsLast_nil]
  | cons row rest ih =>
      have hrow := h row List.mem_cons_self
      have hrest : ∀ r ∈ rest, r.WellFormed := fun r hr => h r (List.mem_cons_of_mem row hr)
      by_cases hword : ∃ address word, row.content = .word address word
      · obtain ⟨address, word, hcontent⟩ := hword
        have hmemory := hrow.word address word hcontent
        rw [List.filterMap_cons_some (Row.shownEntry_of_word hcontent), mem_lastOfEach_cons,
          ih hrest, LoadFile.lineAddress_entry hmemory, forall_lineAddress_ne_iff hrest hmemory]
        constructor
        · rintro (⟨a, w, hlast, rfl⟩ | ⟨rfl, hnone⟩)
          · exact ⟨a, w, (Listing.showsLast_cons row).mpr (Or.inl hlast), rfl⟩
          · exact ⟨address, word, (Listing.showsLast_cons row).mpr (Or.inr ⟨hcontent, hnone⟩), rfl⟩
        · rintro ⟨a, w, hlast, rfl⟩
          rcases (Listing.showsLast_cons row).mp hlast with hlast | ⟨hshown, hnone⟩
          · exact Or.inl ⟨a, w, hlast, rfl⟩
          · rw [hcontent] at hshown
            cases hshown
            exact Or.inr ⟨rfl, hnone⟩
      · have hnot (a : Int) (w : Word) : row.content ≠ .word a w := fun hc => hword ⟨a, w, hc⟩
        rw [List.filterMap_cons_none (Row.shownEntry_eq_none hnot), ih hrest]
        simp only [Listing.showsLast_cons, hnot, false_and, or_false]

/-! ## Order -/

theorem pairwise_wordLines (lines : List Text) :
    (wordLines lines).Pairwise fun a b => lineAddress a < lineAddress b := by
  have htrans (a b c : Text) (hab : decide (lineAddress a ≤ lineAddress b) = true)
      (hbc : decide (lineAddress b ≤ lineAddress c) = true) :
      decide (lineAddress a ≤ lineAddress c) = true := by
    rw [decide_eq_true_eq] at hab hbc ⊢
    exact Nat.le_trans hab hbc
  have htotal (a b : Text) :
      (decide (lineAddress a ≤ lineAddress b) || decide (lineAddress b ≤ lineAddress a)) =
        true := by
    rw [Bool.or_eq_true, decide_eq_true_eq, decide_eq_true_eq]
    exact Nat.le_total _ _
  have hsorted : (wordLines lines).Pairwise fun a b => lineAddress a ≤ lineAddress b :=
    (List.pairwise_mergeSort htrans htotal _).imp of_decide_eq_true
  have hdistinct : (wordLines lines).Pairwise fun a b => lineAddress a ≠ lineAddress b :=
    ((List.mergeSort_perm _ _).pairwise_iff Ne.symm).mpr (pairwise_lastOfEach _)
  exact hsorted.imp₂ (fun _ _ hle hne => Nat.lt_of_le_of_ne hle hne) hdistinct

theorem pairwise_entries {image : Image} (h : image.InMemory) :
    (image.pairs.map LoadFile.entry).Pairwise fun a b => lineAddress a < lineAddress b := by
  have hordered : image.pairs.Pairwise fun p q => compare p.1 q.1 = .lt :=
    Std.ExtTreeMap.ordered_keys_toList
  rw [List.pairwise_map]
  apply hordered.imp_of_mem
  intro p q hp hq hlt
  have hp' := h.of_mem_pairs hp
  have hq' := h.of_mem_pairs hq
  rw [Int.compare_eq_lt] at hlt
  rw [LoadFile.lineAddress_entry hp', LoadFile.lineAddress_entry hq']
  omega

/-- The load file of an image that holds what a listing shows last has the word lines of that
listing. -/
theorem entries_eq_wordLines {listing : Listing} {image : Image}
    (hrows : ∀ row ∈ listing, row.WellFormed) (hmemory : image.InMemory)
    (himage : ∀ address word, image[address]? = some word ↔ listing.ShowsLast address word) :
    image.pairs.map LoadFile.entry = wordLines (listing.map Row.render) := by
  have : Std.Irrefl fun a b => lineAddress a < lineAddress b := ⟨fun a => Nat.lt_irrefl _⟩
  have : Std.Antisymm fun a b => lineAddress a < lineAddress b :=
    ⟨fun a b hab hba => absurd hab (Nat.lt_asymm hba)⟩
  apply (pairwise_entries hmemory).eq_of_mem_iff (pairwise_wordLines _)
  intro line
  rw [wordLines, List.mem_mergeSort, cut_wordLines hrows, mem_lastOfEach_entries hrows]
  simp only [List.mem_map, Prod.exists, Image.mem_pairs_iff, himage]

end ListingFile

/-! ## Files -/

theorem Listing.rawLines_render {listing : Listing}
    (h : ∀ row ∈ listing, Text.lineFeed ∉ row.render) :
    Text.rawLines listing.render = listing.map Row.render := by
  apply Text.rawLines_unlines
  intro line hline
  obtain ⟨row, hrow, rfl⟩ := List.mem_map.mp hline
  exact h row hrow

theorem LoadFile.rawLines_write {image : Image} (h : image.InMemory) :
    Text.rawLines (write image) = image.pairs.map entry := by
  apply Text.rawLines_unlines
  intro line hline
  obtain ⟨pair, hpair, rfl⟩ := List.mem_map.mp hline
  rw [entry_eq (h.of_mem_pairs hpair)]
  exact lineFeed_not_mem_octal _ _

/-- The listing of a source text that can be read has one line for each source line. Exactly the
rows that show a word have the shape of a word line, and the word lines of the listing are the lines
of the load file. -/
theorem listing_file_gives_load_file (rule : LabelRule) {source : Text} {lines : List Text}
    (h : Program.readSource source = .ok lines) :
    ∃ program : Program, Program.assembleSource rule source = .ok program ∧
      (∀ row ∈ program.listing, Text.lineFeed ∉ row.render) ∧
      Text.rawLines program.listing.render = program.listing.map Row.render ∧
      program.listing.map Row.source = lines ∧
      (∀ row ∈ program.listing, ListingFile.isWordLine row.render = true ↔
        ∃ address word, row.content = .word address word) ∧
      Text.rawLines (LoadFile.write program.image) =
        ListingFile.wordLines (Text.rawLines program.listing.render) := by
  have hrows : ∀ row ∈ (Program.assemble rule lines).listing, row.WellFormed := fun _ hrow =>
    Emission.wellFormed_of_mem_listing hrow
  have hmemory := Program.image_assemble_inMemory rule lines
  have hfeed : ∀ row ∈ (Program.assemble rule lines).listing, Text.lineFeed ∉ row.render :=
    Emission.lineFeed_not_mem_of_mem_listing (Program.lineFeed_not_mem_of_readSource h)
  have hlisting := Listing.rawLines_render hfeed
  refine ⟨Program.assemble rule lines, ?_, hfeed, hlisting, ?_, ?_, ?_⟩
  · rw [Program.assembleSource, h]
    rfl
  · exact Emission.map_source_listing_run rule _ lines
  · intro row hrow
    exact ListingFile.isWordLine_render_iff (hrows row hrow)
  · rw [LoadFile.rawLines_write hmemory, hlisting]
    exact ListingFile.entries_eq_wordLines hrows hmemory
      (Emission.getElem?_image_run rule _ lines)

/-- A comment and a statement that look like words at address five, before two words that are
assembled there and one at a lower address. -/
def lookalikes : List Text :=
  ["; 000005 000001", "000005 000001", "LOC 5", "Data 1", "LOC 5", "Data 2", "LOC 3", "Data 7"].map
    Text.ascii

/-- The statement is rejected, so its row is no word line. Of the words at address five the second
one is kept. -/
theorem lookalikes_wordLines :
    Program.readSource (Text.unlines lookalikes) = .ok lookalikes ∧
    ∃ program : Program, Program.assembleSource .ordinary (Text.unlines lookalikes) = .ok program ∧
      program.listing.map Row.source = lookalikes ∧
      (∀ row ∈ program.listing, row.source = Text.ascii "000005 000001" →
        ListingFile.isWordLine row.render = false) ∧
      ListingFile.wordLines (Text.rawLines program.listing.render) =
        ["000003 000007", "000005 000002"].map Text.ascii := by
  have hread : Program.readSource (Text.unlines lookalikes) = .ok lookalikes := by decide +kernel
  obtain ⟨program, hprogram, -, -, hsource, hshape, hload⟩ :=
    listing_file_gives_load_file .ordinary hread
  have hassembled : Program.assemble .ordinary lookalikes = program := by
    rw [Program.assembleSource, hread] at hprogram
    exact Except.ok.inj hprogram
  subst hassembled
  refine ⟨hread, _, hprogram, hsource, ?_, ?_⟩
  · intro row hrow hlook
    have hrejected : ∀ row ∈ (Program.assemble .ordinary lookalikes).listing,
        row.source = Text.ascii "000005 000001" → row.content = .rejected 0 := by decide +kernel
    rw [Bool.eq_false_iff]
    intro hline
    obtain ⟨address, word, hword⟩ := (hshape row hrow).mp hline
    cases (hrejected row hrow hlook).symm.trans hword
  · rw [← hload]
    decide +kernel

end WordMachine
