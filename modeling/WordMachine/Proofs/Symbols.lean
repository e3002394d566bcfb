import WordMachine.Proofs.Assembly.Declarations
import WordMachine.Proofs.Assembly.Listing
import WordMachine.Proofs.Word
import WordMachine.Symbols

/-!
# What symbols say about a program

The symbols are keyed by words, and a program by integers. No address is cut on the way: a row
shows a word only where there is memory, and a label beyond the memory is left out. Where several
lines were assembled to one address the last one is kept, as in the image, and where several labels
name one the first declared is kept.
-/

namespace WordMachine

namespace Word

theorem toInt_le (w : Word) : w.toInt ≤ maxAddress := by
  have hlt : w.toNat < 65536 := w.toNat_lt
  rw [toInt, maxAddress]
  omega

/-- An address of the memory is the address of a word. -/
theorem ofInt_eq_iff {address : Int} (h : 0 ≤ address) (h' : address ≤ maxAddress) {a : Word} :
    ofInt address = a ↔ address = a.toInt := by
  constructor
  · rintro rfl
    rw [toInt_ofInt h h']
  · rintro rfl
    exact ofInt_toInt a

end Word

/-! ## Lines -/

namespace Listing

/-- Row `i` shows a word at an address, and no later row shows any word there. -/
structure LastWordAt (listing : Listing) (address : Int) (i : Nat) (word : Word) : Prop where
  shown : listing[i]?.map Row.content = some (.word address word)
  isLast : ∀ j, i < j → ∀ other, listing[j]?.map Row.content ≠ some (.word address other)

variable {listing : Listing} {address : Int} {i : Nat} {word : Word}

theorem LastWordAt.lt_length (h : listing.LastWordAt address i word) : i < listing.length := by
  obtain ⟨row, hrow, -⟩ := Option.map_eq_some_iff.mp h.shown
  exact (List.getElem?_eq_some_iff.mp hrow).1

theorem lastWordAt_append_singleton (row : Row) :
    LastWordAt (listing ++ [row]) address i word ↔
      (i = listing.length ∧ row.content = .word address word) ∨
        (∀ other, row.content ≠ .word address other) ∧ listing.LastWordAt address i word := by
  have hrow : (listing ++ [row])[listing.length]? = some row := by simp
  constructor
  · intro h
    have hlength := h.lt_length
    rw [List.length_append, List.length_singleton] at hlength
    rcases Nat.lt_or_eq_of_le (Nat.le_of_lt_succ hlength) with hi | rfl
    · refine Or.inr ⟨?_, ?_, ?_⟩
      · intro other heq
        exact h.isLast listing.length hi other (by rw [hrow, Option.map_some, heq])
      · rw [← h.shown, List.getElem?_append_left hi]
      · intro j hj other hother
        obtain ⟨found, hfound, -⟩ := Option.map_eq_some_iff.mp hother
        have hlt : j < listing.length := (List.getElem?_eq_some_iff.mp hfound).1
        exact h.isLast j hj other (by rw [List.getElem?_append_left hlt, hother])
    · refine Or.inl ⟨rfl, ?_⟩
      have hshown := h.shown
      rw [hrow, Option.map_some] at hshown
      exact Option.some.inj hshown
  · rintro (⟨rfl, hcontent⟩ | ⟨hother, h⟩)
    · refine ⟨by rw [hrow, Option.map_some, hcontent], ?_⟩
      intro j hj other heq
      rw [List.getElem?_eq_none (by simp; omega)] at heq
      cases heq
    · refine ⟨by rw [List.getElem?_append_left h.lt_length, h.shown], ?_⟩
      intro j hj other heq
      rcases Nat.lt_trichotomy j listing.length with hlt | rfl | hgt
      · rw [List.getElem?_append_left hlt] at heq
        exact h.isLast j hj other heq
      · rw [hrow, Option.map_some] at heq
        exact hother other (Option.some.inj heq)
      · rw [List.getElem?_eq_none (by simp; omega)] at heq
        cases heq

theorem showsLast_iff_exists_lastWordAt (listing : Listing) :
    listing.ShowsLast address word ↔ ∃ i, listing.LastWordAt address i word := by
  induction listing using List.reverseRecOn with
  | nil =>
      constructor
      · intro h
        exact absurd h not_showsLast_nil
      · rintro ⟨i, h⟩
        exact absurd h.lt_length (Nat.not_lt_zero i)
  | append_singleton listing row ih =>
      simp only [showsLast_append_singleton, lastWordAt_append_singleton, ih, exists_or,
        exists_and_left, exists_eq_left]

end Listing

namespace Symbols

theorem compare_ofInt_eq_iff {address : Int} (h : 0 ≤ address ∧ address ≤ maxAddress) {a : Word} :
    compare (Word.ofInt address) a = .eq ↔ address = a.toInt := by
  rw [Std.LawfulEqCmp.compare_eq_iff_eq, Word.ofInt_eq_iff h.1 h.2]

/-- A row changes the line at the address of its word only. -/
theorem getElem?_addRow_eq_some_iff (lines : Std.ExtTreeMap Word Text compare) {row : Row}
    (hmemory : ∀ address word, row.content = .word address word →
      0 ≤ address ∧ address ≤ maxAddress) {a : Word} {text : Text} :
    (addRow lines row)[a]? = some text ↔
      (∃ word, row.content = .word a.toInt word) ∧ Text.trim row.source = text ∨
        (∀ other, row.content ≠ .word a.toInt other) ∧ lines[a]? = some text := by
  cases hcontent : row.content with
  | word address word =>
      simp only [addRow, hcontent, Std.ExtTreeMap.getElem?_insert,
        compare_ofInt_eq_iff (hmemory address word hcontent)]
      by_cases heq : address = a.toInt <;> simp [heq]
  | blank => simp [addRow, hcontent]
  | location => simp [addRow, hcontent]
  | label => simp [addRow, hcontent]
  | rejected address => simp [addRow, hcontent]

/-- The lines of a listing with all its words in memory hold at each address the source of the last
row that shows a word there. -/
theorem getElem?_foldl_addRow {listing : Listing}
    (hmemory : ∀ row ∈ listing, ∀ address word, row.content = .word address word →
      0 ≤ address ∧ address ≤ maxAddress) (a : Word) (text : Text) :
    (listing.foldl addRow ∅)[a]? = some text ↔
      ∃ i word, listing.LastWordAt a.toInt i word ∧
        listing[i]?.map (fun row => Text.trim row.source) = some text := by
  induction listing using List.reverseRecOn with
  | nil =>
      rw [List.foldl_nil, Std.ExtTreeMap.getElem?_empty]
      constructor
      · nofun
      · rintro ⟨i, word, h, -⟩
        exact absurd h.lt_length (Nat.not_lt_zero i)
  | append_singleton listing row ih =>
      have hrow := hmemory row (by simp)
      rw [List.foldl_append, List.foldl_cons, List.foldl_nil, getElem?_addRow_eq_some_iff _ hrow,
        ih fun r hr => hmemory r (List.mem_append_left _ hr)]
      simp only [Listing.lastWordAt_append_singleton]
      constructor
      · rintro (⟨⟨word, hcontent⟩, rfl⟩ | ⟨hother, i, word, hlast, hsource⟩)
        · exact ⟨listing.length, word, Or.inl ⟨rfl, hcontent⟩, by simp⟩
        · refine ⟨i, word, Or.inr ⟨hother, hlast⟩, ?_⟩
          rw [List.getElem?_append_left hlast.lt_length, hsource]
      · rintro ⟨i, word, ⟨rfl, hcontent⟩ | ⟨hother, hlast⟩, hsource⟩
        · refine Or.inl ⟨⟨word, hcontent⟩, ?_⟩
          simpa using hsource
        · rw [List.getElem?_append_left hlast.lt_length] at hsource
          exact Or.inr ⟨hother, i, word, hlast, hsource⟩

/-! ## Labels -/

/-- An entry gives a label to its own address only, and only if there is none yet. -/
theorem getElem?_addLabel (labels : Std.ExtTreeMap Word Text compare) {entry : Text × Int}
    (hnonneg : 0 ≤ entry.2) (a : Word) :
    (addLabel labels entry)[a]? =
      labels[a]?.or (if entry.2 = a.toInt then some entry.1 else none) := by
  by_cases hbeyond : maxAddress < entry.2
  · have hne : entry.2 ≠ a.toInt := by
      have hle := a.toInt_le
      omega
    simp only [addLabel, hbeyond, hne, if_true, if_false, Option.or_none]
  · simp only [addLabel, hbeyond, if_false, Std.ExtTreeMap.getElem?_insertIfNew,
      compare_ofInt_eq_iff ⟨hnonneg, Int.not_lt.mp hbeyond⟩]
    by_cases heq : entry.2 = a.toInt
    · cases hheld : labels[a]? <;>
        simp [heq, Word.ofInt_toInt, Std.ExtTreeMap.mem_iff_isSome_getElem?, hheld]
    · simp only [heq, false_and, if_false, Option.or_none]

/-- The labels of a table without negative addresses hold at each address its first entry there. -/
theorem getElem?_foldl_addLabel {entries : List (Text × Int)}
    (hnonneg : ∀ entry ∈ entries, 0 ≤ entry.2) (a : Word) :
    (entries.foldl addLabel ∅)[a]? =
      (entries.find? fun entry => entry.2 == a.toInt).map Prod.fst := by
  induction entries using List.reverseRecOn with
  | nil => exact Std.ExtTreeMap.getElem?_empty
  | append_singleton entries entry ih =>
      have hearlier := ih fun e he => hnonneg e (List.mem_append_left _ he)
      rw [List.foldl_append, List.foldl_cons, List.foldl_nil,
        getElem?_addLabel _ (hnonneg entry (by simp)), hearlier, List.find?_append,
        List.find?_singleton, Option.map_or]
      by_cases heq : entry.2 = a.toInt <;> simp [heq]

end Symbols

/-! ## Programs -/

section Assembled

variable {rule : LabelRule} {lines : List Text} {source : Text}

/-- The image holds a word exactly where a row is the last to show one. -/
theorem Program.getElem?_image_assemble {address : Int} {word : Word} :
    (assemble rule lines).image[address]? = some word ↔
      ∃ i, (assemble rule lines).listing.LastWordAt address i word := by
  rw [← Listing.showsLast_iff_exists_lastWordAt]
  exact Emission.getElem?_image_run rule _ lines address word

theorem Program.lastWordAt_in_memory {address : Int} {i : Nat} {word : Word}
    (h : (assemble rule lines).listing.LastWordAt address i word) :
    0 ≤ address ∧ address ≤ maxAddress := by
  obtain ⟨row, hrow, hcontent⟩ := Option.map_eq_some_iff.mp h.shown
  exact Emission.word_in_memory_of_mem_listing (List.mem_of_getElem? hrow) hcontent

namespace Symbols

theorem getElem?_lines_ofProgram {a : Word} {text : Text} :
    (ofProgram source (Program.assemble rule lines)).lines[a]? = some text ↔
      ∃ i raw word, lines[i]? = some raw ∧ Text.trim raw = text ∧
        (Program.assemble rule lines).listing.LastWordAt a.toInt i word := by
  have hsource (i : Nat) :
      (Program.assemble rule lines).listing[i]?.map (fun row => Text.trim row.source) =
        lines[i]?.map Text.trim := by
    change (Emission.run rule (layoutLabels rule lines) lines).listing[i]?.map _ = _
    rw [Emission.listing_run_getElem?]
    cases lines[i]? <;> simp
  have hmemory : ∀ row ∈ (Program.assemble rule lines).listing, ∀ address word,
      row.content = .word address word → 0 ≤ address ∧ address ≤ maxAddress :=
    fun _ hrow _ _ => Emission.word_in_memory_of_mem_listing hrow
  rw [ofProgram, getElem?_foldl_addRow hmemory]
  simp only [hsource, Option.map_eq_some_iff]
  constructor
  · rintro ⟨i, word, hlast, raw, hraw, htrim⟩
    exact ⟨i, raw, word, hraw, htrim, hlast⟩
  · rintro ⟨i, raw, word, hraw, htrim, hlast⟩
    exact ⟨i, word, hlast, raw, hraw, htrim⟩

/-- The addresses with a line are those of the image. -/
theorem mem_image_iff_mem_lines {address : Int} :
    address ∈ (Program.assemble rule lines).image ↔
      ∃ a : Word, a.toInt = address ∧
        a ∈ (ofProgram source (Program.assemble rule lines)).lines := by
  simp only [Std.ExtTreeMap.mem_iff_isSome_getElem?, Option.isSome_iff_exists,
    Program.getElem?_image_assemble, getElem?_lines_ofProgram]
  constructor
  · rintro ⟨word, i, hlast⟩
    obtain ⟨hnonneg, hmax⟩ := Program.lastWordAt_in_memory hlast
    have hword := Word.toInt_ofInt hnonneg hmax
    have hline : i < lines.length := by
      rw [← Emission.length_listing_run rule (layoutLabels rule lines) lines]
      exact hlast.lt_length
    have hraw : lines[i]? = some lines[i] := List.getElem?_eq_getElem hline
    exact ⟨Word.ofInt address, hword, _, i, lines[i], word, hraw, rfl, by rwa [hword]⟩
  · rintro ⟨a, rfl, text, i, raw, word, -, -, hlast⟩
    exact ⟨word, i, hlast⟩

theorem getElem?_labels_eq_find? (a : Word) :
    (ofProgram source (Program.assemble rule lines)).labels[a]? =
      ((layoutLabels rule lines).entries.find? fun entry => entry.2 == a.toInt).map Prod.fst := by
  apply getElem?_foldl_addLabel
  rintro ⟨name, address⟩ hentry
  exact lookup_layoutLabels_nonneg (mem_entries_iff_lookup.mp hentry)

theorem getElem?_labels_ofProgram {a : Word} {name : Text} :
    (ofProgram source (Program.assemble rule lines)).labels[a]? = some name ↔
      ∃ i, FirstLabelAt rule lines a.toInt i name := by
  rw [getElem?_labels_eq_find?]
  exact find?_entries_layoutLabels

/-- An address has a label exactly if some label of the program has this address. -/
theorem mem_labels_ofProgram {a : Word} :
    a ∈ (ofProgram source (Program.assemble rule lines)).labels ↔
      ∃ name, (Program.assemble rule lines).labels.lookup name = some a.toInt := by
  rw [Std.ExtTreeMap.mem_iff_isSome_getElem?, getElem?_labels_eq_find?, Option.isSome_map,
    List.find?_isSome]
  constructor
  · rintro ⟨⟨name, address⟩, hentry, haddress⟩
    obtain rfl : address = a.toInt := beq_iff_eq.mp haddress
    exact ⟨name, mem_entries_iff_lookup.mp hentry⟩
  · rintro ⟨name, hlookup⟩
    exact ⟨(name, a.toInt), mem_entries_iff_lookup.mpr hlookup, beq_self_eq_true _⟩

/-- A label stands at its own address. -/
theorem address_of_label {a : Word} {name : Text} {address : Int}
    (hname : (ofProgram source (Program.assemble rule lines)).labels[a]? = some name)
    (hlookup : (Program.assemble rule lines).labels.lookup name = some address) :
    address = a.toInt := by
  obtain ⟨i, hfirst⟩ := getElem?_labels_ofProgram.mp hname
  exact Option.some.inj (hlookup.symm.trans hfirst.lookup)

/-- What symbols have to say about the program of some source lines. -/
structure Describes (symbols : Symbols) (rule : LabelRule) (lines : List Text) : Prop where
  /-- The addresses with a line are those of the image. -/
  addresses : ∀ address, address ∈ (Program.assemble rule lines).image ↔
    ∃ a : Word, a.toInt = address ∧ a ∈ symbols.lines
  /-- The line at an address is the last that was assembled there, to the word of the image. -/
  line : ∀ (a : Word) (text : Text), symbols.lines[a]? = some text ↔
    ∃ i raw word, lines[i]? = some raw ∧ Text.trim raw = text ∧
      (Program.assemble rule lines).listing.LastWordAt a.toInt i word ∧
      (Program.assemble rule lines).image[a.toInt]? = some word
  /-- The addresses with a label are those of the memory that some label has. -/
  named : ∀ a : Word, a ∈ symbols.labels ↔
    ∃ name, (Program.assemble rule lines).labels.lookup name = some a.toInt
  /-- The label at an address is the first declared one that has it. -/
  label : ∀ (a : Word) (name : Text), symbols.labels[a]? = some name ↔
    ∃ i, FirstLabelAt rule lines a.toInt i name
  /-- A label stands at one address at most. -/
  unique : ∀ (a b : Word) (name : Text), symbols.labels[a]? = some name →
    symbols.labels[b]? = some name → a = b
  /-- A label beyond the memory stands at no address. -/
  beyond : ∀ name address, (Program.assemble rule lines).labels.lookup name = some address →
    65535 < address → ∀ a : Word, symbols.labels[a]? ≠ some name

end Symbols

end Assembled

/-- The symbols of an assembled program have the given name, and agree with its image and its
labels: under either rule for statements after a label, for every source, and whatever lines of it
were rejected. -/
theorem symbols_describe_program (source : Text) (rule : LabelRule) (lines : List Text) :
    (Symbols.ofProgram source (Program.assemble rule lines)).source = source ∧
      (Symbols.ofProgram source (Program.assemble rule lines)).Describes rule lines := by
  refine ⟨rfl, fun _ => Symbols.mem_image_iff_mem_lines, ?_, fun _ => Symbols.mem_labels_ofProgram,
    fun _ _ => Symbols.getElem?_labels_ofProgram, ?_, ?_⟩
  · intro a text
    rw [Symbols.getElem?_lines_ofProgram]
    constructor
    · rintro ⟨i, raw, word, hraw, htrim, hlast⟩
      exact ⟨i, raw, word, hraw, htrim, hlast, Program.getElem?_image_assemble.mpr ⟨i, hlast⟩⟩
    · rintro ⟨i, raw, word, hraw, htrim, hlast, -⟩
      exact ⟨i, raw, word, hraw, htrim, hlast⟩
  · intro a b name ha hb
    obtain ⟨i, hfirst⟩ := Symbols.getElem?_labels_ofProgram.mp ha
    have hsame : a.toInt = b.toInt := Symbols.address_of_label hb hfirst.lookup
    rw [← Word.ofInt_toInt a, hsame, Word.ofInt_toInt]
  · intro name address hlookup hbeyond a hname
    have hle := a.toInt_le
    rw [← Symbols.address_of_label hname hlookup, maxAddress] at hle
    omega

/-- The first of two labels at an address is kept, and a label past the last address is not taken
for one at the first. -/
example :
    (Symbols.ofProgram [] (Program.assemble .ordinary
      (["LOC 5", "a:", "b: Data 1", "LOC 65535", "Data 2", "past:"].map
        Text.ascii))).labels.toList = [(5, Text.ascii "a")] := by
  decide +kernel

end WordMachine
