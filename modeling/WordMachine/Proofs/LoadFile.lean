import WordMachine.LoadFile
import WordMachine.Proofs.Assembly.Image
import WordMachine.Proofs.Text.Lines
import WordMachine.Proofs.Word

/-!
# Load files written and read again

The load file of an image reads as that image if all its addresses are in memory. If one is not, the
file is rejected at the line of the lowest such address. An image may have any addresses of 64 bits,
so that no line of its file is too long for the reader.
-/

namespace WordMachine

/-- Every address of an image is a signed integer of 64 bits. -/
def Image.FitsInt64 (image : Image) : Prop :=
  ∀ address ∈ image, Int64.minValue.toInt ≤ address ∧ address ≤ Int64.maxValue.toInt

theorem Image.InMemory.fitsInt64 {image : Image} (h : image.InMemory) : image.FitsInt64 := by
  intro address hmem
  obtain ⟨hnonneg, hmax⟩ := h address hmem
  have hleast : Int64.minValue.toInt ≤ 0 := by decide
  have hgreatest : maxAddress ≤ Int64.maxValue.toInt := by decide
  omega

namespace LoadFile

theorem entry_eq {pair : Int × Word} (h : 0 ≤ pair.1 ∧ pair.1 ≤ maxAddress) :
    entry pair = (Word.ofInt pair.1).octal ++ [Text.space] ++ pair.2.octal := by
  simp only [entry, Word.octal, Word.toInt_ofInt h.1 h.2]

/-! ## One line -/

section Entry

variable (pair : Int × Word)

private theorem octal_isPlain (value : Int) : ∀ b ∈ Numeral.padded 8 6 value, Text.isPlain b :=
  fun _ hb => (Numeral.isPlain_of_mem_padded (by decide) (by decide) hb).1

theorem fields_entry :
    Text.fields (entry pair) = [Numeral.padded 8 6 pair.1, pair.2.octal] :=
  Text.fields_pair (octal_isPlain pair.1) (octal_isPlain pair.2.toInt)
    (Numeral.padded_ne_nil 8 6 pair.1) pair.2.octal_ne_nil

theorem trim_entry : Text.trim (entry pair) = entry pair :=
  Text.trim_pair (octal_isPlain pair.1) (octal_isPlain pair.2.toInt)
    (Numeral.padded_ne_nil 8 6 pair.1) pair.2.octal_ne_nil

theorem lineFeed_not_mem_entry : Text.lineFeed ∉ entry pair := by
  have hnumber (value : Int) : Text.lineFeed ∉ Numeral.padded 8 6 value := fun h =>
    (Numeral.isPlain_of_mem_padded (by decide) (by decide) h).2 rfl
  have hspace : Text.lineFeed ∉ [Text.space] := by decide
  simp only [entry, List.mem_append, not_or]
  exact ⟨⟨hnumber pair.1, hspace⟩, hnumber pair.2.toInt⟩

theorem lineFeed_not_mem_octal (address word : Word) :
    Text.lineFeed ∉ address.octal ++ [Text.space] ++ word.octal :=
  lineFeed_not_mem_entry (address.toInt, word)

theorem dropLastByte_entry :
    Text.dropLastByte Text.carriageReturn (entry pair) = entry pair := by
  rw [Text.dropLastByte, if_neg]
  intro h
  rw [entry, List.getLast?_append, List.getLast?_eq_some_getLast pair.2.octal_ne_nil,
    Option.some_or] at h
  have hmem : Text.carriageReturn ∈ pair.2.octal := by
    rw [← Option.some.inj h]
    exact List.getLast_mem _
  exact absurd (octal_isPlain pair.2.toInt _ hmem) (by decide)

/-- An address of 64 bits has at most 22 octal digits and a sign. -/
theorem length_entry_lt (h : Int64.minValue.toInt ≤ pair.1 ∧ pair.1 ≤ Int64.maxValue.toInt) :
    (entry pair).length < lineLimit := by
  have hleast : Int64.minValue.toInt = -9223372036854775808 := by decide
  have hgreatest : Int64.maxValue.toInt = 9223372036854775807 := by decide
  have haddress : (Numeral.padded 8 6 pair.1).length ≤ 22 + 1 :=
    Numeral.length_padded_le (by decide) (by omega) (by decide)
  simp only [entry, List.length_append, List.length_singleton, Word.length_octal, lineLimit]
  omega

/-- A line is read as the pair that it was written for, unless the address is not in memory. -/
theorem readEntry_entry :
    readEntry (entry pair) =
      if 0 ≤ pair.1 ∧ pair.1 ≤ maxAddress then .ok pair else .error .badAddress := by
  by_cases h : 0 ≤ pair.1 ∧ pair.1 ≤ maxAddress
  · have haddress : Numeral.padded 8 6 pair.1 = (Word.ofInt pair.1).octal := by
      rw [Word.octal, Word.toInt_ofInt h.1 h.2]
    rw [if_pos h]
    simp only [readEntry, fields_entry, haddress, Word.readOctal_octal, Word.toInt_ofInt h.1 h.2]
  · obtain ⟨e, he⟩ := Word.readOctal_padded_of_outside h 6
    rw [if_neg h]
    simp only [readEntry, fields_entry, he]

end Entry

/-! ## All lines -/

theorem readEntries_cons_entry (number : Nat) (image : Image) (pair : Int × Word)
    (rest : List Text) :
    readEntries number image (entry pair :: rest) =
      if 0 ≤ pair.1 ∧ pair.1 ≤ maxAddress then
        readEntries (number + 1) (image.insert pair.1 pair.2) rest
      else .error (.malformed number (entry pair) .badAddress) := by
  have hne : (entry pair).isEmpty = false := by simp [entry]
  by_cases h : 0 ≤ pair.1 ∧ pair.1 ≤ maxAddress
  · simp [readEntries, trim_entry, hne, readEntry_entry, h]
  · simp [readEntries, trim_entry, hne, readEntry_entry, h]

/-- The lines of pairs put the pairs into the image, one after the other. -/
theorem readEntries_entries {pairs : List (Int × Word)}
    (h : ∀ pair ∈ pairs, 0 ≤ pair.1 ∧ pair.1 ≤ maxAddress) (number : Nat) (image : Image)
    (rest : List Text) :
    readEntries number image (pairs.map entry ++ rest) =
      readEntries (number + pairs.length)
        (pairs.foldl (fun image pair => image.insert pair.1 pair.2) image) rest := by
  induction pairs generalizing number image with
  | nil => rfl
  | cons pair pairs ih =>
      rw [List.map_cons, List.cons_append, readEntries_cons_entry,
        if_pos (h pair List.mem_cons_self),
        ih (fun other hother => h other (List.mem_cons_of_mem pair hother)), List.length_cons,
        List.foldl_cons, Nat.add_right_comm, Nat.add_assoc]

theorem readLines_write {image : Image} (h : image.FitsInt64) :
    Text.readLines lineLimit (write image) = ⟨image.pairs.map entry, .complete⟩ := by
  have hfeed : ∀ line ∈ image.pairs.map entry, Text.lineFeed ∉ line := by
    intro line hline
    obtain ⟨pair, -, rfl⟩ := List.mem_map.mp hline
    exact lineFeed_not_mem_entry pair
  have hshort : ∀ line ∈ image.pairs.map entry, line.length < lineLimit := by
    intro line hline
    obtain ⟨pair, hpair, rfl⟩ := List.mem_map.mp hline
    exact length_entry_lt pair (h pair.1 (Image.mem_of_mem_pairs hpair))
  have hkept : (image.pairs.map entry).map (Text.dropLastByte Text.carriageReturn) =
      image.pairs.map entry := by
    rw [List.map_map]
    exact List.map_congr_left fun pair _ => dropLastByte_entry pair
  rw [write, Text.readLines_unlines hfeed hshort, hkept]

theorem read_write {image : Image} (h : image.InMemory) : read (write image) = .ok image := by
  have hread := readEntries_entries (fun _ hpair => h.of_mem_pairs hpair) 1 .empty []
  have himage : image.pairs.foldl (fun image pair => image.insert pair.1 pair.2) .empty =
      image := Image.ofPairs_pairs image
  rw [List.append_nil, himage] at hread
  simp only [read, readLines_write h.fitsInt64, hread]
  rfl

/-- The lines before that of the first address outside the memory are read, and then reading
fails. -/
theorem read_write_of_outside {image : Image} (hfits : image.FitsInt64)
    {before after : List (Int × Word)} {pair : Int × Word}
    (hpairs : image.pairs = before ++ pair :: after)
    (hbefore : ∀ p ∈ before, 0 ≤ p.1 ∧ p.1 ≤ maxAddress)
    (hpair : ¬ (0 ≤ pair.1 ∧ pair.1 ≤ maxAddress)) :
    read (write image) = .error (.malformed (1 + before.length) (entry pair) .badAddress) := by
  have hread := readEntries_entries hbefore 1 .empty ((pair :: after).map entry)
  rw [List.map_cons, readEntries_cons_entry, if_neg hpair, ← List.map_cons, ← List.map_append,
    ← hpairs] at hread
  simp only [read, readLines_write hfits, hread]

/-- Reading complains of an invalid address, at the line of the lowest address that is not in
memory, which stands after the lines of all lower addresses. -/
theorem exists_rejection {image : Image} (hfits : image.FitsInt64) (h : ¬ image.InMemory) :
    ∃ address word fault, image.FirstOutside address ∧ image[address]? = some word ∧
      fault.description = Text.ascii "Invalid address" ∧
      read (write image) =
        .error (.malformed (1 + image.addresses.countP (· < address)) (entry (address, word))
          fault) := by
  obtain ⟨before, pair, after, hpairs, hbefore, hfirst⟩ := Image.exists_firstOutside h
  have hmem : pair ∈ image.pairs := by simp [hpairs]
  refine ⟨pair.1, pair.2, .badAddress, hfirst, Image.mem_pairs_iff.mp hmem, rfl, ?_⟩
  rw [Image.countP_lt_of_pairs_eq hpairs]
  exact read_write_of_outside hfits hpairs hbefore hfirst.outside

end LoadFile

/-- The load file of an image whose addresses have 64 bits reads as that image if all the addresses
are in memory. If some are not, the file is rejected with a complaint of an invalid address. The
number of the line is one more than the number of addresses below the lowest of those. So a file
that can be read at all reads as the image that it was written for. -/
theorem load_file_reads_back_exactly (image : Image) (hfits : image.FitsInt64) :
    (image.InMemory → LoadFile.read (LoadFile.write image) = .ok image) ∧
    (¬ image.InMemory → ∃ address word fault, image.FirstOutside address ∧
      image[address]? = some word ∧ fault.description = Text.ascii "Invalid address" ∧
      LoadFile.read (LoadFile.write image) =
        .error (.malformed (1 + image.addresses.countP (· < address))
          (LoadFile.entry (address, word)) fault)) ∧
    ∀ found, LoadFile.read (LoadFile.write image) = .ok found → found = image := by
  refine ⟨LoadFile.read_write, LoadFile.exists_rejection hfits, ?_⟩
  intro found hfound
  by_cases h : image.InMemory
  · rw [LoadFile.read_write h] at hfound
    exact (Except.ok.inj hfound).symm
  · obtain ⟨address, word, fault, -, -, -, herror⟩ := LoadFile.exists_rejection hfits h
    rw [herror] at hfound
    cases hfound

/-- Two addresses in memory, and two beyond its end. -/
def beyondTheEnd : Image :=
  .ofPairs [(9223372036854775807, 3), (65536, 2), (65535, 1), (7, 8)]

/-- The third line is the first that is not accepted. -/
theorem beyondTheEnd_rejected :
    beyondTheEnd.FitsInt64 ∧ ¬ beyondTheEnd.InMemory ∧ beyondTheEnd.FirstOutside 65536 ∧
    ∃ text fault, fault.description = Text.ascii "Invalid address" ∧
      LoadFile.read (LoadFile.write beyondTheEnd) = .error (.malformed 3 text fault) := by
  have haddresses : beyondTheEnd.addresses = [7, 65535, 65536, 9223372036854775807] := by
    decide +kernel
  have hmem (address : Int) :
      address ∈ beyondTheEnd ↔ address ∈ [7, 65535, 65536, 9223372036854775807] := by
    rw [← haddresses]
    exact Std.ExtTreeMap.mem_keys.symm
  have hfits : beyondTheEnd.FitsInt64 := by
    intro address h
    have hleast : Int64.minValue.toInt ≤ 0 := by decide
    have hgreatest : Int64.maxValue.toInt = 9223372036854775807 := by decide
    have hin := (hmem address).mp h
    simp only [List.mem_cons, List.not_mem_nil, or_false] at hin
    omega
  have houtside : ¬ beyondTheEnd.InMemory := by
    intro h
    have hlast := h 65536 ((hmem 65536).mpr (by decide))
    exact absurd hlast.2 (by decide)
  obtain ⟨-, hrejected, -⟩ := load_file_reads_back_exactly beyondTheEnd hfits
  obtain ⟨address, word, fault, hfirst, -, hdescription, herror⟩ := hrejected houtside
  have haddress : address = 65536 := by
    have hle := hfirst.isLeast 65536 ((hmem 65536).mpr (by decide)) (by decide)
    have hout := hfirst.outside
    have hin := (hmem address).mp hfirst.mem
    simp only [List.mem_cons, List.not_mem_nil, or_false, maxAddress] at hin hout
    omega
  subst haddress
  have hcount : beyondTheEnd.addresses.countP (· < 65536) = 2 := by
    rw [haddresses]
    decide
  rw [hcount] at herror
  exact ⟨hfits, houtside, hfirst, _, fault, hdescription, herror⟩

end WordMachine
