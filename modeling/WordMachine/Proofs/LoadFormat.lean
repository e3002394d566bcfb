import Mathlib.Data.List.Induction
import WordMachine.LoadFile
import WordMachine.Proofs.Numeral.Literal
import WordMachine.Proofs.Text.Fields
import WordMachine.Proofs.Text.Lines
import WordMachine.Proofs.Word

/-!
# The format of load files

Every line of a load file says nothing or names an address and a word, or else it offends against
the format. Reading succeeds exactly if no line offends, and the image then has at each address the
word that was named last. Otherwise the first line that offends is reported, with its number, its
trimmed text and the first thing that is wrong with it.
-/

namespace WordMachine

namespace LoadFile

/-! ## What a line says -/

/-- A text consists of octal digits, and their number is that of a word. -/
def WritesWord (t : Text) (w : Word) : Prop := Numeral.Writes 8 t w.toNat

/-- What a line says: nothing, if it is empty or all white space, or else an address and a word. -/
inductive Says (line : Text) : Option (Word × Word) → Prop
  | nothing (h : line.IsWhiteSpace) : Says line none
  | pair {address word : Text} {a w : Word} (hfields : line.HasFields [address, word])
      (haddress : WritesWord address a) (hword : WritesWord word w) : Says line (some (a, w))

/-- A line says nothing that the format allows, for the first of these reasons that applies. -/
inductive Offends (line : Text) : Text → Prop
  | notAPair (hink : ¬ line.IsWhiteSpace)
      (hfields : ∀ address word, ¬ line.HasFields [address, word]) :
      Offends line (Text.ascii "Expected address and word")
  | badAddress {address word : Text} (hfields : line.HasFields [address, word])
      (haddress : ∀ a, ¬ WritesWord address a) : Offends line (Text.ascii "Invalid address")
  | badWord {address word : Text} {a : Word} (hfields : line.HasFields [address, word])
      (haddress : WritesWord address a) (hword : ∀ w, ¬ WritesWord word w) :
      Offends line (Text.ascii "Invalid word")

/-- The last of some lines to name an address names a word for it. -/
def LastSays (lines : List Text) (a w : Word) : Prop :=
  ∃ before line after, lines = before ++ line :: after ∧ Says line (some (a, w)) ∧
    ∀ other ∈ after, ∀ w', ¬ Says other (some (a, w'))

theorem readOctal_eq_ok_iff {t : Text} {w : Word} :
    Word.readOctal t = .ok w ↔ WritesWord t w := by
  have hgreatest : Nat.pow 2 Word.bits - 1 = 65535 := rfl
  have hw : w.toNat < 65536 := w.toNat_lt
  have hvalue (n : Nat) : Numeral.readNat 8 Word.bits t = .ok n ↔
      Numeral.Writes 8 t n ∧ n ≤ 65535 := by
    rw [Numeral.readNat_eq_ok_iff (by decide), hgreatest]
  unfold Word.readOctal WritesWord
  split
  · next hrefused =>
      constructor
      · intro h
        cases h
      · intro h
        rw [h.hasSign_eq_false (by decide), Bool.or_false, List.isEmpty_iff] at hrefused
        exact absurd hrefused h.ne_nil
  · constructor
    · intro h
      split at h
      · next n hread =>
          obtain ⟨hwrites, hle⟩ := (hvalue n).mp hread
          rw [← Except.ok.inj h, UInt16.toNat_ofNat_of_lt' (by rw [UInt16.size]; omega)]
          exact hwrites
      · cases h
    · intro h
      rw [(hvalue w.toNat).mpr ⟨h, by omega⟩]
      exact congrArg Except.ok UInt16.ofNat_toNat

theorem WritesWord.unique {t : Text} {w w' : Word} (h : WritesWord t w) (h' : WritesWord t w') :
    w = w' :=
  Except.ok.inj ((readOctal_eq_ok_iff.mpr h).symm.trans (readOctal_eq_ok_iff.mpr h'))

theorem exists_error_of_not_writesWord {t : Text} (h : ∀ w, ¬ WritesWord t w) :
    ∃ e, Word.readOctal t = .error e := by
  cases hread : Word.readOctal t with
  | error e => exact ⟨e, rfl⟩
  | ok w => exact absurd (readOctal_eq_ok_iff.mp hread) (h w)

/-- A line says something, or it offends. -/
theorem says_or_offends (line : Text) :
    (∃ said, Says line said) ∨ ∃ reason, Offends line reason := by
  by_cases hblank : line.IsWhiteSpace
  · exact .inl ⟨none, .nothing hblank⟩
  by_cases hpair : ∃ address word, line.HasFields [address, word]
  · obtain ⟨address, word, hfields⟩ := hpair
    by_cases haddress : ∃ a, WritesWord address a
    · obtain ⟨a, ha⟩ := haddress
      by_cases hword : ∃ w, WritesWord word w
      · obtain ⟨w, hw⟩ := hword
        exact .inl ⟨some (a, w), .pair hfields ha hw⟩
      · exact .inr ⟨_, .badWord hfields ha (not_exists.mp hword)⟩
    · exact .inr ⟨_, .badAddress hfields (not_exists.mp haddress)⟩
  · refine .inr ⟨_, .notAPair hblank fun address word hfields => ?_⟩
    exact hpair ⟨address, word, hfields⟩

section Line

variable {line : Text}

theorem pair_unique {address word address' word' : Text} (h : line.HasFields [address, word])
    (h' : line.HasFields [address', word']) : address = address' ∧ word = word' := by
  have hfields := h.fields_eq.symm.trans h'.fields_eq
  simpa using hfields

theorem not_isWhiteSpace_of_pair {address word : Text} (h : line.HasFields [address, word]) :
    ¬ line.IsWhiteSpace := by
  intro hblank
  have hfields := h.fields_eq
  rw [Text.fields_eq_nil_iff_isWhiteSpace.mpr hblank] at hfields
  cases hfields

theorem Says.unique {said said' : Option (Word × Word)} (h : Says line said)
    (h' : Says line said') : said = said' := by
  cases h with
  | nothing hblank =>
      cases h' with
      | nothing _ => rfl
      | pair hfields _ _ => exact absurd hblank (not_isWhiteSpace_of_pair hfields)
  | pair hfields haddress hword =>
      cases h' with
      | nothing hblank => exact absurd hblank (not_isWhiteSpace_of_pair hfields)
      | pair hfields' haddress' hword' =>
          obtain ⟨rfl, rfl⟩ := pair_unique hfields hfields'
          rw [haddress.unique haddress', hword.unique hword']

theorem Says.iff_eq {said said' : Option (Word × Word)} (h : Says line said) :
    Says line said' ↔ said = said' :=
  ⟨h.unique, fun heq => heq ▸ h⟩

theorem Offends.not_says {reason : Text} (h : Offends line reason)
    (said : Option (Word × Word)) : ¬ Says line said := by
  intro hsays
  cases hsays with
  | nothing hblank =>
      cases h with
      | notAPair hink _ => exact hink hblank
      | badAddress hfields _ => exact not_isWhiteSpace_of_pair hfields hblank
      | badWord hfields _ _ => exact not_isWhiteSpace_of_pair hfields hblank
  | pair hfields haddress hword =>
      cases h with
      | notAPair _ hnone => exact hnone _ _ hfields
      | badAddress hfields' hnone =>
          obtain ⟨rfl, rfl⟩ := pair_unique hfields hfields'
          exact hnone _ haddress
      | badWord hfields' _ hnone =>
          obtain ⟨rfl, rfl⟩ := pair_unique hfields hfields'
          exact hnone _ hword

end Line

/-! ## Reading a line -/

/-- The image with what a line says put into it. -/
def enter (image : Image) : Option (Word × Word) → Image
  | none => image
  | some (a, w) => image.insert a.toInt w

section Reading

variable {line : Text} (number : Nat) (image : Image) (rest : List Text)

/-- The text of a line as it is read and reported. -/
def shown (line : Text) : Text := Text.trim (Text.dropLastByte Text.carriageReturn line)

theorem isTrimOf_shown (line : Text) : (shown line).IsTrimOf line :=
  Text.isTrimOf_dropLastByte (Text.isTrimOf_trim _)

theorem fields_shown (line : Text) : (shown line).fields = line.fields := by
  rw [shown, Text.fields_trim, Text.fields_dropLastByte]

theorem shown_isEmpty_of_isWhiteSpace (h : line.IsWhiteSpace) : (shown line).isEmpty = true := by
  rw [← Text.fields_eq_nil_iff_isWhiteSpace, ← Text.fields_dropLastByte,
    Text.fields_eq_nil_iff_isWhiteSpace] at h
  rw [shown, Text.trim_eq_nil_of_isWhiteSpace h]
  rfl

theorem shown_isEmpty_of_not_isWhiteSpace (h : ¬ line.IsWhiteSpace) :
    (shown line).isEmpty = false := by
  rw [List.isEmpty_eq_false_iff]
  intro hempty
  apply h
  rw [← Text.fields_eq_nil_iff_isWhiteSpace, ← fields_shown, hempty]
  rfl

/-- A line that says something is read as what it says. -/
theorem readEntries_of_says {said : Option (Word × Word)} (h : Says line said) :
    readEntries number image (Text.dropLastByte Text.carriageReturn line :: rest) =
      readEntries (number + 1) (enter image said) rest := by
  rw [readEntries, ← shown]
  cases h with
  | nothing hblank => rw [if_pos (shown_isEmpty_of_isWhiteSpace hblank), enter]
  | pair hfields haddress hword =>
      have hink := shown_isEmpty_of_not_isWhiteSpace (not_isWhiteSpace_of_pair hfields)
      simp only [hink, Bool.false_eq_true, if_false, readEntry, fields_shown, hfields.fields_eq,
        readOctal_eq_ok_iff.mpr haddress, readOctal_eq_ok_iff.mpr hword, enter]

/-- A line that offends is reported. -/
theorem readEntries_of_offends {reason : Text} (h : Offends line reason) :
    ∃ fault, fault.description = reason ∧
      readEntries number image (Text.dropLastByte Text.carriageReturn line :: rest) =
        .error (.malformed number (shown line) fault) := by
  have hread {fault : Fault} (hink : ¬ line.IsWhiteSpace)
      (hfault : readEntry (shown line) = .error fault) :
      readEntries number image (Text.dropLastByte Text.carriageReturn line :: rest) =
        .error (.malformed number (shown line) fault) := by
    rw [readEntries, ← shown]
    simp only [shown_isEmpty_of_not_isWhiteSpace hink, Bool.false_eq_true, if_false, hfault]
  cases h with
  | notAPair hink hfields =>
      refine ⟨.notAPair, rfl, hread hink ?_⟩
      rw [readEntry, fields_shown]
      split
      · next address word hpair => exact absurd (Text.hasFields_iff.mpr hpair) (hfields _ _)
      · rfl
  | badAddress hfields haddress =>
      obtain ⟨e, he⟩ := exists_error_of_not_writesWord haddress
      refine ⟨.badAddress, rfl, hread (not_isWhiteSpace_of_pair hfields) ?_⟩
      simp only [readEntry, fields_shown, hfields.fields_eq, he]
  | badWord hfields haddress hword =>
      obtain ⟨e, he⟩ := exists_error_of_not_writesWord hword
      refine ⟨.badWord, rfl, hread (not_isWhiteSpace_of_pair hfields) ?_⟩
      simp only [readEntry, fields_shown, hfields.fields_eq, readOctal_eq_ok_iff.mpr haddress, he]

end Reading

/-! ## Reading all lines -/

/-- Lines that all say something, and the image that they make one after the other. -/
inductive Makes : List Text → Image → Prop
  | nil : Makes [] .empty
  | snoc {lines : List Text} {image : Image} {line : Text} {said : Option (Word × Word)}
      (hlines : Makes lines image) (hline : Says line said) :
      Makes (lines ++ [line]) (enter image said)

theorem Makes.says {lines : List Text} {image : Image} (h : Makes lines image) :
    ∀ line ∈ lines, ∃ said, Says line said := by
  induction h with
  | nil => simp
  | @snoc lines image line said _ hline ih =>
      intro other hother
      rcases List.mem_append.mp hother with hother | hother
      · exact ih other hother
      · rw [List.mem_singleton.mp hother]
        exact ⟨said, hline⟩

/-- Lines make an image, or one of them is the first to offend. -/
theorem makes_or_offends (lines : List Text) :
    (∃ image, Makes lines image) ∨
      ∃ before line after image reason, lines = before ++ line :: after ∧ Makes before image ∧
        Offends line reason := by
  -- Lines are added at the end, so that the first line to offend stays the first.
  induction lines using List.reverseRecOn with
  | nil => exact .inl ⟨_, .nil⟩
  | append_singleton lines line ih =>
      rcases ih with ⟨image, hlines⟩ | ⟨before, first, after, image, reason, rfl, hbefore, hfirst⟩
      · rcases says_or_offends line with ⟨said, hline⟩ | ⟨reason, hline⟩
        · exact .inl ⟨_, hlines.snoc hline⟩
        · exact .inr ⟨lines, line, [], image, reason, rfl, hlines, hline⟩
      · refine .inr ⟨before, first, after ++ [line], image, reason, ?_, hbefore, hfirst⟩
        rw [List.append_assoc, List.cons_append]

theorem readEntries_of_makes {lines : List Text} {image : Image} (h : Makes lines image)
    (rest : List Text) :
    readEntries 1 .empty (lines.map (Text.dropLastByte Text.carriageReturn) ++ rest) =
      readEntries (lines.length + 1) image rest := by
  induction h generalizing rest with
  | nil => rfl
  | snoc _ hline ih =>
      rw [List.map_append, List.append_assoc, ih, List.map_singleton, List.singleton_append,
        readEntries_of_says _ _ _ hline, List.length_append, List.length_singleton]

theorem not_lastSays_nil (a w : Word) : ¬ LastSays [] a w := by
  rintro ⟨before, line, after, hlines, -⟩
  exact List.append_ne_nil_of_right_ne_nil before (List.cons_ne_nil line after) hlines.symm

theorem lastSays_snoc {lines : List Text} {line : Text} {a w : Word} :
    LastSays (lines ++ [line]) a w ↔
      Says line (some (a, w)) ∨ (∀ w', ¬ Says line (some (a, w'))) ∧ LastSays lines a w := by
  constructor
  · rintro ⟨before, last, after, hlines, hlast, hafter⟩
    rcases List.eq_nil_or_concat after with rfl | ⟨after, other, rfl⟩
    · obtain ⟨-, hline⟩ := List.append_inj' hlines rfl
      cases hline
      exact .inl hlast
    · have hsnoc : lines ++ [line] = (before ++ last :: after) ++ [other] := by
        simpa using hlines
      obtain ⟨rfl, hline⟩ := List.append_inj' hsnoc rfl
      cases hline
      rw [List.concat_eq_append, List.forall_mem_append] at hafter
      exact .inr ⟨hafter.2 line (List.mem_singleton_self line), before, last, after, rfl, hlast,
        hafter.1⟩
  · rintro (hline | ⟨hline, before, last, after, rfl, hlast, hafter⟩)
    · exact ⟨lines, line, [], rfl, hline, by simp⟩
    · refine ⟨before, last, after ++ [line], by simp, hlast, ?_⟩
      intro other hother
      rcases List.mem_append.mp hother with hother | hother
      · exact hafter other hother
      · rwa [List.mem_singleton.mp hother]

theorem getElem?_enter (image : Image) (said : Option (Word × Word)) (a w : Word) :
    (enter image said)[a.toInt]? = some w ↔
      said = some (a, w) ∨ (∀ w', said ≠ some (a, w')) ∧ image[a.toInt]? = some w := by
  cases said with
  | none => simp [enter]
  | some pair =>
      obtain ⟨b, v⟩ := pair
      by_cases hb : b = a
      · subst hb
        simp [enter]
      · have hcompare : compare b.toInt a.toInt ≠ .eq := by
          intro heq
          apply hb
          rw [← b.ofInt_toInt, Std.LawfulEqCmp.eq_of_compare heq, a.ofInt_toInt]
        simp [enter, Std.ExtTreeMap.getElem?_insert, hcompare, hb]

/-- The image of some lines has at each word the word that was named last for it. -/
theorem Makes.getElem?_toInt_iff {lines : List Text} {image : Image} (h : Makes lines image)
    {a w : Word} : image[a.toInt]? = some w ↔ LastSays lines a w := by
  induction h with
  | nil => simp [Image.empty, not_lastSays_nil]
  | snoc _ hline ih => simp only [getElem?_enter, ih, lastSays_snoc, hline.iff_eq, ne_eq]

/-- The image of some lines has no address but those of words. -/
theorem Makes.exists_toInt_eq {lines : List Text} {image : Image} (h : Makes lines image)
    {address : Int} (hmem : address ∈ image) : ∃ a : Word, a.toInt = address := by
  induction h with
  | nil => exact absurd hmem Std.ExtTreeMap.not_mem_empty
  | @snoc lines image line said _ _ ih =>
      cases said with
      | none => exact ih hmem
      | some pair =>
          rcases Std.ExtTreeMap.mem_insert.mp hmem with heq | hmem
          · exact ⟨pair.1, Std.LawfulEqCmp.eq_of_compare heq⟩
          · exact ih hmem

theorem Makes.getElem?_eq_some_iff {lines : List Text} {image : Image} (h : Makes lines image)
    {address : Int} {word : Word} :
    image[address]? = some word ↔ ∃ a : Word, a.toInt = address ∧ LastSays lines a word := by
  constructor
  · intro hword
    have hmem : address ∈ image := by
      rw [Std.ExtTreeMap.mem_iff_isSome_getElem?, hword]
      rfl
    obtain ⟨a, rfl⟩ := h.exists_toInt_eq hmem
    exact ⟨a, rfl, h.getElem?_toInt_iff.mp hword⟩
  · rintro ⟨a, rfl, hlast⟩
    exact h.getElem?_toInt_iff.mpr hlast

/-! ## Reading a file -/

section File

variable {file : Text} (hshort : ∀ line ∈ file.rawLines, line.length < lineLimit)

include hshort

theorem read_of_short :
    read file = readEntries 1 .empty
      (file.rawLines.map (Text.dropLastByte Text.carriageReturn)) := by
  rw [read, Text.readLines_of_short hshort]
  split
  · next heq => exact heq.symm
  · next heq _ => exact heq.symm
  · next h => cases h

theorem read_of_makes {image : Image} (h : Makes file.rawLines image) : read file = .ok image := by
  have hread := readEntries_of_makes h []
  rw [List.append_nil] at hread
  rw [read_of_short hshort, hread, readEntries]

theorem read_of_offends {before after : List Text} {line reason : Text} {image : Image}
    (hlines : file.rawLines = before ++ line :: after) (hbefore : Makes before image)
    (hline : Offends line reason) :
    ∃ fault, fault.description = reason ∧
      read file = .error (.malformed (before.length + 1) (shown line) fault) := by
  rw [read_of_short hshort, hlines, List.map_append, List.map_cons, readEntries_of_makes hbefore]
  exact readEntries_of_offends _ _ _ hline

end File

end LoadFile

/-- A file whose lines are short enough for the reader is read exactly if every line is blank or
names an address and a word. Then the image has, at each address that some line names, the word that
the last such line names, and nothing else. Otherwise reading fails. The error gives the number of
the first line that offends, where all lines count, with its trimmed text and the reason. -/
theorem read_accepts_exactly_the_load_format (file : Text)
    (hshort : ∀ line ∈ file.rawLines, line.length < 65536) :
    file.HasLines file.rawLines ∧
    ((∃ image, LoadFile.read file = .ok image) ↔
      ∀ line ∈ file.rawLines, ∃ said, LoadFile.Says line said) ∧
    (∀ image, LoadFile.read file = .ok image → ∀ address word,
      image[address]? = some word ↔
        ∃ a : Word, a.toInt = address ∧ LoadFile.LastSays file.rawLines a word) ∧
    ((¬ ∀ line ∈ file.rawLines, ∃ said, LoadFile.Says line said) →
      ∃ before line after reason text fault, file.rawLines = before ++ line :: after ∧
        (∀ other ∈ before, ∃ said, LoadFile.Says other said) ∧ LoadFile.Offends line reason ∧
        text.IsTrimOf line ∧ fault.description = reason ∧
        LoadFile.read file = .error (.malformed (before.length + 1) text fault)) := by
  refine ⟨file.hasLines_rawLines, ?_⟩
  rcases LoadFile.makes_or_offends file.rawLines with
    ⟨image, hmakes⟩ | ⟨before, line, after, image, reason, hlines, hbefore, hline⟩
  · have hread := LoadFile.read_of_makes hshort hmakes
    refine ⟨⟨fun _ => hmakes.says, fun _ => ⟨image, hread⟩⟩, ?_, fun h => absurd hmakes.says h⟩
    intro found hfound address word
    obtain rfl : image = found := Except.ok.inj (hread.symm.trans hfound)
    exact hmakes.getElem?_eq_some_iff
  · obtain ⟨fault, hfault, hread⟩ := LoadFile.read_of_offends hshort hlines hbefore hline
    have hsays : ¬ ∀ line ∈ file.rawLines, ∃ said, LoadFile.Says line said := by
      intro hall
      obtain ⟨said, hsaid⟩ := hall line (by simp [hlines])
      exact hline.not_says said hsaid
    have hfailed (image : Image) : LoadFile.read file ≠ .ok image := by
      intro hok
      rw [hread] at hok
      cases hok
    refine ⟨⟨?_, fun h => absurd h hsays⟩, fun image hok => absurd hok (hfailed image), ?_⟩
    · rintro ⟨image, hok⟩
      exact absurd hok (hfailed image)
    · intro _
      exact ⟨before, line, after, reason, LoadFile.shown line, fault, hlines, hbefore.says, hline,
        LoadFile.isTrimOf_shown line, hfault, hread⟩

/-- Two words for one address, with a blank line between them. The first line ends with a carriage
return; the last one begins with a no-break space and ends without a line feed. -/
def renamedWord : Text :=
  Text.ascii "10 1\r\n \t\n" ++ Text.ofScalar 0x00A0 ++ Text.ascii "0010   0000177777 "

/-- The later word counts. -/
theorem renamedWord_read :
    (∀ line ∈ renamedWord.rawLines, line.length < 65536) ∧
    ∃ image, LoadFile.read renamedWord = .ok image ∧ ∀ (address : Int) (word : Word),
      image[address]? = some word ↔ address = 8 ∧ word = 65535 := by
  have hlines : renamedWord.rawLines = [Text.ascii "10 1\r", Text.ascii " \t",
      Text.ofScalar 0x00A0 ++ Text.ascii "0010   0000177777 "] := by
    decide +kernel
  have hfirst : LoadFile.Says (Text.ascii "10 1\r") (some (8, 1)) :=
    .pair (Text.hasFields_iff.mpr (by decide +kernel : _ = [Text.ascii "10", Text.ascii "1"]))
      (LoadFile.readOctal_eq_ok_iff.mp rfl) (LoadFile.readOctal_eq_ok_iff.mp rfl)
  have hblank : LoadFile.Says (Text.ascii " \t") none := .nothing ⟨[0x20, 0x09], by decide, rfl⟩
  have hlast : LoadFile.Says (Text.ofScalar 0x00A0 ++ Text.ascii "0010   0000177777 ")
      (some (8, 65535)) :=
    .pair (Text.hasFields_iff.mpr
        (by decide +kernel : _ = [Text.ascii "0010", Text.ascii "0000177777"]))
      (LoadFile.readOctal_eq_ok_iff.mp rfl) (LoadFile.readOctal_eq_ok_iff.mp rfl)
  have hshort : ∀ line ∈ renamedWord.rawLines, line.length < 65536 := by
    rw [hlines]
    decide +kernel
  obtain ⟨-, haccepted, himage, -⟩ := read_accepts_exactly_the_load_format renamedWord hshort
  rw [hlines] at haccepted himage
  obtain ⟨image, hread⟩ := haccepted.mpr (by simp [hfirst.iff_eq, hblank.iff_eq, hlast.iff_eq])
  refine ⟨hshort, image, hread, ?_⟩
  intro address word
  have hnamed (a : Word) : LoadFile.LastSays [Text.ascii "10 1\r", Text.ascii " \t",
      Text.ofScalar 0x00A0 ++ Text.ascii "0010   0000177777 "] a word ↔ a = 8 ∧ word = 65535 := by
    rw [← List.nil_append [_, _, _], List.append_cons, List.append_cons, LoadFile.lastSays_snoc,
      LoadFile.lastSays_snoc, LoadFile.lastSays_snoc]
    simp only [hfirst.iff_eq, hblank.iff_eq, hlast.iff_eq]
    grind [LoadFile.not_lastSays_nil]
  rw [himage image hread]
  simp only [hnamed]
  constructor
  · rintro ⟨a, rfl, rfl, rfl⟩
    exact ⟨rfl, rfl⟩
  · rintro ⟨rfl, rfl⟩
    exact ⟨8, rfl, rfl, rfl⟩

end WordMachine
