import WordMachine.Proofs.Assembly.Resolution
import WordMachine.Proofs.Symbols
import WordMachine.Shell.Argument

/-!
# Names of addresses

The shell finds an address by its label in a table from addresses to labels, which it searches for
the name. The assembler finds it in a table from labels to addresses. The two agree because of how
the first table is made from the second: a label has one address only, so that it does not matter in
which order the search goes, and no address is cut, so that the one found is that of the label.

## Implementation notes

A text in the form of a number that cannot be read is never a label for the assembler. It may be
one for the shell, which asks its table whenever there is no number.
-/

namespace WordMachine

/-! ## Searching a table for a name -/

section Search

variable {order : List (Word × Text)} {name : Text}

theorem mem_of_find?_named {entry : Word × Text}
    (h : (order.find? fun entry => entry.2 == name) = some entry) : (entry.1, name) ∈ order := by
  have hname : entry.2 = name := by simpa using List.find?_some h
  rw [← hname]
  exact List.mem_of_find?_eq_some h

theorem addressAmong?_eq_some_iff
    (hunique : ∀ a b, (a, name) ∈ order → (b, name) ∈ order → a = b) {a : Word} :
    Symbols.addressAmong? order name = some a ↔ (a, name) ∈ order := by
  unfold Symbols.addressAmong?
  constructor
  · intro h
    obtain ⟨entry, hfound, rfl⟩ := Option.map_eq_some_iff.mp h
    exact mem_of_find?_named hfound
  · intro hmem
    have hsome : (order.find? fun entry => entry.2 == name).isSome = true :=
      List.find?_isSome.mpr ⟨(a, name), hmem, beq_self_eq_true name⟩
    obtain ⟨entry, hfound⟩ := Option.isSome_iff_exists.mp hsome
    rw [hfound, Option.map_some, hunique entry.1 a (mem_of_find?_named hfound) hmem]

/-- If a name has one address only, it is found in every order. -/
theorem addressAmong?_eq {order' : List (Word × Text)}
    (hsame : ∀ entry, entry ∈ order' ↔ entry ∈ order)
    (hunique : ∀ a b, (a, name) ∈ order → (b, name) ∈ order → a = b) :
    Symbols.addressAmong? order' name = Symbols.addressAmong? order name := by
  ext a
  have hunique' : ∀ a b, (a, name) ∈ order' → (b, name) ∈ order' → a = b := by
    intro a b ha hb
    exact hunique a b ((hsame _).mp ha) ((hsame _).mp hb)
  rw [addressAmong?_eq_some_iff hunique', addressAmong?_eq_some_iff hunique, hsame]

end Search

namespace Symbols

/-- The address, as an integer, that a token names to a shell that searches by ascending address. -/
def Names (symbols : Symbols) (token : Text) (address : Int) : Prop :=
  ∃ a : Word, Argument.address symbols.labels.toList token = .ok a ∧ a.toInt = address

section Assembled

variable {rule : LabelRule} {lines : List Text} {source token : Text}

theorem mem_toList_labels_ofProgram {a : Word} {name : Text} :
    (a, name) ∈ (ofProgram source (Program.assemble rule lines)).labels.toList ↔
      ∃ i, FirstLabelAt rule lines a.toInt i name := by
  rw [Std.ExtTreeMap.mem_toList_iff_getElem?_eq_some, getElem?_labels_ofProgram]

theorem address_unique {a b : Word} {name : Text}
    (ha : (a, name) ∈ (ofProgram source (Program.assemble rule lines)).labels.toList)
    (hb : (b, name) ∈ (ofProgram source (Program.assemble rule lines)).labels.toList) : a = b := by
  obtain ⟨i, hfirst⟩ := mem_toList_labels_ofProgram.mp ha
  obtain ⟨j, hfirst'⟩ := mem_toList_labels_ofProgram.mp hb
  have hsame : a.toInt = b.toInt := Option.some.inj (hfirst.lookup.symm.trans hfirst'.lookup)
  rw [← a.ofInt_toInt, hsame, b.ofInt_toInt]

theorem addressAmong?_ofProgram {a : Word} {name : Text} :
    addressAmong? (ofProgram source (Program.assemble rule lines)).labels.toList name = some a ↔
      ∃ i, FirstLabelAt rule lines a.toInt i name := by
  rw [addressAmong?_eq_some_iff fun _ _ => address_unique, mem_toList_labels_ofProgram]

/-- A number names itself, if there is memory. -/
theorem names_of_number {symbols : Symbols} {v : Int} (h : Numeral.readNumber token = .ok v)
    {address : Int} : symbols.Names token address ↔ address = v ∧ 0 ≤ v ∧ v ≤ 65535 := by
  have hargument : Argument.address symbols.labels.toList token =
      if v < 0 ∨ maxAddress < v then .error (.addressOutOfRange token)
      else .ok (Word.ofInt v) := by
    rw [Argument.address, h]
  have hmax : maxAddress = 65535 := rfl
  rw [Names, hargument]
  constructor
  · rintro ⟨a, ha, rfl⟩
    split at ha
    · cases ha
    · next hin =>
        rw [not_or, Int.not_lt, Int.not_lt, hmax] at hin
        rw [← Except.ok.inj ha, Word.toInt_ofInt hin.1 hin.2]
        exact ⟨rfl, hin⟩
  · rintro ⟨rfl, hnonneg, hle⟩
    rw [if_neg (by omega)]
    exact ⟨Word.ofInt address, rfl, Word.toInt_ofInt hnonneg hle⟩

/-- What is no number names the address of a label, if the label is the first one there. -/
theorem names_of_no_number {e : Numeral.LiteralError} (h : Numeral.readNumber token = .error e)
    {address : Int} :
    (ofProgram source (Program.assemble rule lines)).Names token address ↔
      address ≤ 65535 ∧ ∃ i, FirstLabelAt rule lines address i token := by
  have hargument (a : Word) :
      Argument.address (ofProgram source (Program.assemble rule lines)).labels.toList token =
          .ok a ↔
        ∃ i, FirstLabelAt rule lines a.toInt i token := by
    rw [← addressAmong?_ofProgram, Argument.address, h]
    dsimp only
    split
    · next found hfound => rw [hfound, Except.ok.injEq, Option.some.injEq]
    · next hnone =>
        rw [hnone]
        simp
  constructor
  · rintro ⟨a, ha, rfl⟩
    exact ⟨a.toInt_le, (hargument a).mp ha⟩
  · rintro ⟨hle, i, hfirst⟩
    have hword := Word.toInt_ofInt (lookup_layoutLabels_nonneg hfirst.lookup) hle
    exact ⟨Word.ofInt address, (hargument _).mpr ⟨i, by rwa [hword]⟩, hword⟩

theorem address_eq_of_order {order : List (Word × Text)}
    (horder : ∀ a name, (a, name) ∈ order ↔
      (ofProgram source (Program.assemble rule lines)).labels[a]? = some name) :
    Argument.address order token =
      Argument.address (ofProgram source (Program.assemble rule lines)).labels.toList token := by
  have hsame : ∀ entry, entry ∈ order ↔
      entry ∈ (ofProgram source (Program.assemble rule lines)).labels.toList := by
    intro entry
    rw [Std.ExtTreeMap.mem_toList_iff_getElem?_eq_some]
    exact horder entry.1 entry.2
  rw [Argument.address, Argument.address, addressAmong?_eq hsame fun _ _ => address_unique]

theorem resolve_of_names {address value : Int}
    (hnames : (ofProgram source (Program.assemble rule lines)).Names token address)
    (hresolve : Operand.resolve (Program.assemble rule lines).labels token = .ok value) :
    value = address := by
  rcases Operand.resolve_eq_ok_iff.mp hresolve with hread | ⟨hread, hlookup⟩
  · exact ((names_of_number hread).mp hnames).1.symm
  · obtain ⟨-, i, hfirst⟩ := (names_of_no_number hread).mp hnames
    exact Option.some.inj (hlookup.symm.trans hfirst.lookup)

end Assembled

end Symbols

/-- The shell and the assembler name the same addresses of an assembled program. The shell finds the
same address in whatever order it searches the labels of the symbols. A literal of 32 bits names its
value, if that is an address of the memory. Any other token names the address of a label, if this is
in memory and no other label was declared there before. Where the assembler gives a token a value,
the token can only name this value. -/
theorem shell_and_assembler_name_alike (source : Text) (rule : LabelRule) (lines : List Text)
    (token : Text) :
    (∀ order : List (Word × Text),
      (∀ a name, (a, name) ∈ order ↔
        (Symbols.ofProgram source (Program.assemble rule lines)).labels[a]? = some name) →
      Argument.address order token =
        Argument.address (Symbols.ofProgram source (Program.assemble rule lines)).labels.toList
          token) ∧
    (∀ v, Numeral.Literal token v → Numeral.FitsLiteral v → ∀ address,
      (Symbols.ofProgram source (Program.assemble rule lines)).Names token address ↔
        address = v ∧ 0 ≤ v ∧ v ≤ 65535) ∧
    ((∀ v, Numeral.Literal token v → ¬ Numeral.FitsLiteral v) → ∀ address,
      (Symbols.ofProgram source (Program.assemble rule lines)).Names token address ↔
        address ≤ 65535 ∧ ∃ i, FirstLabelAt rule lines address i token) ∧
    ∀ address value,
      (Symbols.ofProgram source (Program.assemble rule lines)).Names token address →
      Operand.resolve (Program.assemble rule lines).labels token = .ok value → value = address := by
  refine ⟨fun _ => Symbols.address_eq_of_order, ?_, ?_, fun _ _ => Symbols.resolve_of_names⟩
  · intro v hliteral hfits address
    exact Symbols.names_of_number (Numeral.readNumber_eq_ok_iff.mpr ⟨hliteral, hfits⟩)
  · intro hnone address
    cases hread : Numeral.readNumber token with
    | ok v =>
        obtain ⟨hliteral, hfits⟩ := Numeral.readNumber_eq_ok_iff.mp hread
        exact absurd hfits (hnone v hliteral)
    | error e => exact Symbols.names_of_no_number hread

/-- The shell finds a label in the form of a number that cannot be read, and the assembler does not
take it for one. -/
example :
    let program := Program.assemble .ordinary (["LOC 5", "0x8z: Data 1"].map Text.ascii)
    Argument.address (Symbols.ofProgram [] program).labels.toList (Text.ascii "0x8z") = .ok 5 ∧
      Operand.resolve program.labels (Text.ascii "0x8z") =
        .error (.unresolvedOperand (Text.ascii "0x8z") false) := by
  decide +kernel

end WordMachine
