import WordMachine.Debugger.Display
import WordMachine.Proofs.Machine.Memory
import WordMachine.Proofs.Word

/-!
# Displays put together

A display of consecutive addresses is the display of the first of them followed by the display of
the rest, where addresses go on at zero after the last one. A memory display can be cut only between
two rows. It shows every word that it covers, and nothing else of the machine.
-/

namespace WordMachine

theorem Word.octal_injective {v w : Word} (h : v.octal = w.octal) : v = w := by
  have hread := Word.readOctal_octal v
  rw [h, Word.readOctal_octal w] at hread
  exact (Except.ok.inj hread).symm

namespace Display

/-- An offset beyond the first addresses is an offset from the address that follows them. -/
theorem address_add (address : Word) (first i : Nat) :
    address + UInt16.ofNat (first + i) = address + UInt16.ofNat first + UInt16.ofNat i := by
  rw [UInt16.ofNat_add, UInt16.add_assoc]

theorem flatMap_range_add (f : Nat → Text) (first second : Nat) :
    (List.range (first + second)).flatMap f =
      (List.range first).flatMap f ++ (List.range second).flatMap fun i => f (first + i) := by
  rw [List.range_add, List.flatMap_append, List.flatMap_map]

theorem flatMap_range_succ (f : Nat → Text) (count : Nat) :
    (List.range (count + 1)).flatMap f = (List.range count).flatMap f ++ f count := by
  rw [List.range_succ, List.flatMap_append, List.flatMap_singleton]

/-- Texts that are put together from pieces of the same lengths are equal exactly if their pieces
are. -/
theorem flatMap_range_inj {f g : Nat → Text} (hlength : ∀ i, (f i).length = (g i).length)
    (count : Nat) :
    (List.range count).flatMap f = (List.range count).flatMap g ↔ ∀ i < count, f i = g i := by
  induction count with
  | zero => simp
  | succ count ih =>
      rw [flatMap_range_succ, flatMap_range_succ]
      constructor
      · intro h i hi
        obtain ⟨hfirst, hlast⟩ := List.append_inj' h (hlength count)
        rcases Nat.lt_or_eq_of_le (Nat.le_of_lt_succ hi) with hlt | rfl
        · exact ih.mp hfirst i hlt
        · exact hlast
      · intro h
        rw [ih.mpr fun i hi => h i (Nat.lt_succ_of_lt hi), h count (Nat.lt_succ_self count)]

/-! ## Source -/

theorem source_add (symbols : Option Symbols) (m : Machine) (address : Word) (first second : Nat) :
    source symbols m address (first + second) =
      source symbols m address first ++
        source symbols m (address + UInt16.ofNat first) second := by
  simp only [source, flatMap_range_add, address_add]

/-! ## Memory -/

/-- The word at an offset and what stands before it. -/
def cell (m : Machine) (address : Word) (offset : Nat) : Text :=
  rowHead address offset ++ [Text.space] ++ (m.memory.read (address + UInt16.ofNat offset)).octal

theorem memory_eq (m : Machine) (address : Word) (count : Nat) :
    memory m address count = Text.line ((List.range count).flatMap (cell m address)) := rfl

theorem length_cell (m m' : Machine) (address : Word) (offset : Nat) :
    (cell m address offset).length = (cell m' address offset).length := by
  simp only [cell, List.length_append, Word.length_octal]

theorem cell_eq_iff {m m' : Machine} {address : Word} {offset : Nat} :
    cell m address offset = cell m' address offset ↔
      m.memory.read (address + UInt16.ofNat offset) =
        m'.memory.read (address + UInt16.ofNat offset) := by
  constructor
  · intro h
    exact Word.octal_injective (List.append_cancel_left h)
  · intro h
    rw [cell, h, cell]

/-- At the head of a later row a line feed stands before what a display from there begins with. -/
theorem rowHead_add {first : Nat} (hfirst : 0 < first) (hrow : first % 4 = 0) (address : Word)
    (i : Nat) :
    rowHead address (first + i) =
      (if i = 0 then [Text.lineFeed] else []) ++ rowHead (address + UInt16.ofNat first) i := by
  rcases Nat.eq_zero_or_pos i with rfl | hi
  · rw [Nat.add_zero, rowHead, if_neg (by omega), if_pos hrow, rowHead, if_pos rfl, if_pos rfl]
  · have hsum : first + i ≠ 0 := by omega
    have hplace : (first + i) % 4 = i % 4 := by omega
    simp only [rowHead, if_neg hsum, if_neg (Nat.ne_of_gt hi), hplace, address_add,
      List.nil_append]

theorem cell_add {first : Nat} (hfirst : 0 < first) (hrow : first % 4 = 0) (m : Machine)
    (address : Word) (i : Nat) :
    cell m address (first + i) =
      (if i = 0 then [Text.lineFeed] else []) ++ cell m (address + UInt16.ofNat first) i := by
  simp only [cell, rowHead_add hfirst hrow, address_add, List.append_assoc]

/-- The cells of later rows begin with the line feed that ends the row before them. -/
theorem flatMap_cell_add {first : Nat} (hfirst : 0 < first) (hrow : first % 4 = 0) (m : Machine)
    (address : Word) (rest : Nat) :
    ((List.range (rest + 1)).flatMap fun i => cell m address (first + i)) =
      Text.lineFeed ::
        (List.range (rest + 1)).flatMap (cell m (address + UInt16.ofNat first)) := by
  -- Only the first cell carries the line feed, so the induction begins with one cell.
  induction rest with
  | zero => simp [cell_add hfirst hrow]
  | succ rest ih =>
      rw [flatMap_range_succ, ih, flatMap_range_succ _ (rest + 1), cell_add hfirst hrow,
        if_neg (by omega), List.nil_append, List.cons_append]

theorem memory_add (m : Machine) (address : Word) {first second : Nat} (hfirst : 0 < first)
    (hrow : first % 4 = 0) (hsecond : 0 < second) :
    memory m address (first + second) =
      memory m address first ++ memory m (address + UInt16.ofNat first) second := by
  obtain ⟨rest, rfl⟩ : ∃ rest, second = rest + 1 := ⟨second - 1, by omega⟩
  simp only [memory_eq, Text.line]
  rw [flatMap_range_add, flatMap_cell_add hfirst hrow]
  simp

theorem memory_eq_iff (m m' : Machine) (address : Word) (count : Nat) :
    memory m address count = memory m' address count ↔
      ∀ i < count, m.memory.read (address + UInt16.ofNat i) =
        m'.memory.read (address + UInt16.ofNat i) := by
  rw [memory_eq, memory_eq, Text.line, Text.line, List.append_left_inj,
    flatMap_range_inj (length_cell m m' address)]
  simp only [cell_eq_iff]

/-- Displays can be put together from displays of consecutive addresses, and a memory display tells
machines apart exactly if they differ in a word that it covers. -/
theorem displays_compose (symbols : Option Symbols) (m : Machine) (address : Word)
    (first second : Nat) :
    source symbols m address (first + second) =
      source symbols m address first ++
        source symbols m (address + UInt16.ofNat first) second ∧
    (0 < first → first % 4 = 0 → 0 < second →
      memory m address (first + second) =
        memory m address first ++ memory m (address + UInt16.ofNat first) second) ∧
    ∀ (m' : Machine) (count : Nat), 0 < count →
      (memory m address count = memory m' address count ↔
        ∀ i < count, m.memory.read (address + UInt16.ofNat i) =
          m'.memory.read (address + UInt16.ofNat i)) := by
  refine ⟨source_add symbols m address first second, memory_add m address, ?_⟩
  intro m' count _
  exact memory_eq_iff m m' address count

/-- The symbols of a stop with a label at address one. -/
def stopSymbols : Symbols :=
  .ofProgram [] (.assemble .ordinary (["LOC 1", "end: HLT"].map Text.ascii))

/-- Two displays that begin at the last address but one. A display of four sources goes on at
address zero, and ends with the label and the line of a stop at address one. A display of five words
ends at address two: the row of four goes on at address zero, and a word at address three is not
shown. -/
theorem wrapped_displays_compose :
    (source (some stopSymbols) Machine.initial 0xFFFE (3 + 1) =
        source (some stopSymbols) Machine.initial 0xFFFE 3 ++
          source (some stopSymbols) Machine.initial 1 1 ∧
      source (some stopSymbols) Machine.initial 1 1 =
        Text.ascii "end:\n [000001] 000000  end: HLT\n") ∧
    memory Machine.initial 0xFFFE (4 + 1) =
      memory Machine.initial 0xFFFE 4 ++ memory Machine.initial 2 1 ∧
    memory Machine.initial 0xFFFE 5 = memory (Machine.initial.store 3 7) 0xFFFE 5 ∧
    memory Machine.initial 0xFFFE 5 ≠ memory (Machine.initial.store 2 7) 0xFFFE 5 := by
  obtain ⟨hsource, -⟩ := displays_compose (some stopSymbols) Machine.initial 0xFFFE 3 1
  obtain ⟨-, hmemory, hshown⟩ := displays_compose none Machine.initial 0xFFFE 4 1
  refine ⟨⟨hsource, by decide +kernel⟩, hmemory (by decide) (by decide) (by decide), ?_, ?_⟩
  · rw [hshown _ 5 (by decide)]
    intro i hi
    have houtside : ∀ i < 5, (0xFFFE : Word) + UInt16.ofNat i ≠ 3 := by decide
    exact (Memory.read_write_of_ne _ 7 (houtside i hi)).symm
  · intro hsame
    have hword := (hshown _ 5 (by decide)).mp hsame 4 (by decide)
    have haddress : (0xFFFE : Word) + UInt16.ofNat 4 = 2 := by decide
    rw [haddress, Machine.store, Memory.read_write_self] at hword
    have hclear : Machine.initial.memory.read 2 = 0 := Memory.read_clear 2
    rw [hclear] at hword
    exact absurd hword (by decide)

end Display

end WordMachine
