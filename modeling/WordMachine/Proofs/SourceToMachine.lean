import WordMachine.Proofs.Assembly.Bounds
import WordMachine.Proofs.LoadFile
import WordMachine.Proofs.Machine.Loading

/-!
# From a source text to a loaded machine

What is assembled from a source text reaches the machine unchanged: the image lies in memory, its
load file reads as the same image, and any machine can be loaded with it. Diagnostics make no
difference to this.
-/

namespace WordMachine

/-- A source text that can be read assembles to an image which its load file preserves and which
every machine can be loaded with. -/
theorem assembled_image_reaches_machine (rule : LabelRule) {source : Text} {lines : List Text}
    (h : Program.readSource source = .ok lines) :
    ∃ program : Program, Program.assembleSource rule source = .ok program ∧
      (∀ address ∈ program.image, 0 ≤ address ∧ address ≤ 65535) ∧
      LoadFile.read (LoadFile.write program.image) = .ok program.image ∧
      ∀ m : Machine, ∃ loaded : Machine,
        m.reload program.image = (loaded, none) ∧ loaded.IsLoaded program.image := by
  have hmemory := Program.image_assemble_inMemory rule lines
  refine ⟨Program.assemble rule lines, ?_, hmemory, LoadFile.read_write hmemory, ?_⟩
  · rw [Program.assembleSource, h]
    rfl
  · exact Machine.reload_of_inMemory hmemory

/-- Two words at the last address: the second one runs past the memory. -/
def pastTheEnd : Text := Text.ascii "LOC 65535\nData 7\nData 8\n"

/-- The first word is loaded at the last address, and the second one does not come out at zero. -/
theorem pastTheEnd_reaches_machine :
    ∃ program : Program, Program.assembleSource .ordinary pastTheEnd = .ok program ∧
      program.diagnostics.length = 1 ∧
      ∀ m : Machine, ∃ loaded : Machine, m.reload program.image = (loaded, none) ∧
        loaded.memory.read 65535 = 7 ∧ loaded.memory.read 0 = 0 := by
  have hread : Program.readSource pastTheEnd =
      .ok (["LOC 65535", "Data 7", "Data 8"].map Text.ascii) := by decide +kernel
  obtain ⟨program, hprogram, -, -, hload⟩ := assembled_image_reaches_machine .ordinary hread
  have hassembled : Program.assemble .ordinary (["LOC 65535", "Data 7", "Data 8"].map Text.ascii) =
      program := by
    rw [Program.assembleSource, hread] at hprogram
    exact Except.ok.inj hprogram
  subst hassembled
  refine ⟨_, hprogram, by decide +kernel, fun m => ?_⟩
  obtain ⟨loaded, hreload, hloaded⟩ := hload m
  refine ⟨loaded, hreload, ?_, ?_⟩
  · rw [hloaded.memory]
    decide +kernel
  · rw [hloaded.memory]
    decide +kernel

end WordMachine
