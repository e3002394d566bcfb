import WordMachine.Machine.State

/-!
# Reading what has been written

A word that is written can be read back at its address, and no other address is touched.
-/

namespace WordMachine.Memory

@[simp] theorem read_clear (address : Word) : clear.read address = 0 :=
  Vector.getElem_replicate address.toNat_lt

@[simp] theorem read_write_self (memory : Memory) (address word : Word) :
    (memory.write address word).read address = word :=
  Vector.getElem_set_self address.toNat_lt

theorem read_write_of_ne (memory : Memory) {address other : Word} (word : Word)
    (h : other ≠ address) : (memory.write address word).read other = memory.read other := by
  have hnat : address.toNat ≠ other.toNat := fun he => h (UInt16.toNat_inj.mp he.symm)
  exact Vector.getElem_set_ne address.toNat_lt other.toNat_lt hnat

end WordMachine.Memory
