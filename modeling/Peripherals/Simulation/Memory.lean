/-! Plain memory in place of a register block: what is read is what was last written. -/

namespace Peripherals.Simulation

/-- The words that have been written, by their offsets. -/
structure Memory where
  words : List (Nat × UInt32) := []

namespace Memory

/-- The word at `offset`, zero before it is written. -/
def read (m : Memory) (offset : Nat) : UInt32 := (m.words.lookup offset).getD 0

/-- The memory after a write. -/
def write (m : Memory) (offset : Nat) (value : UInt32) : Memory :=
  ⟨(offset, value) :: m.words.filter fun (other, _) => other != offset⟩

end Memory

end Peripherals.Simulation
