/-! Addresses of memory as the processor sees it and as the other bus masters see it. -/

namespace Peripherals

/-- A physical address as seen by the processor. -/
structure PhysAddr where
  value : UInt64
  deriving DecidableEq, Repr

/-- An address as seen from the graphics side, which decodes 32 bits. -/
structure BusAddr where
  value : UInt32
  deriving DecidableEq, Repr

namespace PhysAddr

def isAligned (a : PhysAddr) (align : UInt64) : Bool := a.value % align == 0

/-- The address `offset` bytes further on. -/
def add (a : PhysAddr) (offset : UInt64) : PhysAddr := ⟨a.value + offset⟩

/-- The bus address of `a` in the window that starts at `window`. -/
def toBus (a : PhysAddr) (window : UInt32) : BusAddr := ⟨a.value.toUInt32 + window⟩

end PhysAddr

end Peripherals
