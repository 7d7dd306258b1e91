import Peripherals.Clock.Tick
import Peripherals.Sd.Driver
import Peripherals.Timer.SystemTimer

/-! The boards: where their peripherals are and how their drivers are set up. -/

namespace Peripherals.Board

/-- The generations of the chip. -/
inductive Chip where
  | bcm2835
  | bcm2836
  deriving DecidableEq, Repr

namespace Chip

/-- The physical address of the peripheral window. -/
def peripheralBase : Chip → Nat
  | .bcm2835 => 0x20000000
  | .bcm2836 => 0x3F000000

/-- The window through which the graphics side sees the processor's memory. -/
def memoryWindow : Chip → UInt32
  | .bcm2835 => 0x40000000
  | .bcm2836 => 0xC0000000

/-- The address of the block next to the processor cores, where there is one. -/
def coreBase? : Chip → Option Nat
  | .bcm2835 => none
  | .bcm2836 => some 0x40000000

/-- The address of the block at `offset` in the peripheral window. -/
def block (c : Chip) (offset : Nat) : Nat := c.peripheralBase + offset

end Chip

/-- The settings of the system tick. -/
structure TickConfig where
  /-- The ticks in a second. -/
  hz : UInt32 := Clock.defaultTickHz
  /-- The rate of the counter that the tick is derived from. -/
  counterHz : UInt32 := Timer.counterHz
  deriving DecidableEq, Repr

def TickConfig.interval (t : TickConfig) : UInt32 := t.counterHz / t.hz

/-- What differs between boards. -/
structure Platform where
  name : String
  chip : Chip
  tick : TickConfig := {}
  sd : Sd.Config := {}
  deriving DecidableEq, Repr

namespace Platform

/-- The first generation of boards. -/
def rpi1 : Platform := { name := "Raspberry Pi 1", chip := .bcm2835 }

/-- The second and third generation of boards. -/
def rpi2 : Platform := { name := "Raspberry Pi 2/3", chip := .bcm2836 }

/-- The board that is assumed where none is named. -/
def current : Platform := rpi2

/-- The address of the block at `offset` in the peripheral window. -/
def block (p : Platform) (offset : Nat) : Nat := p.chip.block offset

def hasCoreBlock (p : Platform) : Bool := p.chip.coreBase?.isSome

end Platform

end Peripherals.Board
