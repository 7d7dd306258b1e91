/-! The records of a property request. A record is three header words, its identifier, the size of
its value and the length of request or answer, and then the words of its value. -/

namespace Peripherals.Mailbox

/-- Set in a record's length word by a firmware that has answered it. -/
def responseBit : UInt32 := 0x80000000

def tagHeaderWords : Nat := 3

/-- A record of a property request. -/
structure Tag where
  /-- Which property is asked for. -/
  id : UInt32 := 0
  /-- The size of the value in bytes. -/
  size : UInt32 := 0
  /-- The length of the request in bytes, or of the answer with the response bit. -/
  length : UInt32 := 0
  value : List UInt32
  deriving DecidableEq, Repr

namespace Tag

def words (t : Tag) : List UInt32 := t.id :: t.size :: t.length :: t.value

/-- The record that `ws` spells, or `t` where they are too few for a header. -/
def ofWords (t : Tag) (ws : List UInt32) : Tag :=
  match ws with
  | id :: size :: length :: value => { id, size, length, value }
  | _ => t

/-- The record with the header of a request for property `id` whose parameters take `requestLength`
bytes. -/
def prepare (t : Tag) (id requestLength : UInt32) : Tag :=
  { t with
    id
    size := UInt32.ofNat (4 * t.value.length)
    length := requestLength &&& ~~~responseBit }

end Tag

/-! The identifiers of records. Zero ends a request. -/

namespace TagId

def endMarker : UInt32 := 0x00000000
def firmwareRevision : UInt32 := 0x00000001
def boardModel : UInt32 := 0x00010001
def boardRevision : UInt32 := 0x00010002
def macAddress : UInt32 := 0x00010003
def boardSerial : UInt32 := 0x00010004
def processorMemory : UInt32 := 0x00010005
def graphicsMemory : UInt32 := 0x00010006
def setPowerState : UInt32 := 0x00028001
def clockRate : UInt32 := 0x00030002
def maxClockRate : UInt32 := 0x00030004
def temperature : UInt32 := 0x00030006

end TagId

/-- The clocks that the firmware knows. -/
inductive ClockId where
  | emmc
  | uart
  | arm
  | core
  | v3d
  | h264
  | isp
  | sdram
  | pixel
  | pwm
  deriving DecidableEq, Repr

def ClockId.number : ClockId → UInt32
  | .emmc => 1
  | .uart => 2
  | .arm => 3
  | .core => 4
  | .v3d => 5
  | .h264 => 6
  | .isp => 7
  | .sdram => 8
  | .pixel => 9
  | .pwm => 10

/-- All clocks, in the order of their numbers. -/
def ClockId.all : List ClockId :=
  [.emmc, .uart, .arm, .core, .v3d, .h264, .isp, .sdram, .pixel, .pwm]

/-- The devices whose power the firmware switches. -/
inductive DeviceId where
  | sdCard
  | uart0
  | uart1
  | usb
  deriving DecidableEq, Repr

def DeviceId.number : DeviceId → UInt32
  | .sdCard => 0
  | .uart0 => 1
  | .uart1 => 2
  | .usb => 3

/-- All devices, in the order of their numbers. -/
def DeviceId.all : List DeviceId := [.sdCard, .uart0, .uart1, .usb]

/-! The bits of a request to switch power. -/

namespace PowerRequest

def on : UInt32 := 0x1

def wait : UInt32 := 0x2

def all : UInt32 := 0x3

def names : List (UInt32 × String) := [(on, "ON"), (wait, "WAIT")]

end PowerRequest

/-! The bits of the answer to a request to switch power. -/

namespace PowerStatus

def on : UInt32 := 0x1

def noDevice : UInt32 := 0x2

def all : UInt32 := 0x3

def names : List (UInt32 × String) := [(on, "ON"), (noDevice, "NO_DEVICE")]

end PowerStatus

end Peripherals.Mailbox
