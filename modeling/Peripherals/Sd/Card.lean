import Peripherals.Word

/-! What a card says of itself: its status, its state in the SD protocol, its address, and its
configuration register; and what the driver has learned about the card in the slot. -/

namespace Peripherals.Sd

inductive CardState where
  | idle
  | ready
  | identification
  | standby
  | transfer
  | data
  | receive
  | programming
  | disconnect
  | unknown
  deriving DecidableEq, Repr

def CardState.ofCode : (code : Nat) → CardState
  | 0 => .idle
  | 1 => .ready
  | 2 => .identification
  | 3 => .standby
  | 4 => .transfer
  | 5 => .data
  | 6 => .receive
  | 7 => .programming
  | 8 => .disconnect
  | _ => .unknown

/-- The code of a state. A state that is not known has a code of its own. -/
def CardState.code : CardState → Nat
  | .idle => 0
  | .ready => 1
  | .identification => 2
  | .standby => 3
  | .transfer => 4
  | .data => 5
  | .receive => 6
  | .programming => 7
  | .disconnect => 8
  | .unknown => 0xFF

/-- Whether the bits of `mask` are not all clear in `word`. -/
def hasBits (word mask : UInt32) : Bool := word &&& mask != 0

/-- The status of a card, as in its usual short response. -/
structure CardStatus where
  raw : UInt32
  deriving DecidableEq, Repr

namespace CardStatus

def readyForData (s : CardStatus) : Bool := hasBits s.raw 0x00000100

def stateCode (s : CardStatus) : UInt32 := (s.raw >>> 9) &&& 0xF

def state (s : CardStatus) : CardState := .ofCode s.stateCode.toNat

/-- Whether the card reports an error of no special kind. -/
def generalError (s : CardStatus) : Bool := hasBits s.raw 0x00080000

/-- Whether the card was given a command that it does not take in its state. -/
def illegalCommand (s : CardStatus) : Bool := hasBits s.raw 0x00400000

def crcError (s : CardStatus) : Bool := hasBits s.raw 0x00800000

def hasErrors (s : CardStatus) : Bool := s.generalError || s.illegalCommand || s.crcError

end CardStatus

/-- The response of a card that has chosen its address: the address over the lower half of a status
in which three error bits have moved down. -/
structure AddressResponse where
  raw : UInt32
  deriving DecidableEq, Repr

namespace AddressResponse

def address (r : AddressResponse) : UInt16 := (r.raw >>> 16).toUInt16

def crcError (r : AddressResponse) : Bool := hasBits r.raw 0x8000

/-- Whether the card was given a command that it does not take in its state. -/
def illegalCommand (r : AddressResponse) : Bool := hasBits r.raw 0x4000

/-- Whether the card reports an error of no special kind. -/
def generalError (r : AddressResponse) : Bool := hasBits r.raw 0x2000

def readyForData (r : AddressResponse) : Bool := hasBits r.raw 0x0100

/-- Whether the card is ready and reports no error. -/
def isUsable (r : AddressResponse) : Bool :=
  !r.crcError && !r.illegalCommand && !r.generalError && r.readyForData

end AddressResponse

/-! The bits of the exchange in which host and card agree on the operating conditions. -/

namespace OperatingConditions

/-- From 2.7 to 3.6 volts. -/
def voltageWindow : UInt32 := 0x00FF8000

/-- The host asks for 1.8 volt signalling, or the card accepts it. -/
def switchTo1v8 : UInt32 := 0x01000000

def fullPower : UInt32 := 0x10000000

/-- The host supports high capacity, or the card has it. -/
def highCapacity : UInt32 := 0x40000000

def ready : UInt32 := 0x80000000

end OperatingConditions

/-- The versions of the SD specification that are told apart. -/
inductive SdVersion where
  /-- Not read yet, or not known. -/
  | unknown
  | v1_0
  | v1_1
  | v2_0
  | v3_0
  | v4_0
  deriving DecidableEq, Repr

def SdVersion.text : SdVersion → String
  | .unknown => "unknown"
  | .v1_0 => "1.0 or 1.01"
  | .v1_1 => "1.10"
  | .v2_0 => "2.00"
  | .v3_0 => "3.0x"
  | .v4_0 => "4.xx"

/-- The configuration register of a card, most significant byte first. -/
structure Scr where
  raw : Vector UInt8 8
  deriving DecidableEq, Repr

namespace Scr

def zero : Scr := ⟨Vector.replicate 8 0⟩

/-- The register as it arrives through the data port, with the first byte in the lowest place of the
first word. -/
def ofPort (first second : UInt32) : Scr :=
  ⟨#v[Word.byte first 0, Word.byte first 1, Word.byte first 2, Word.byte first 3,
    Word.byte second 0, Word.byte second 1, Word.byte second 2, Word.byte second 3]⟩

def spec (s : Scr) : UInt8 := s.raw[0] &&& 0x0F

def busWidths (s : Scr) : UInt8 := s.raw[1] &&& 0x0F

def supportsWideBus (s : Scr) : Bool := s.raw[1] &&& 0x04 != 0

/-- Whether the card is of version 3 or later. -/
def spec3 (s : Scr) : Bool := s.raw[2] &&& 0x80 != 0

/-- Whether the card is of version 4 or later. -/
def spec4 (s : Scr) : Bool := s.raw[2] &&& 0x04 != 0

/-- The version that the card implements. -/
def version (s : Scr) : SdVersion :=
  match s.spec.toNat, s.spec3, s.spec4 with
  | 0, _, _ => .v1_0
  | 1, _, _ => .v1_1
  | 2, false, _ => .v2_0
  | 2, true, false => .v3_0
  | 2, true, true => .v4_0
  | _, _, _ => .unknown

end Scr

/-- What is known about the card in the slot. -/
structure CardInfo where
  hostVersion : UInt32 := 0
  /-- The base clock of the controller in Hz. -/
  baseClock : UInt32 := 0
  /-- The identification of the card, first response register first. -/
  cid : Vector UInt32 4 := Vector.replicate 4 0
  /-- The voltages from the exchange on operating conditions. -/
  ocr : UInt32 := 0
  /-- Whether the card counts in blocks and not in bytes. -/
  highCapacity : Bool := false
  /-- Whether the card has accepted 1.8 volt signalling. -/
  accepts1v8 : Bool := false
  /-- The address of the card. At zero the card has to be enumerated again. -/
  rca : UInt16 := 0
  scr : Scr := .zero
  deriving DecidableEq, Repr

def CardInfo.rcaArgument (c : CardInfo) : UInt32 := c.rca.toUInt32 <<< 16

end Peripherals.Sd
