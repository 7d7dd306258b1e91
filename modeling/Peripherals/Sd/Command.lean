import Peripherals.Text.Hex

/-! The commands of the SD protocol and the words that start them. -/

namespace Peripherals.Sd

/-- The shape of a card's response. -/
inductive ResponseType where
  | none
  /-- 136 bits, in all four response registers. -/
  | long
  /-- 48 bits, in the first response register. -/
  | short
  /-- 48 bits, after which the card signals that it is busy. -/
  | shortBusy
  deriving DecidableEq, Repr

/-! The fields of a command word. -/

namespace CommandField

def abort : UInt32 := 0x00C00000

def hasData : UInt32 := 0x00200000

def checked : UInt32 := 0x00080000

def responseMask : UInt32 := 0x00030000

def longResponse : UInt32 := 0x00010000
def shortResponse : UInt32 := 0x00020000
def busyResponse : UInt32 := 0x00030000

/-- A transfer of several blocks, counted, with the stop command sent after the last. -/
def multiBlock : UInt32 := 0x00000026

def cardToHost : UInt32 := 0x00000010

def r1 : UInt32 := shortResponse ||| checked

/-- A short response with a checksum, after which the card may be busy. -/
def r1Busy : UInt32 := busyResponse ||| checked

def r2 : UInt32 := longResponse ||| checked

def dataRead : UInt32 := hasData ||| cardToHost

def dataWrite : UInt32 := hasData

end CommandField

/-- The word that starts a command, or the marker of a command that does not exist. -/
structure CommandWord where
  bits : UInt32
  deriving DecidableEq, Repr

namespace CommandWord

/-- The marker of a command that must never be issued. -/
def reserved : CommandWord := ⟨0xFFFFFFFF⟩

def encode (index : Nat) (fields : UInt32) : CommandWord :=
  ⟨(UInt32.ofNat index <<< 24) ||| fields⟩

/-- Whether the word is the marker. -/
def isReserved (w : CommandWord) : Bool := w == reserved

def response (w : CommandWord) : ResponseType :=
  let field := w.bits &&& CommandField.responseMask
  if field = CommandField.longResponse then .long
  else if field = CommandField.shortResponse then .short
  else if field = CommandField.busyResponse then .shortBusy
  else .none

def hasData (w : CommandWord) : Bool := w.bits &&& CommandField.hasData != 0

def isRead (w : CommandWord) : Bool := w.bits &&& CommandField.cardToHost != 0

def waitsForTransfer (w : CommandWord) : Bool := w.hasData || w.response == .shortBusy

/-- A short description of a word for diagnostics. -/
def describe (w : CommandWord) : String :=
  if w.isReserved then "CommandWord(reserved)" else "CommandWord(" ++ Text.hexWord w.bits ++ ")"

end CommandWord

open CommandField in
/-- The fields of the standard command with this index, if there is one. -/
def standardFields? : (index : Nat) → Option UInt32
  | 0 => some 0
  | 2 => some r2
  | 3 => some r1
  | 4 => some 0
  | 5 => some longResponse
  | 6 => some r1
  | 7 => some r1Busy
  | 8 => some r1
  | 9 => some r2
  | 10 => some r2
  | 11 => some r1
  | 12 => some (r1Busy ||| abort)
  | 13 => some r1
  | 15 => some 0
  | 16 => some r1
  | 17 => some (r1 ||| dataRead)
  | 18 => some (r1 ||| dataRead ||| multiBlock)
  | 19 => some (r1 ||| dataRead)
  | 20 => some r1Busy
  | 23 => some r1
  | 24 => some (r1 ||| dataWrite)
  | 25 => some (r1 ||| dataWrite ||| multiBlock)
  | 27 => some (r1 ||| dataWrite)
  | 28 => some r1Busy
  | 29 => some r1Busy
  | 30 => some (r1 ||| dataRead)
  | 32 => some r1
  | 33 => some r1
  | 38 => some r1Busy
  | 55 => some r1
  | 56 => some (r1 ||| hasData)
  | _ => none

open CommandField in
/-- The fields of the application command with this index, if there is one. -/
def applicationFields? : (index : Nat) → Option UInt32
  | 6 => some r1
  | 13 => some r1
  | 22 => some (r1 ||| dataRead)
  | 23 => some r1
  | 41 => some shortResponse
  | 42 => some r1
  | 51 => some (r1 ||| dataRead)
  | _ => none

/-- A command number. The top bit sets application commands apart from standard ones. -/
structure Command where
  number : UInt32
  deriving DecidableEq, Repr

namespace Command

def applicationBit : UInt32 := 0x80000000

def standard (index : UInt32) : Command := ⟨index⟩

def application (index : UInt32) : Command := ⟨index ||| applicationBit⟩

/-- The index of the command, without the bit of application commands. -/
def index (c : Command) : UInt32 := c.number &&& ~~~applicationBit

def isApplication (c : Command) : Bool := c.number &&& applicationBit != 0

/-- The word that starts the command, or the marker where there is no such command. -/
def word (c : Command) : CommandWord :=
  let index := c.index.toNat
  match if c.isApplication then applicationFields? index else standardFields? index with
  | some fields => .encode index fields
  | none => .reserved

/-- The usual short name of the command, such as `CMD17`. -/
def name (c : Command) : String :=
  (if c.isApplication then "ACMD" else "CMD") ++ toString c.index

def goIdleState : Command := standard 0
def allSendCid : Command := standard 2
def sendRelativeAddr : Command := standard 3
def ioSetOpCond : Command := standard 5
def selectCard : Command := standard 7
def sendIfCond : Command := standard 8
def voltageSwitch : Command := standard 11
def stopTransmission : Command := standard 12
def sendStatus : Command := standard 13
def setBlockLength : Command := standard 16
def readSingleBlock : Command := standard 17
def readMultipleBlock : Command := standard 18
def writeBlock : Command := standard 24
def writeMultipleBlock : Command := standard 25

def appCommand : Command := standard 55

def setBusWidth : Command := application 6
def sendOpCond : Command := application 41
def sendScr : Command := application 51

end Command

end Peripherals.Sd
