import Peripherals.Text.Flags

/-! The registers of the SD host controller and the bits in them. -/

namespace Peripherals.Sd

/-- The registers that the driver uses. -/
inductive Register where
  /-- The size of a block and the number of blocks of a command. -/
  | blockSizeCount
  | argument
  /-- The command word; writing it starts the command. -/
  | command
  | response0
  | response1
  | response2
  | response3
  /-- The data port: one word of a block at a time. -/
  | data
  | status
  | control0
  | control1
  /-- The interrupt status; a bit is cleared by writing a one. -/
  | interrupt
  /-- Which interrupt status bits can be set. -/
  | interruptMask
  /-- Which interrupt status bits reach the processor. -/
  | interruptEnable
  | control2
  | version
  deriving DecidableEq, Repr

/-- The byte offset of a register in the block. -/
def Register.offset : Register → Nat
  | .blockSizeCount => 0x04
  | .argument => 0x08
  | .command => 0x0C
  | .response0 => 0x10
  | .response1 => 0x14
  | .response2 => 0x18
  | .response3 => 0x1C
  | .data => 0x20
  | .status => 0x24
  | .control0 => 0x28
  | .control1 => 0x2C
  | .interrupt => 0x30
  | .interruptMask => 0x34
  | .interruptEnable => 0x38
  | .control2 => 0x3C
  | .version => 0xFC

/-! The bits of the status register. -/

namespace Status

def commandInhibit : UInt32 := 0x00000001

def dataInhibit : UInt32 := 0x00000002

def cardInserted : UInt32 := 0x00010000

def dataLevel : UInt32 := 0x00F00000

def dataLevelShift : UInt32 := 20

end Status

/-! The bits of the first control register. -/

namespace Control0

def wideBus : UInt32 := 0x00000002

/-- Signalling at 1.8 volts. -/
def signal1v8 : UInt32 := 0x00000100

def busVoltage : UInt32 := 0x00000E00

end Control0

/-! The bits of the second control register. -/

namespace Control1

def internalClock : UInt32 := 0x00000001

def clockStable : UInt32 := 0x00000002

def cardClock : UInt32 := 0x00000004

def clockField : UInt32 := 0x0000FFE0

def dataTimeout : UInt32 := 0x000F0000

def dataTimeoutShift : UInt32 := 16

def resetHost : UInt32 := 0x01000000

def resetCommand : UInt32 := 0x02000000

def resetData : UInt32 := 0x04000000

def resetAll : UInt32 := 0x07000000

/-- The bits with their names. -/
def names : List (UInt32 × String) :=
  [(internalClock, "CLK_INTLEN"), (clockStable, "CLK_STABLE"), (cardClock, "CLK_EN"),
    (resetHost, "SRST_HC"), (resetCommand, "SRST_CMD"), (resetData, "SRST_DATA")]

def describe (bits : UInt32) : String := Text.flags "Control1" names bits

end Control1

/-! The bits of the interrupt status. -/

namespace Interrupt

def commandDone : UInt32 := 0x00000001
def dataDone : UInt32 := 0x00000002
def blockGap : UInt32 := 0x00000004
def dma : UInt32 := 0x00000008
def writeReady : UInt32 := 0x00000010
def readReady : UInt32 := 0x00000020
def cardInsertion : UInt32 := 0x00000040
def cardRemoval : UInt32 := 0x00000080
def card : UInt32 := 0x00000100

def error : UInt32 := 0x00008000

def commandTimeout : UInt32 := 0x00010000
def commandCrc : UInt32 := 0x00020000
def commandEndBit : UInt32 := 0x00040000
def commandIndex : UInt32 := 0x00080000
def dataTimeout : UInt32 := 0x00100000
def dataCrc : UInt32 := 0x00200000
def dataEndBit : UInt32 := 0x00400000
def currentLimit : UInt32 := 0x00800000
def autoCommand : UInt32 := 0x01000000
def adma : UInt32 := 0x02000000
def tuning : UInt32 := 0x04000000

def errorMask : UInt32 := 0xFFFF0000

/-- The bits with their names. -/
def names : List (UInt32 × String) :=
  [(commandDone, "CMD_DONE"), (dataDone, "DATA_DONE"), (blockGap, "BLOCK_GAP"), (dma, "DMA"),
    (writeReady, "WRITE_RDY"), (readReady, "READ_RDY"), (cardInsertion, "CARD_INSERTION"),
    (cardRemoval, "CARD_REMOVAL"), (card, "CARD"), (error, "ERR"), (commandTimeout, "CTO_ERR"),
    (commandCrc, "CCRC_ERR"), (commandEndBit, "CEND_ERR"), (commandIndex, "CBAD_ERR"),
    (dataTimeout, "DTO_ERR"), (dataCrc, "DCRC_ERR"), (dataEndBit, "DEND_ERR"),
    (currentLimit, "CURRENT_LIMIT"), (autoCommand, "ACMD_ERR"), (adma, "ADMA_ERR"),
    (tuning, "TUNING_ERR")]

def named : UInt32 := 0x07FF81FF

def describe (bits : UInt32) : String := Text.flags "Interrupt" names bits

end Interrupt

end Peripherals.Sd
