import Peripherals.Sd.Command

/-! The failures of the SD driver and the status codes of a block device. -/

namespace Peripherals.Sd

/-- Why an operation on the card failed. -/
inductive Error where
  /-- The firmware did not power the slot. -/
  | powerOn
  /-- The controller did not come out of its reset. -/
  | controllerResetTimeout
  | noCard
  /-- The internal clock did not become stable. -/
  | clockStableTimeout
  /-- The command or data lines did not come out of their reset. -/
  | lineResetTimeout
  /-- The lines stayed in use before a change of the clock. -/
  | inhibitTimeout
  | goIdle
  /-- SEND_IF_COND failed, other than by a timeout. -/
  | interfaceCondition
  /-- SEND_IF_COND came back with another check pattern. -/
  | voltageCheck (response : UInt32)
  /-- A card answered IO_SET_OP_COND. -/
  | sdioCard
  /-- The first SD_SEND_OP_COND failed. -/
  | opCondInquiry
  /-- A later SD_SEND_OP_COND failed. -/
  | opCond
  /-- The card was busy at every SD_SEND_OP_COND. -/
  | opCondTimeout
  /-- The switch to 1.8 volts failed twice. -/
  | voltageSwitch
  /-- ALL_SEND_CID failed. -/
  | identify
  | relativeAddress
  /-- The card chose an address, but is not ready or reports an error. -/
  | addressResponse (response : UInt32)
  /-- SELECT_CARD failed. -/
  | select
  /-- The card is in a wrong state after SELECT_CARD. -/
  | selectState (code : UInt32)
  /-- SET_BLOCKLEN failed. -/
  | blockLength
  /-- SEND_SCR failed. -/
  | readScr
  | sendStatus
  | stopTransmission
  /-- The card did not reach the transfer state. -/
  | notInTransferState (code : UInt32)
  | reservedCommand (command : Command)
  /-- The transfer has more blocks than a command can count. -/
  | tooManyBlocks
  | emptyTransfer
  /-- The buffer does not start at a word. -/
  | misalignedBuffer
  | bufferTooSmall
  /-- The byte address of the block is not a word. -/
  | addressOutOfRange
  | cardRemoved
  /-- No status bit came in time. -/
  | timeout (command : Command)
  /-- The controller reported error bits. -/
  | command (command : Command) (error : UInt32)
  /-- Every attempt at a data command failed. -/
  | retriesExhausted
  deriving DecidableEq, Repr

namespace Error

/-- The status code of a failure. -/
def code : Error → Int
  | .powerOn => -1
  | .controllerResetTimeout => -2
  | .noCard => -3
  | .clockStableTimeout => -4
  | .lineResetTimeout => -5
  | .goIdle => -6
  | .interfaceCondition => -7
  | .voltageCheck _ => -8
  | .sdioCard => -9
  | .opCondInquiry => -10
  | .opCond => -11
  | .opCondTimeout => -12
  | .voltageSwitch => -13
  | .identify => -14
  | .relativeAddress => -15
  | .addressResponse _ => -16
  | .select => -17
  | .selectState _ => -18
  | .blockLength => -19
  | .readScr => -20
  | .sendStatus => -21
  | .stopTransmission => -22
  | .notInTransferState _ => -23
  | .reservedCommand _ => -24
  | .tooManyBlocks => -25
  | .emptyTransfer => -26
  | .misalignedBuffer => -27
  | .bufferTooSmall => -28
  | .addressOutOfRange => -29
  | .cardRemoved => -30
  | .timeout _ => -31
  | .command _ _ => -32
  | .retriesExhausted => -33
  | .inhibitTimeout => -34

/-- The wording of a failure. -/
def message : Error → String
  | .powerOn => "slot did not power on"
  | .controllerResetTimeout => "controller did not reset"
  | .noCard => "no card inserted"
  | .clockStableTimeout => "clock did not stabilise"
  | .lineResetTimeout => "CMD/DAT line did not reset"
  | .inhibitTimeout => "CMD/DAT lines stayed busy"
  | .goIdle => "no GO_IDLE_STATE response"
  | .interfaceCondition => "SEND_IF_COND failed"
  | .voltageCheck response =>
    "unusable card (SEND_IF_COND " ++ Text.hexShort response.toNat ++ ")"
  | .sdioCard => "SDIO card not supported"
  | .opCondInquiry => "inquiry ACMD41 failed"
  | .opCond => "ACMD41 failed"
  | .opCondTimeout => "card stayed busy"
  | .voltageSwitch => "1.8V switch failed"
  | .identify => "ALL_SEND_CID failed"
  | .relativeAddress => "SEND_RELATIVE_ADDR failed"
  | .addressResponse response =>
    "bad SEND_RELATIVE_ADDR response " ++ Text.hexShort response.toNat
  | .select => "SELECT_CARD failed"
  | .selectState code => "invalid state " ++ toString code ++ " after SELECT_CARD"
  | .blockLength => "SET_BLOCKLEN failed"
  | .readScr => "SEND_SCR failed"
  | .sendStatus => "SEND_STATUS failed"
  | .stopTransmission => "STOP_TRANSMISSION failed"
  | .notInTransferState code => "card stuck in state " ++ toString code
  | .reservedCommand c => "invalid command " ++ c.name
  | .tooManyBlocks => "block count too large"
  | .emptyTransfer => "zero block transfer"
  | .misalignedBuffer => "buffer not word aligned"
  | .bufferTooSmall => "buffer too small"
  | .addressOutOfRange => "block address out of range"
  | .cardRemoved => "card removed"
  | .timeout c => c.name ++ " timed out"
  | .command c bits => c.name ++ " failed (" ++ Text.hexWord bits ++ ")"
  | .retriesExhausted => "data command failed after retries"

end Error

/-- The status codes of a block device, success apart. -/
inductive BiosError where
  | general
  | writeFault
  | readFault
  | writeProtected
  | mediaChanged
  | unknownDevice
  deriving DecidableEq, Repr

namespace BiosError

/-- The number of a status code. -/
def code : BiosError → Int
  | .general => -1
  | .writeFault => -10
  | .readFault => -11
  | .writeProtected => -13
  | .mediaChanged => -14
  | .unknownDevice => -15

/-- The wording of a status code. -/
def message : BiosError → String
  | .general => "error"
  | .writeFault => "write fault"
  | .readFault => "read fault"
  | .writeProtected => "write protected"
  | .mediaChanged => "media changed"
  | .unknownDevice => "unknown device"

end BiosError

def successCode : Int := 0

end Peripherals.Sd
