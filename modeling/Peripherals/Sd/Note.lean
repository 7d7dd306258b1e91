import Peripherals.Log.Level
import Peripherals.Mailbox.Error
import Peripherals.Mailbox.Tag
import Peripherals.Sd.Card
import Peripherals.Sd.Error
import Peripherals.Sd.Register

/-! What the SD driver reports of its work. -/

namespace Peripherals.Sd

/-- The step at which the switch to 1.8 volts failed. -/
inductive SwitchFailure where
  /-- The card did not take the command. -/
  | command
  /-- The data lines stayed high while the clock was off. -/
  | linesHigh
  /-- The controller switched itself back. -/
  | signalDropped
  /-- The data lines stayed low after the clock was back. -/
  | linesLow
  deriving DecidableEq, Repr

/-- The wording of a failed step. -/
def SwitchFailure.message : SwitchFailure → String
  | .command => "VOLTAGE_SWITCH failed"
  | .linesHigh => "DAT[3:0] did not settle to 0"
  | .signalDropped => "controller dropped 1.8V signal enable"
  | .linesLow => "DAT[3:0] did not settle to 1111b"

/-- A report of the driver. -/
inductive Note where
  | hostVersion (vendor host slot : UInt32)
  | oldHost (version : UInt32)
  | notPowered (status : UInt32)
  | powerRequestFailed (error : Mailbox.Error)
  | noBaseClock (answer : Except Mailbox.Error UInt32) (assumed : UInt32)
  | cardClock (hz : UInt32)
  | lineStuck (reset : UInt32)
  | invalidCommand (command : Command)
  | tooManyBlocks (command : Command)
  | commandFailed (error : Error) (sample : UInt32)
  | spuriousStatus (bits : UInt32)
  | spuriousBuffer
  | removed
  | strayCardInterrupt
  | cardInterrupt (status : UInt32)
  | cardInterruptLost (error : Error)
  | spuriousError (bits : UInt32)
  | switchFailed (failure : SwitchFailure)
  | controllerStuck
  | noCard
  | clockUnstable
  | lowVoltage
  | noGoIdle
  | badAddressResponse (response : UInt32)
  | badSelectState (code : UInt32)
  | cardReady (version : SdVersion) (rca : UInt16) (highCapacity : Bool)
  | badEcho (response : UInt32)
  | noInterfaceCondition
  | interfaceConditionTimeout
  | failed (error : Error)
  | sdioCard
  | inquiryFailed
  | opCondFailed
  | opCond (ocr : UInt32) (highCapacity accepts1v8 : Bool)
  | stillBusy (polls : UInt32)
  | scr (raw : Vector UInt8 8)
  | wideBus
  | wideBusFailed (error : Error)
  | selectFailed
  | stopFailed
  | stuckInState (code : UInt32)
  | statusFailed (error : Error)
  | statusErrors (status : UInt32)
  | attemptFailed (command : Command) (attempt attempts : Nat) (error : Error)
  | givingUp (command : Command) (block : UInt32)
  | writeRefused (count : UInt16) (sector : UInt32)
  | badBuffer (error : Error)
  | requestFailed (sector : UInt32) (count : UInt16) (error : Error)
  | unready (error : Error)
  | unsupported (code : UInt16)

namespace Note

/-- How severe a report is. -/
def level : Note → Log.Level
  | .spuriousStatus _ => .trace
  | .hostVersion _ _ _ | .cardClock _ | .commandFailed _ _ | .spuriousBuffer
  | .strayCardInterrupt | .cardInterrupt _ | .spuriousError _ | .opCond _ _ _ | .scr _
  | .statusErrors _ | .unready _ | .unsupported _ => .debug
  | .removed | .lowVoltage | .cardReady _ _ _ | .wideBus => .info
  | .oldHost _ | .noBaseClock _ _ | .lineStuck _ | .invalidCommand _ | .tooManyBlocks _
  | .cardInterruptLost _ | .switchFailed _ | .noInterfaceCondition | .interfaceConditionTimeout
  | .wideBusFailed _ | .selectFailed | .stopFailed | .stuckInState _ | .statusFailed _
  | .attemptFailed _ _ _ _ | .writeRefused _ _ | .requestFailed _ _ _ => .warn
  | .notPowered _ | .powerRequestFailed _ | .controllerStuck | .noCard | .clockUnstable
  | .noGoIdle | .badAddressResponse _ | .badSelectState _ | .badEcho _ | .failed _ | .sdioCard
  | .inquiryFailed | .opCondFailed | .stillBusy _ | .givingUp _ _ | .badBuffer _ => .error

/-- The text of the firmware's answer to a query. -/
def describeAnswer : Except Mailbox.Error UInt32 → String
  | .ok value => "Ok(" ++ toString value ++ ")"
  | .error e => "Err(" ++ e.describe ++ ")"

/-- The wording of a report, without the name of the driver. -/
def text : Note → String
  | .hostVersion vendor host slot =>
    "vendor " ++ Text.hexShort vendor.toNat ++ ", SDHCI version " ++ Text.hexShort host.toNat ++
      ", slot status " ++ Text.hexShort slot.toNat
  | .oldHost version => "old SDHCI version " ++ toString version
  | .notPowered status =>
    "slot did not power on (" ++ Text.flags "PowerStatus" Mailbox.PowerStatus.names status ++ ")"
  | .powerRequestFailed e => "power request failed: " ++ e.message
  | .noBaseClock answer assumed =>
    "no base clock from firmware (" ++ describeAnswer answer ++ "), assuming " ++
      toString assumed ++ " Hz"
  | .cardClock hz => "card clock " ++ toString hz ++ " Hz"
  | .lineStuck bit => Control1.describe bit ++ " line did not reset"
  | .invalidCommand c => "invalid command " ++ c.name
  | .tooManyBlocks c => c.name ++ " with more than 65535 blocks"
  | .commandFailed e sample => e.message ++ " (irq " ++ Text.hexWord sample ++ ")"
  | .spuriousStatus bits => "spurious status " ++ Interrupt.describe bits
  | .spuriousBuffer => "spurious buffer ready"
  | .removed => "card removed"
  | .strayCardInterrupt => "card interrupt with no card selected"
  | .cardInterrupt status => "card interrupt, status " ++ Text.hexWord status
  | .cardInterruptLost e => "card interrupt, no status: " ++ e.message
  | .spuriousError bits => "spurious error status " ++ Interrupt.describe bits
  | .switchFailed failure => "1.8V switch failed (" ++ failure.message ++ "), retrying at 3.3V"
  | .controllerStuck => "controller did not reset"
  | .noCard => "no card inserted"
  | .clockUnstable => "clock did not stabilise"
  | .lowVoltage => "1.8V signalling enabled"
  | .noGoIdle => "no GO_IDLE_STATE response"
  | .badAddressResponse response => "SEND_RELATIVE_ADDR response " ++ Text.hexWord response
  | .badSelectState code => "invalid state " ++ toString code ++ " after SELECT_CARD"
  | .cardReady version rca highCapacity =>
    "SD " ++ version.text ++ " card, RCA 0x" ++ Text.hexFixed 4 rca.toNat ++ ", " ++
      (if highCapacity then "SDHC" else "SDSC")
  | .badEcho response => "unusable card, SEND_IF_COND echoed " ++ Text.hexShort response.toNat
  | .noInterfaceCondition => "no SEND_IF_COND response, assuming SD 1.x card"
  | .interfaceConditionTimeout => "SEND_IF_COND timed out, assuming SD 1.x card"
  | .failed e => e.message
  | .sdioCard => "SDIO card detected, not supported"
  | .inquiryFailed => "inquiry ACMD41 failed"
  | .opCondFailed => "ACMD41 failed"
  | .opCond ocr highCapacity accepts1v8 =>
    "OCR 0x" ++ Text.hexFixed 4 ocr.toNat ++ ", SDHC " ++ toString highCapacity ++ ", 1.8V " ++
      toString accepts1v8
  | .stillBusy polls => "card still busy after " ++ toString polls ++ " ACMD41 polls"
  | .scr raw => "SCR " ++ Text.hexList raw.toList
  | .wideBus => "4-bit data bus"
  | .wideBusFailed e => "switch to 4-bit bus failed: " ++ e.message
  | .selectFailed => "SELECT_CARD failed"
  | .stopFailed => "STOP_TRANSMISSION failed"
  | .stuckInState code => "card stuck in state " ++ toString code
  | .statusFailed e => "SEND_STATUS: " ++ e.message
  | .statusErrors status => "card status " ++ Text.hexWord status ++ " reports errors"
  | .attemptFailed c attempt attempts e =>
    c.name ++ " attempt " ++ toString attempt ++ "/" ++ toString attempts ++ ": " ++ e.message
  | .givingUp c block => "giving up on " ++ c.name ++ " at block " ++ toString block
  | .writeRefused count sector =>
    "refusing write of " ++ toString count ++ " sectors at " ++ toString sector
  | .badBuffer e => "bad request buffer: " ++ e.message
  | .requestFailed sector count e =>
    "sector " ++ toString sector ++ " x" ++ toString count ++ ": " ++ e.message
  | .unready e => "ioctl on unready card: " ++ e.message
  | .unsupported code => "unsupported ioctl " ++ toString code

def message (n : Note) : String := "emmc: " ++ n.text

end Note

end Peripherals.Sd
