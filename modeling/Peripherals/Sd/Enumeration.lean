import Peripherals.Sd.Divider
import Peripherals.Sd.Issue

/-! Bringing a card up: power, the reset of the controller, the clock, and the commands by which a
card is found, identified, addressed and selected. -/

namespace Peripherals.Sd

open RegisterBlock (read write)
open Mailbox (ClockId DeviceId)

/-- The size of a sector in bytes. -/
def sectorSize : UInt32 := 512

def sdioProbeTimeout : UInt32 := 10000

def cardDetectTimeout : UInt32 := 500000

def opCondPause : UInt32 := 500000

/-- The argument of SEND_IF_COND: the voltage range and a check pattern. -/
def interfaceCheck : UInt32 := 0x1AA

def dataTimeoutExponent : UInt32 := 11

def wideBusArgument : UInt32 := 2

/-- The oldest version of the host controller that is not reported as old. -/
def currentHostVersion : UInt32 := 2

/-- Has the firmware power the slot. -/
def powerOn : Action Unit := do
  match ← perform (.setPower .sdCard (Mailbox.PowerRequest.on ||| Mailbox.PowerRequest.wait)) with
  | .ok status =>
    if hasBits status Mailbox.PowerStatus.on && !hasBits status Mailbox.PowerStatus.noDevice then
      pure ()
    else
      report (.notPowered status)
      throw .powerOn
  | .error e =>
    report (.powerRequestFailed e)
    throw .powerOn

/-- Switches the bus voltage off. -/
def powerOff : Action Unit :=
  RegisterBlock.clearBits Register.control0 (Control0.signal1v8 ||| Control0.busVoltage)

/-- The base clock that the firmware reports, or the one in the settings. -/
def baseClock (config : Config) : Action UInt32 := do
  let assume (answer : Except Mailbox.Error UInt32) : Action UInt32 := do
    report (.noBaseClock answer config.defaultBaseClock)
    pure config.defaultBaseClock
  match ← perform (.clockRate .emmc) with
  | .ok rate => if rate = 0 then assume (.ok rate) else pure rate
  | .error e => assume (.error e)

/-- Changes the card clock to no more than `target`, with the card idle and the clock off. -/
def switchClockRate (base target : UInt32) : Action Unit := do
  let field ← orFault (Divider.field? base target)
  match ← waitRegister .status (Status.commandInhibit ||| Status.dataInhibit) false
      lineResetTimeout with
  | .error _ => throw .inhibitTimeout
  | .ok () =>
    let control ← read Register.control1
    let stopped := control &&& ~~~Control1.cardClock
    write Register.control1 stopped
    delay 2000
    let divided := (stopped &&& ~~~Control1.clockField) ||| field
    write Register.control1 divided
    delay 2000
    write Register.control1 (divided ||| Control1.cardClock)
    delay 2000
    report (.cardClock (Divider.rate base field))

/-- The identification clock, the data timeout and the internal clock, over what `control` has
outside these fields. -/
def identificationControl (control base : UInt32) : UInt32 :=
  let control := control &&& ~~~Control1.clockField
  let control := control ||| Control1.internalClock
  let control := control ||| Divider.field base Divider.identificationHz
  (control &&& ~~~Control1.dataTimeout) ||| (dataTimeoutExponent <<< Control1.dataTimeoutShift)

/-- Resets the controller and finds a card in the slot. -/
def resetController : Action Unit := do
  let control ← read Register.control1
  write Register.control1
    ((control ||| Control1.resetHost) &&& ~~~(Control1.cardClock ||| Control1.internalClock))
  match ← waitRegister .control1 Control1.resetAll false lineResetTimeout with
  | .error _ =>
    report .controllerStuck
    throw .controllerResetTimeout
  | .ok () =>
    let _ ← waitRegister .status Status.cardInserted true cardDetectTimeout
    let status ← read Register.status
    if status &&& Status.cardInserted = 0 then
      report .noCard
      throw .noCard

def startClock (base : UInt32) : Action Unit := do
  let control ← read Register.control1
  write Register.control1 (identificationControl control base)
  match ← waitRegister .control1 Control1.clockStable true lineResetTimeout with
  | .error _ =>
    report .clockUnstable
    throw .clockStableTimeout
  | .ok () =>
    delay 2000
    RegisterBlock.setBits Register.control1 Control1.cardClock
    delay 2000

/-- Chooses the interrupt status bits that can be set and clears them all. -/
def prepareInterrupts (config : Config) : Action Unit := do
  write Register.interruptEnable 0
  write Register.interrupt 0xFFFFFFFF
  write Register.interruptMask
    (if config.cardInterrupts then 0xFFFFFFFF else ~~~Interrupt.card)
  delay 2000

/-- Sends SEND_IF_COND. A card older than version 2 does not answer it; the result is whether the
card did. -/
def checkInterfaceCondition : Action Bool := do
  match ← observe (issueCommand .sendIfCond interfaceCheck commandTimeout) with
  | .ok () =>
    let d ← get
    let echo := d.last.reply
    if echo &&& 0xFFF = interfaceCheck then
      pure true
    else
      report (.badEcho echo)
      throw (.voltageCheck echo)
  | .error e =>
    let d ← get
    if d.last.timedOut then
      report .noInterfaceCondition
      pure false
    else if d.last.commandTimeout then
      report .interfaceConditionTimeout
      resetLine Control1.resetCommand
      write Register.interrupt Interrupt.commandTimeout
      pure false
    else
      report (.failed e)
      throw .interfaceCondition

/-- Sends IO_SET_OP_COND, which only an SDIO card answers. -/
def probeSdio : Action Unit := do
  let result ← observe (issueCommand .ioSetOpCond 0 sdioProbeTimeout)
  let d ← get
  if !result.toBool && d.last.timedOut then
    pure ()
  else if d.last.commandTimeout then
    resetLine Control1.resetCommand
    write Register.interrupt Interrupt.commandTimeout
  else
    report .sdioCard
    throw .sdioCard

/-- Whether the driver asks the card for 1.8 volts. -/
def wants1v8 (config : Config) (answered : Bool) (d : Driver) : Bool :=
  answered && config.enable1v8 && !d.switchFailed

/-- The argument of SD_SEND_OP_COND. -/
def opCondArgument (answered want1v8 : Bool) : UInt32 :=
  let modern := OperatingConditions.highCapacity ||| OperatingConditions.fullPower
  OperatingConditions.voltageWindow |||
    ((if answered then modern else 0) ||| (if want1v8 then OperatingConditions.switchTo1v8 else 0))

/-- Sends SD_SEND_OP_COND until the card is ready, at most `polls` times. -/
def pollOpCond (config : Config) (argument : UInt32) (want1v8 : Bool) : (polls : Nat) → Action Unit
  | 0 => do
    report (.stillBusy config.opCondPolls)
    throw .opCondTimeout
  | polls + 1 => do
    orFail (issueCommand .sendOpCond argument commandTimeout) .opCond [.opCondFailed]
    let d ← get
    let response := d.last.reply
    if hasBits response OperatingConditions.ready then
      let ocr := (response >>> 8) &&& 0xFFFF
      let highCapacity := hasBits response OperatingConditions.highCapacity
      let accepts1v8 := want1v8 && hasBits response OperatingConditions.switchTo1v8
      modifyCard fun c => { c with ocr, highCapacity, accepts1v8 }
      report (.opCond ocr highCapacity accepts1v8)
    else
      delay opCondPause
      pollOpCond config argument want1v8 polls

/-- Agrees with the card on voltages and capacity. -/
def negotiateOpCond (config : Config) (answered : Bool) : Action Unit := do
  orFail (issueCommand .sendOpCond 0 commandTimeout) .opCondInquiry [.inquiryFailed]
  let d ← get
  let want := wants1v8 config answered d
  pollOpCond config (opCondArgument answered want) want config.opCondPolls.toNat

def dataLevel : Action UInt32 := do
  let status ← read Register.status
  pure ((status &&& Status.dataLevel) >>> Status.dataLevelShift)

/-- Switches card and controller to 1.8 volts. The result is the step that failed, if one did. -/
def switchTo1v8 : Action (Option SwitchFailure) := do
  match ← observe (issueCommand .voltageSwitch 0 commandTimeout) with
  | .error _ => pure (some .command)
  | .ok () =>
    RegisterBlock.clearBits Register.control1 Control1.cardClock
    let low ← dataLevel
    if low ≠ 0 then
      pure (some .linesHigh)
    else
      RegisterBlock.setBits Register.control0 Control0.signal1v8
      delay 5000
      let control ← read Register.control0
      if !hasBits control Control0.signal1v8 then
        pure (some .signalDropped)
      else
        RegisterBlock.setBits Register.control1 Control1.cardClock
        delay 10000
        let high ← dataLevel
        pure (if high = 0xF then none else some .linesLow)

/-- Has the card send its identification and choose an address. -/
def identify : Action Unit := do
  orFail (issueCommand .allSendCid 0 commandTimeout) .identify []
  let d ← get
  modifyCard fun c => { c with cid := d.last.response }
  orFail (issueCommand .sendRelativeAddr 0 commandTimeout) .relativeAddress []
  let d ← get
  let response : AddressResponse := ⟨d.last.reply⟩
  if response.isUsable then
    modifyCard fun c => { c with rca := response.address }
  else
    report (.badAddressResponse response.raw)
    throw (.addressResponse response.raw)

/-- Selects the card by its address. -/
def select : Action Unit := do
  let d ← get
  orFail (issueCommand .selectCard d.card.rcaArgument commandTimeout) .select []
  let d ← get
  let status : CardStatus := ⟨d.last.reply⟩
  if status.state = .standby ∨ status.state = .transfer then
    pure ()
  else
    report (.badSelectState status.stateCode)
    throw (.selectState status.stateCode)

/-- Sets the size of a block, in the card where that counts in bytes and in the controller. -/
def setBlockSize : Action Unit := do
  let d ← get
  if !d.card.highCapacity then
    orFail (issueCommand .setBlockLength sectorSize commandTimeout) .blockLength []
  let value ← read Register.blockSizeCount
  write Register.blockSizeCount ((value &&& ~~~0xFFF) ||| sectorSize)

/-- Reads the configuration register of the card, which comes as one block of eight bytes. -/
def readScr : Action Unit := do
  modify fun d => { d with blockSize := 8 }
  let result ← observe (issue .sendScr 0 commandTimeout (.receive 2))
  modify fun d => { d with blockSize := sectorSize }
  match result with
  | .error e =>
    report (.failed e)
    throw .readScr
  | .ok () =>
    let d ← get
    let word (i : Nat) := d.last.received[i]?.getD 0
    let scr := Scr.ofPort (word 0) (word 1)
    modifyCard fun c => { c with scr }
    report (.scr scr.raw)

/-- Switches card and controller to four data lines, with card interrupts masked meanwhile. -/
def switchBusWidth : Action Unit := do
  let mask ← read Register.interruptMask
  write Register.interruptMask (mask &&& ~~~Interrupt.card)
  match ← observe (issueCommand .setBusWidth wideBusArgument commandTimeout) with
  | .ok () =>
    RegisterBlock.setBits Register.control0 Control0.wideBus
    report .wideBus
  | .error e => report (.wideBusFailed e)
  write Register.interruptMask mask

/-- Forgets the card that was in the slot, and the command that was last. -/
def forgetCard (base : UInt32) : Action Unit :=
  modify fun d =>
    { d with
      card := { hostVersion := d.card.hostVersion, baseClock := base }
      last := {}
      blockSize := sectorSize
      cardRemoved := false }

/-- Switches to four data lines where the card can and the settings allow it. -/
def widenBus (config : Config) : Action Unit := do
  let d ← get
  if d.card.scr.supportsWideBus && config.enableWideBus then switchBusWidth else pure ()

/-- Takes a card that has an address to the transfer state and prepares it for transfers. -/
def prepareCard (config : Config) : Action Unit := do
  select
  setBlockSize
  readScr
  widenBus config
  let d ← get
  report (.cardReady d.card.scr.version d.card.rca d.card.highCapacity)
  write Register.interrupt 0xFFFFFFFF

/-- Takes a card that has agreed to the operating conditions to the transfer state. -/
def bringUp (config : Config) : Action Unit := do
  identify
  prepareCard config

/-- Reports a card that works at 1.8 volts. -/
def reportVoltage : Action Unit := do
  let d ← get
  if d.card.accepts1v8 then report .lowVoltage else pure ()

/-- Brings up a card that has agreed to the operating conditions, unless the switch to 1.8 volts
failed. -/
def finishReset (config : Config) (failure : Option SwitchFailure) :
    Action (Option SwitchFailure) := do
  match failure with
  | some step => pure (some step)
  | none =>
    reportVoltage
    bringUp config
    pure none

/-- Resets the controller and makes it ready for commands. The result is the base clock. -/
def prepareController (config : Config) : Action UInt32 := do
  resetController
  write Register.control2 0
  let base ← baseClock config
  startClock base
  prepareInterrupts config
  pure base

/-- Finds a card and agrees with it on the operating conditions. The result is the step at which the
switch to 1.8 volts failed, if it did. -/
def negotiate (config : Config) (base : UInt32) : Action (Option SwitchFailure) := do
  orFail (issueCommand .goIdleState 0 commandTimeout) .goIdle [.noGoIdle]
  let answered ← checkInterfaceCondition
  probeSdio
  negotiateOpCond config answered
  switchClockRate base Divider.normalHz
  delay 5000
  let d ← get
  if d.card.accepts1v8 then switchTo1v8 else pure none

/-- Resets the controller and enumerates the card. The result is the step at which the switch to 1.8
volts failed, if it did; otherwise the card is ready. -/
def resetOnce (config : Config) : Action (Option SwitchFailure) := do
  let base ← prepareController config
  forgetCard base
  let failure ← negotiate config base
  finishReset config failure

/-- Attempts a reset up to `attempts` times, each after a switch to 1.8 volts that failed. The bus
is powered down in between, and 1.8 volts is not asked for again. -/
def resetAttempts (config : Config) : (attempts : Nat) → Action Unit
  | 0 => throw .voltageSwitch
  | attempts + 1 => do
    match ← resetOnce config with
    | none => pure ()
    | some failure =>
      report (.switchFailed failure)
      modify fun d => { d with switchFailed := true }
      powerOff
      resetAttempts config attempts

/-- Resets the controller and enumerates the card, and starts over once at 3.3 volts where the
switch to 1.8 volts fails. -/
def cardReset (config : Config) : Action Unit := resetAttempts config 2

/-- Powers the slot, reads the version of the controller and enumerates the card. -/
def init (config : Config) : Action Unit := do
  modify fun d => { d with switchFailed := false }
  powerOn
  let version ← read Register.version
  let hostVersion := (version >>> 16) &&& 0xFF
  modifyCard fun c => { c with hostVersion }
  report (.hostVersion (version >>> 24) hostVersion (version &&& 0xFF))
  if hostVersion < currentHostVersion then
    report (.oldHost hostVersion)
  cardReset config

end Peripherals.Sd
