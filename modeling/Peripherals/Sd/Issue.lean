import Peripherals.Sd.Driver

/-! Issuing a command: the command phase, the response, the blocks of the data phase, and the
completion of the transfer. Each phase ends with a sample of the interrupt status, and a command
succeeds where every sample has the bit that its phase waits for and no error bit. -/

namespace Peripherals.Sd

open RegisterBlock (read write)

/-- The data phase of a command. -/
inductive Transfer where
  | none
  /-- So many words from the card. -/
  | receive (count : Nat)
  /-- These words to the card. -/
  | send (words : Array UInt32)
  deriving DecidableEq, Repr

namespace Transfer

/-- The number of words of a transfer. -/
def size : Transfer → Nat
  | .none => 0
  | .receive count => count
  | .send words => words.size

/-- Whether the words go to the card. -/
def isSend : Transfer → Bool
  | .send _ => true
  | _ => false

end Transfer

/-- Waits for one of the status bits `bits` or an error, samples the status, and clears these bits
and the error bits. -/
def sampleStatus (bits : UInt32) (timeout : UInt32) : Action UInt32 := do
  let _ ← waitRegister .interrupt (bits ||| Interrupt.error) true timeout
  let sample ← read Register.interrupt
  write Register.interrupt (Interrupt.errorMask ||| bits)
  pure sample

/-- Whether a sample has the bits `bits` and no error bit. -/
def isClean (sample bits : UInt32) : Bool := sample &&& (Interrupt.errorMask ||| bits) == bits

/-- Whether a transfer is complete at a sample. A completion outweighs a data timeout that comes
with it. -/
def isComplete (sample : UInt32) : Bool :=
  let seen := sample &&& (Interrupt.errorMask ||| Interrupt.dataDone)
  seen == Interrupt.dataDone || seen == Interrupt.dataTimeout ||| Interrupt.dataDone

/-- Records that the last command failed at `sample` and fails with the reason. -/
def failAt (command : Command) (sample : UInt32) : Action Unit := do
  let error := sample &&& Interrupt.errorMask &&& Interrupt.named
  modifyLast fun o => { o with success := false, error, interrupt := sample }
  throw (if error = 0 then .timeout command else .command command error)

def readResponse (word : CommandWord) : Action Unit :=
  match word.response with
  | .none => pure ()
  | .short | .shortBusy => do
    let r0 ← read Register.response0
    modifyLast fun o => { o with response := #v[r0, 0, 0, 0] }
  | .long => do
    let r0 ← read Register.response0
    let r1 ← read Register.response1
    let r2 ← read Register.response2
    let r3 ← read Register.response3
    modifyLast fun o => { o with response := #v[r0, r1, r2, r3] }

/-- Reads `count` words from the data port, after those in `received`. -/
def receiveWords : (count : Nat) → (received : Array UInt32) → Action (Array UInt32)
  | 0, received => pure received
  | count + 1, received => do
    let word ← read Register.data
    receiveWords count (received.push word)

/-- Writes `count` words to the data port, from the place `index` of `words` on. -/
def sendWords (words : Array UInt32) : (count index : Nat) → Action Unit
  | 0, _ => pure ()
  | count + 1, index => do
    write Register.data (words[index]?.getD 0)
    sendWords words count (index + 1)

/-- What the data phase came to: the words that have arrived, and the sample at which it stopped
short, if it did. -/
structure DataPhase where
  received : Array UInt32
  stoppedAt : Option UInt32
  deriving DecidableEq, Repr

/-- Moves the blocks of `data`, `blocks` of them from the block `first` on. Each block is moved
after a sample with the status bit `ready`. -/
def moveBlocks (data : Transfer) (blockWords : Nat) (ready timeout : UInt32) :
    (blocks first : Nat) → (received : Array UInt32) → Action DataPhase
  | 0, _, received => pure ⟨received, none⟩
  | blocks + 1, first, received => do
    let sample ← sampleStatus ready timeout
    if !isClean sample ready then
      pure ⟨received, some sample⟩
    else
      match data with
      | .none => moveBlocks data blockWords ready timeout blocks (first + 1) received
      | .receive _ =>
        let received ← receiveWords blockWords received
        moveBlocks data blockWords ready timeout blocks (first + 1) received
      | .send words =>
        sendWords words blockWords (first * blockWords)
        moveBlocks data blockWords ready timeout blocks (first + 1) received

def runDataPhase (command : Command) (word : CommandWord) (data : Transfer)
    (blockWords blocks : Nat) (timeout : UInt32) : Action Unit := do
  let ready := if word.isRead then Interrupt.readReady else Interrupt.writeReady
  let phase ← moveBlocks data blockWords ready timeout blocks 0 #[]
  modifyLast fun o => { o with received := phase.received }
  match phase.stoppedAt with
  | some sample => failAt command sample
  | none => pure ()

/-- Waits for the completion of a transfer, or of a busy card. -/
def awaitCompletion (command : Command) (timeout : UInt32) : Action Unit := do
  let sample ← sampleStatus Interrupt.dataDone timeout
  if isComplete sample then
    write Register.interrupt (Interrupt.errorMask ||| Interrupt.dataDone)
  else
    failAt command sample

/-- Waits for the completion of the command itself. -/
def awaitCommand (command : Command) (timeout : UInt32) : Action Unit := do
  let sample ← sampleStatus Interrupt.commandDone timeout
  if !isClean sample Interrupt.commandDone then
    failAt command sample

/-- Runs the data phase of a command that has one. -/
def moveData (command : Command) (word : CommandWord) (data : Transfer)
    (blockWords blocks : Nat) (timeout : UInt32) : Action Unit :=
  if word.hasData then runDataPhase command word data blockWords blocks timeout else pure ()

/-- Waits for the completion of the transfer of a command that ends with one. -/
def awaitTransfer (command : Command) (word : CommandWord) (timeout : UInt32) : Action Unit :=
  if word.waitsForTransfer then awaitCompletion command timeout else pure ()

/-- Starts the command `command` by its word and sees it through. -/
def start (command : Command) (word : CommandWord) (argument timeout : UInt32)
    (data : Transfer) : Action Unit := do
  modifyLast fun _ => { command := some command }
  let d ← get
  let blocks := data.size / d.blockWords
  write Register.blockSizeCount (d.blockSize ||| (UInt32.ofNat blocks <<< 16))
  write Register.argument argument
  write Register.command word.bits
  awaitCommand command timeout
  readResponse word
  moveData command word data d.blockWords blocks timeout
  awaitTransfer command word timeout
  modifyLast fun o => { o with success := true }

/-- Asks a card that has an address for its status, because it has interrupted. -/
def serveCardInterrupt : Action Unit := do
  let d ← get
  if d.card.rca = 0 then
    report .strayCardInterrupt
  else
    let command := Command.sendStatus
    match ← observe (start command command.word d.card.rcaArgument commandTimeout .none) with
    | .ok () =>
      let d ← get
      report (.cardInterrupt d.last.reply)
    | .error e => report (.cardInterruptLost e)

/-- The status bits that are left over from an earlier command and cleared without notice. -/
def staleBits : UInt32 :=
  Interrupt.commandDone ||| Interrupt.dataDone ||| Interrupt.blockGap ||| Interrupt.dma |||
    Interrupt.cardInsertion

def bufferBits : UInt32 := Interrupt.writeReady ||| Interrupt.readReady

/-- Reports what is left over from an earlier command. -/
def noticeStale (status : UInt32) : Action Unit :=
  if hasBits status staleBits then
    report (.spuriousStatus (status &&& staleBits))
  else pure ()

/-- Resets the data lines where a data port is ready that no command waits for. -/
def noticeBuffer (status : UInt32) : Action Unit := do
  if hasBits status bufferBits then
    report .spuriousBuffer
    let _ ← observe (resetLine Control1.resetData)

/-- Takes note of a card that has been removed. -/
def noticeRemoval (status : UInt32) : Action Unit := do
  if hasBits status Interrupt.cardRemoval then
    report .removed
    modify fun d => { d with cardRemoved := true, mediaChanged := true }

/-- Attends to a card that interrupts. -/
def noticeCard (status : UInt32) : Action Unit :=
  if hasBits status Interrupt.card then serveCardInterrupt else pure ()

/-- Clears the status bits that have been noticed, and all error bits where there was an error. -/
def acknowledge (status : UInt32) : Action Unit := do
  let seen := status &&& (staleBits ||| bufferBits ||| Interrupt.cardRemoval ||| Interrupt.card)
  if hasBits status Interrupt.error then
    report (.spuriousError status)
    write Register.interrupt (seen ||| Interrupt.errorMask)
  else
    write Register.interrupt seen

/-- Clears what is left over in the interrupt status before a new command, and notices a card that
has been removed or that interrupts. -/
def sweep : Action Unit := do
  let sample ← read Register.interrupt
  let status := sample &&& Interrupt.named
  noticeStale status
  noticeBuffer status
  noticeRemoval status
  noticeCard status
  acknowledge status

def maxBlocks : Nat := 0xFFFF

/-- Refuses a command that does not exist or that moves too many blocks. -/
def refuseInvalid (command : Command) (data : Transfer) : Action Unit := do
  let d ← get
  if command.word.isReserved then
    report (.invalidCommand command)
    modifyLast fun _ => { command := some command }
    throw (.reservedCommand command)
  else if maxBlocks < data.size / d.blockWords then
    report (.tooManyBlocks command)
    throw .tooManyBlocks
  else pure ()

/-- Refuses any command to a card that has been removed. -/
def refuseRemoved : Action Unit := do
  let d ← get
  if d.cardRemoved then
    forgetAddress
    modifyLast fun o => { o with success := false, received := #[] }
    throw .cardRemoved
  else pure ()

def announce (command : Command) (timeout : UInt32) : Action Unit := do
  let d ← get
  if command.isApplication then
    start .appCommand Command.appCommand.word d.card.rcaArgument timeout .none
  else pure ()

/-- Starts a command, sees it through and reports its failure. -/
def startReported (command : Command) (argument timeout : UInt32) (data : Transfer) :
    Action Unit := do
  match ← observe (start command command.word argument timeout data) with
  | .ok () => pure ()
  | .error e =>
    let d ← get
    report (.commandFailed e d.last.interrupt)
    throw e

/-- Issues `command`, after the interrupt status has been swept. -/
def issue (command : Command) (argument timeout : UInt32) (data : Transfer) : Action Unit := do
  refuseInvalid command data
  sweep
  refuseRemoved
  announce command timeout
  startReported command argument timeout data

/-- Issues a command without a data phase of its own. -/
def issueCommand (command : Command) (argument timeout : UInt32) : Action Unit :=
  issue command argument timeout .none

end Peripherals.Sd
