import Peripherals.Sd.DataMode
import Peripherals.Text.Bounded

/-! The card as a block device: reading and writing sectors, and the control requests. -/

namespace Peripherals.Sd

def diskBlocks : UInt32 := 31250000

def sectorWords : Nat := sectorSize.toNat / 4

/-- Which way the sectors of a request go. -/
inductive Direction where
  | read
  | write
  deriving DecidableEq, Repr

/-- The buffer of a request, at an address. -/
structure Buffer where
  address : Nat
  bytes : Array UInt8
  deriving DecidableEq, Repr

namespace Buffer

def isAligned (b : Buffer) : Bool := b.address % 4 == 0

/-- Why the buffer cannot take `size` bytes as words, if it cannot. -/
def unusable? (b : Buffer) (size : Nat) : Option Error :=
  if b.bytes.size < size then some .bufferTooSmall
  else if !b.isAligned then some .misalignedBuffer
  else none

def words (b : Buffer) (count : Nat) : Array UInt32 := Word.arrayOfBytes count b.bytes

/-- The buffer with `ws` stored over its first words. -/
def overlay (b : Buffer) (ws : Array UInt32) : Buffer :=
  { b with bytes := Word.overlay ws b.bytes }

end Buffer

def Direction.transfer (direction : Direction) (buffer : Buffer) (words : Nat) : Transfer :=
  match direction with
  | .read => .receive words
  | .write => .send (buffer.words words)

/-- The argument that addresses `block`. A card of high capacity counts in blocks, any other in
bytes, which must fit in a word. -/
def blockAddress (highCapacity : Bool) (block : UInt32) : Option UInt32 :=
  if highCapacity then some block
  else if block.toNat * sectorSize.toNat ≤ 0xFFFFFFFF then some (block * sectorSize)
  else none

def dataCommand (isWrite : Bool) (blocks : Nat) : Command :=
  match isWrite, decide (1 < blocks) with
  | true, true => .writeMultipleBlock
  | true, false => .writeBlock
  | false, true => .readMultipleBlock
  | false, false => .readSingleBlock

/-- The words `new` over the first of the words `old`. -/
def cover (new old : Array UInt32) : Array UInt32 := new ++ old.extract new.size old.size

/-- Attempts a data command until it succeeds, `left` more times after `made` attempts. Every
attempt starts over with the whole transfer. The result is whether one has succeeded, and the words
that have arrived in all, the later over the earlier. -/
def attemptData (command : Command) (address timeout : UInt32) (data : Transfer) (attempts : Nat) :
    (left made : Nat) → (arrived : Array UInt32) → Step (Bool × Array UInt32)
  | 0, _, arrived => pure (false, arrived)
  | left + 1, made, arrived => do
    let result ← (issue command address timeout data).run
    let d ← get
    let arrived := cover d.last.received arrived
    match result with
    | .ok () => pure (true, arrived)
    | .error e =>
      say (.attemptFailed command (made + 1) attempts e)
      attemptData command address timeout data attempts left (made + 1) arrived

/-- Moves the blocks of `data` from or to the card, from `block` on. The result is how it ended, and
the words that have arrived. -/
def transferBlocks (config : Config) (data : Transfer) (block : UInt32) :
    Step (Except Error Unit × Array UInt32) := do
  let d ← get
  match blockAddress d.card.highCapacity block with
  | none => pure (.error .addressOutOfRange, #[])
  | some address =>
    let blocks := data.size / sectorWords
    if blocks < 1 then
      pure (.error .emptyTransfer, #[])
    else
      let command := dataCommand data.isSend blocks
      let attempts := max config.maxRetries.toNat 1
      let (done, arrived) ←
        attemptData command address config.dataTimeout data attempts attempts 0 #[]
      if done then
        pure (.ok (), arrived)
      else
        say (.givingUp command block)
        modify fun d => { d with card := { d.card with rca := 0 } }
        pure (.error .retriesExhausted, arrived)

/-- Brings the card to the transfer state and moves the blocks of `data`. -/
def accessBlocks (config : Config) (data : Transfer) (block : UInt32) :
    Step (Except Error Unit × Array UInt32) := do
  match ← (ensureDataMode config).run with
  | .error e => pure (.error e, #[])
  | .ok () => transferBlocks config data block

/-- The status code of a transfer that failed. -/
def Direction.fault : Direction → BiosError
  | .read => .readFault
  | .write => .writeFault

/-- Reads or writes `count` sectors from `sector` on. The result is the status, and the buffer as it
is afterwards: where a read fails, it can hold what has arrived. -/
def readWrite (config : Config) (direction : Direction) (buffer : Buffer) (sector : UInt32)
    (count device : UInt16) : Step (Except BiosError Unit × Buffer) := do
  let words := count.toNat * sectorWords
  if device ≠ 0 then
    pure (.error .unknownDevice, buffer)
  else if count = 0 then
    pure (.ok (), buffer)
  else if direction = .write ∧ config.writeProtect then
    say (.writeRefused count sector)
    pure (.error .writeProtected, buffer)
  else if let some e := buffer.unusable? (4 * words) then
    say (.badBuffer e)
    pure (.error .general, buffer)
  else
    let (result, arrived) ← accessBlocks config (direction.transfer buffer words) sector
    let buffer := buffer.overlay arrived
    match result with
    | .ok () => pure (.ok (), buffer)
    | .error e =>
      say (.requestFailed sector count e)
      pure (.error direction.fault, buffer)

/-- The control requests. -/
inductive IoctlRequest where
  | diskInfo
  | diskName
  /-- Whether the medium has changed since the last question. -/
  | mediaChange
  | other (code : UInt16)
  deriving DecidableEq, Repr

def IoctlRequest.ofCode (code : UInt16) : IoctlRequest :=
  if code = 0 then .diskInfo
  else if code = 1 then .diskName
  else if code = 2 then .mediaChange
  else .other code

/-- Whether the medium has changed. -/
inductive MediaState where
  | unchanged
  | changed
  deriving DecidableEq, Repr

def MediaState.code : MediaState → Int
  | .unchanged => 0
  | .changed => 2

/-- The answer to a control request. -/
inductive IoctlResponse where
  | diskInfo (blocks blockSize : UInt32)
  | diskName (name : String)
  | mediaChange (state : MediaState)
  deriving DecidableEq, Repr

/-- The most bytes that the name of a disk has. -/
def nameCapacity : Nat := 32

/-- The name of a disk: its identification in hexadecimal, the last register first, where it
fits. -/
def diskName? (cid : Vector UInt32 4) : Option String :=
  Text.concat? nameCapacity (cid.toList.reverse.map fun r => Text.hexAtLeast 8 r.toNat)

/-- Answers a control request in the state that the card is in. While a card is out of the slot
every request but the one for a change is refused. -/
def answerRequest (request : IoctlRequest) : Step (Except BiosError IoctlResponse) := do
  let d ← get
  if d.cardRemoved then
    match request with
    | .mediaChange =>
      set { d with mediaChanged := false }
      pure (.ok (.mediaChange .changed))
    | _ => pure (.error .mediaChanged)
  else
    match request with
    | .diskInfo => pure (.ok (.diskInfo diskBlocks sectorSize))
    | .diskName =>
      match diskName? d.card.cid with
      | some name => pure (.ok (.diskName name))
      | none => pure (.error .general)
    | .mediaChange =>
      set { d with mediaChanged := false }
      pure (.ok (.mediaChange (if d.mediaChanged then .changed else .unchanged)))
    | .other code =>
      say (.unsupported code)
      pure (.error .general)

/-- Answers a control request after an attempt to bring the card to the transfer state. -/
def ioctl (config : Config) (device : UInt16) (request : IoctlRequest) :
    Step (Except BiosError IoctlResponse) := do
  if device ≠ 0 then
    pure (.error .unknownDevice)
  else
    match ← (ensureDataMode config).run with
    | .error e => say (.unready e)
    | .ok () => pure ()
    answerRequest request

end Peripherals.Sd
