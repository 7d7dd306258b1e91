import Peripherals.Address
import Peripherals.Log.Level
import Peripherals.Mailbox.Error
import Peripherals.Mailbox.Tag
import Peripherals.Register

/-! Transactions with the firmware. A request is written to a buffer in memory: its size in bytes, a
code word, the records, and an end marker. The address of the buffer is posted in a message, and the
firmware rewrites the buffer and echoes the message. A message is a payload of 28 bits over the
number of a channel. -/

namespace Peripherals

/-- A mailbox: where its buffer is, the window through which the firmware sees it, and how often a
status register is polled before the firmware is taken to be stuck. -/
structure Mailbox where
  buffer : PhysAddr
  window : UInt32
  patience : Nat
  deriving DecidableEq, Repr

namespace Mailbox

-- So that the type can be named as `Mailbox.Mailbox`, beside `Mailbox.Error` and `Mailbox.Tag`.
export Peripherals (Mailbox)

/-- The registers of the mailbox. -/
inductive Register where
  /-- The oldest message from the firmware. -/
  | inbox
  | inboxStatus
  /-- Messages to the firmware. -/
  | outbox
  | outboxStatus
  deriving DecidableEq, Repr

/-- The byte offset of a register in the block. -/
def Register.offset : Register → Nat
  | .inbox => 0x00
  | .inboxStatus => 0x18
  | .outbox => 0x20
  | .outboxStatus => 0x38

def emptyBit : UInt32 := 0x40000000

def fullBit : UInt32 := 0x80000000

def propertyChannel : UInt32 := 8

def requestCode : UInt32 := 0x00000000

/-- The code word of a request that the firmware has carried out. -/
def successCode : UInt32 := 0x80000000

/-- The size of the buffer in words. -/
def bufferWords : Nat := 1024

/-- The size and code words in front of the records. -/
def headerWords : Nat := 2

/-- What the mailbox reports. -/
inductive Note where
  /-- A message for another channel was dropped. -/
  | dropped (message : UInt32)
  | mismatch (sent received : UInt32)
  | refused (code : UInt32)
  deriving DecidableEq, Repr

/-- How severe a report is. -/
def Note.level : Note → Log.Level
  | .dropped _ => .trace
  | .mismatch _ _ => .error
  | .refused _ => .warn

/-- The wording of a report. -/
def Note.message : Note → String
  | .dropped message =>
    "mbox: dropping " ++ Text.hexWord message ++ " while waiting on PropertyTags"
  | .mismatch sent received =>
    "mbox: sent " ++ Text.hexShort sent.toNat ++ ", got " ++ Text.hexShort received.toNat
  | .refused code => "mbox: property request failed with " ++ Text.hexShort code.toNat

/-- The requests of the mailbox's driver. -/
inductive Op where
  | read (r : Register)
  | write (r : Register) (value : UInt32)
  /-- Store words at the start of the buffer. -/
  | fill (words : List UInt32)
  /-- Load a word of the buffer. -/
  | load (index : Nat)
  /-- Write `bytes` bytes from `start` on back from the data cache. -/
  | clean (start : PhysAddr) (bytes : Nat)
  /-- Discard `bytes` bytes from `start` on from the data cache. -/
  | invalidate (start : PhysAddr) (bytes : Nat)
  /-- Wait until all memory accesses are complete. -/
  | syncBarrier
  /-- Keep the memory accesses before and after in order. -/
  | memoryBarrier
  | note (n : Note)
  deriving DecidableEq, Repr

/-- The answer to a request: the word read or loaded, or nothing. -/
abbrev Op.Reply : Op → Type
  | .read _ | .load _ => UInt32
  | _ => Unit

abbrev port : Signature := ⟨Op, Op.Reply⟩

instance : RegisterBlock (Prog port) Register where
  read r := Prog.request (S := port) (.read r)
  write r value := Prog.request (S := port) (.write r value)

def request (o : Op) : Prog port o.Reply := Prog.request (S := port) o

open RegisterBlock (read write)

/-- Polls `status` until none of `bits` is set, at most `patience` times. -/
def awaitClear (status : Register) (bits : UInt32) : (patience : Nat) → Prog port Unit
  | 0 => .wedged
  | patience + 1 => do
    let value ← read status
    if value &&& bits = 0 then pure () else awaitClear status bits patience

/-- The message that carries `data` on the property channel. -/
def encodeMessage (data : UInt32) : UInt32 := (data <<< 4) ||| propertyChannel

/-- Posts the low 28 bits of `data` on the property channel once there is room. -/
def post (patience : Nat) (data : UInt32) : Prog port Unit := do
  awaitClear .outboxStatus fullBit patience
  write Register.outbox (encodeMessage data)

/-- Waits for a message on the property channel and returns its payload. Messages on other channels
are dropped, at most `messages` in all. -/
def receiveWithin (patience : Nat) : (messages : Nat) → Prog port UInt32
  | 0 => .wedged
  | messages + 1 => do
    awaitClear .inboxStatus emptyBit patience
    let message ← read Register.inbox
    if message &&& 0xF = propertyChannel then
      pure (message >>> 4)
    else do
      request (.note (.dropped message))
      receiveWithin patience messages

/-- Waits for a message on the property channel and returns its payload. -/
def receive (patience : Nat) : Prog port UInt32 := receiveWithin patience patience

/-- The payload that stands for the address of the buffer. -/
def payload (m : Mailbox) : UInt32 := (m.buffer.toBus m.window).value >>> 4

def requestWords (tags : List UInt32) : Nat := headerWords + tags.length + 1

/-- The words of a request with these records. -/
def requestImage (tags : List UInt32) : List UInt32 :=
  UInt32.ofNat (4 * requestWords tags) :: requestCode :: (tags ++ [TagId.endMarker])

/-- Loads `count` words of the buffer from the word `index` on, after those in `loaded`. -/
def loadWords : (count index : Nat) → (loaded : Array UInt32) → Prog port (List UInt32)
  | 0, _, loaded => pure loaded.toList
  | count + 1, index, loaded => do
    let word ← request (.load index)
    loadWords count (index + 1) (loaded.push word)

/-- Stores the request in the buffer, writes it back from the data cache, and posts the address of
the buffer. -/
def submit (m : Mailbox) (tags : List UInt32) : Prog port Unit := do
  request (.fill (requestImage tags))
  request (.clean m.buffer (4 * requestWords tags))
  request .syncBarrier
  post m.patience m.payload

/-- Settles a transaction for which the firmware has answered with the payload `received`. The
result comes with the words of the records as they are afterwards. -/
def collect (m : Mailbox) (tags : List UInt32) (received : UInt32) :
    Prog port (Except Error Unit × List UInt32) :=
  if received ≠ m.payload then do
    request (.note (.mismatch m.payload received))
    pure (.error (.addressMismatch m.payload received), tags)
  else do
    request (.invalidate m.buffer (4 * requestWords tags))
    request .memoryBarrier
    let code ← request (.load 1)
    if code ≠ successCode then
      request (.note (.refused code))
      pure (.error (.badResponseStatus code), tags)
    else
      let answer ← loadWords tags.length headerWords #[]
      pure (.ok (), answer)

/-- Runs a transaction over records that are given as words. The result comes with these words as
they are afterwards: as the firmware has rewritten them, or as they were where it fails. -/
def transactInPlace (m : Mailbox) (tags : List UInt32) :
    Prog port (Except Error Unit × List UInt32) :=
  if bufferWords < requestWords tags then
    pure (.error .tooLarge, tags)
  else do
    m.submit tags
    let received ← receive m.patience
    m.collect tags received

/-- Runs a transaction over records that are given as words. The result is the words as the
firmware has rewritten them. -/
def transact (m : Mailbox) (tags : List UInt32) : Prog port (Except Error (List UInt32)) := do
  let (result, words) ← m.transactInPlace tags
  pure (result.map fun () => words)

end Mailbox

end Peripherals
