import Peripherals.Mailbox.Query
import Peripherals.Simulation.Trace

/-! A bench for the mailbox: registers, a queue of messages, the buffer, and a firmware that answers
by a script. -/

namespace Peripherals.Simulation

/-- How the firmware answers one request. -/
structure MailboxScript where
  code : UInt32 := 0x80000000
  /-- Words that it changes in the buffer. -/
  pokes : List (Nat × UInt32) := []
  /-- Messages before the answer, as differences from the request. -/
  before : List UInt32 := []
  /-- The difference of the answer from the request. -/
  difference : UInt32 := 0
  /-- Whether it answers at all. -/
  echo : Bool := true

/-- The state of the bench. -/
structure MailboxBench where
  queue : List UInt32 := []
  buffer : Array UInt32 := Array.replicate Mailbox.bufferWords 0
  scripts : List MailboxScript := []
  /-- How often the outbox reports that it is full. -/
  full : Nat := 0
  /-- How often the inbox reports that it is empty. -/
  empty : Nat := 0
  emptyReads : Nat := 0
  /-- The buffer has been written back since the last message. -/
  cleaned : Bool := false
  /-- The last request of the step. -/
  request : Option (Array UInt32) := none
  trace : Trace := {}

namespace MailboxBench

def bufferAddress : PhysAddr := ⟨0x00100000⟩

/-- How often the inbox is read while it is empty. -/
def emptyLimit : Nat := 10000

/-- How long a poll is given: longer than the inbox is read. -/
def patience : Nat := 1000000000

/-- Adds an entry to the trace. -/
def push (b : MailboxBench) (entry : String) : MailboxBench :=
  { b with trace := b.trace.push entry }

def readInboxStatus (b : MailboxBench) : Option (UInt32 × MailboxBench) :=
  let isEmpty := b.queue.isEmpty
  let emptyReads := if isEmpty then b.emptyReads + 1 else b.emptyReads
  if emptyLimit < emptyReads then none
  else
    let value := if 0 < b.empty || isEmpty then Mailbox.emptyBit else 0
    some (value, { b with empty := b.empty - 1, emptyReads })

/-- What the firmware makes of a request that is posted as `value`. -/
def answer (b : MailboxBench) (script : MailboxScript) (value : UInt32) : MailboxBench :=
  let buffer := b.buffer.setIfInBounds 1 script.code
  let buffer := script.pokes.foldl (fun buffer (i, w) => buffer.setIfInBounds i w) buffer
  let answers := if script.echo then [value ^^^ script.difference] else []
  { b with
    buffer
    queue := b.queue ++ script.before.map (value ^^^ ·) ++ answers
    request := some (b.buffer.extract 0 ((b.buffer[0]?.getD 0).toNat / 4)) }

/-- Writes the outbox. A message after the buffer has been written back is a request. -/
def post (b : MailboxBench) (value : UInt32) : MailboxBench :=
  if b.cleaned then
    let distance := value - bufferAddress.value.toUInt32
    let b := { b with cleaned := false, scripts := b.scripts.tail }.push
      ("w20~" ++ Text.hexFixed 8 distance.toNat) |>.answer (b.scripts.headD {}) value
    b
  else
    b.push (writeEntry 0x20 value)

def device : Device Mailbox.port MailboxBench
  | .read .outboxStatus, b =>
    let value := if 0 < b.full then Mailbox.fullBit else 0
    some (value, { b with full := b.full - 1 }.push (readEntry 0x38 value))
  | .read .inboxStatus, b =>
    match b.readInboxStatus with
    | some (value, b) => some (value, b.push (readEntry 0x18 value))
    | none => none
  | .read .inbox, b => some (b.queue.headD 0, { b with queue := b.queue.tail }.push "r00")
  | .read .outbox, b => some (0, b)
  | .write .outbox value, b => some ((), b.post value)
  | .write r value, b => some ((), b.push (writeEntry r.offset value))
  | .fill words, b =>
    some ((), { b with buffer := words.toArray ++ b.buffer.extract words.length b.buffer.size })
  | .load index, b => some (b.buffer[index]?.getD 0, b)
  | .clean _ bytes, b => some ((), { b with cleaned := true }.push ("clean:" ++ toString bytes))
  | .invalidate _ bytes, b => some ((), b.push ("invalidate:" ++ toString bytes))
  | .syncBarrier, b => some ((), b.push "dsb")
  | .memoryBarrier, b => some ((), b.push "dmb")
  | .note _, b => some ((), b)

/-- The bench before the next step, with an empty trace and no request. -/
def cleared (b : MailboxBench) : MailboxBench := { b with trace := {}, request := none }

end MailboxBench

end Peripherals.Simulation
