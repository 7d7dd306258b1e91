import Peripherals.Board.System
import Peripherals.Simulation.Memory
import Peripherals.Simulation.SdHost

/-! A bench for the whole board: a counter that moves on with every read, memory in place of the
interrupt blocks, a firmware that answers from a table of properties, and the simulated SD host. -/

namespace Peripherals.Simulation

/-- The state of the bench. -/
structure BoardBench where
  host : SdHost
  /-- The low half of the counter, and how far a read moves it on. -/
  counter : UInt32 := 0
  step : UInt32 := 200
  /-- How far the reads have moved the counter on in all. -/
  now : Nat := 0
  timer : Memory := {}
  main : Memory := {}
  core : Memory := {}
  queue : List UInt32 := []
  buffer : Array UInt32 := Array.replicate Mailbox.bufferWords 0
  emptyReads : Nat := 0
  /-- The words that the firmware answers for a property. -/
  properties : List (UInt32 × List UInt32) := []
  /-- The code that the firmware answers a request with. -/
  code : UInt32 := Mailbox.successCode
  /-- The difference of the firmware's message from the request. -/
  difference : UInt32 := 0
  /-- The handlers that have run. -/
  ran : Array Nat := #[]
  hooks : Nat := 0
  trace : Trace := {}
  limit : Log.Filter := .off
  records : Array Log.Record := #[]

namespace BoardBench

def bufferAddress : PhysAddr := ⟨0x00100000⟩

/-- How often the inbox is read while it is empty. -/
def emptyLimit : Nat := 1000

/-- How long a poll is given: longer than any that ends. -/
def patience : Nat := 1000000000000

/-- A system on this bench that has no board yet. -/
def system : Board.System := { buffer := bufferAddress, patience }

def push (b : BoardBench) (entry : String) : BoardBench := { b with trace := b.trace.push entry }

def keep (b : BoardBench) (r : Log.Record) : BoardBench :=
  if b.limit.allows r.level then { b with records := b.records.push r } else b

def timerDevice : (o : Timer.Op) → BoardBench → Option (o.Reply × BoardBench)
  | .read .counterLow, b =>
    some (b.counter, { b with counter := b.counter + b.step, now := b.now + b.step.toNat })
  | .read r, b =>
    let value := b.timer.read r.offset
    some (value, b.push ("T:" ++ readEntry r.offset value))
  | .write .counterLow value, b =>
    some ((), { b with counter := value }.push ("T:" ++ writeEntry 0x04 value))
  | .write r value, b =>
    some ((), { b with timer := b.timer.write r.offset value }.push
      ("T:" ++ writeEntry r.offset value))
  | .note n, b => some ((), b.keep ⟨.systemTimer, n.level, n.message⟩)

def interruptDevice : (o : Interrupt.ControllerOp) → BoardBench → Option (o.Reply × BoardBench)
  | .read (.main r), b =>
    let value := b.main.read r.offset
    some (value, b.push ("I:" ++ readEntry r.offset value))
  | .read (.core r), b =>
    let value := b.core.read r.offset
    some (value, b.push ("L:" ++ readEntry r.offset value))
  | .write (.main r) value, b =>
    some ((), { b with main := b.main.write r.offset value }.push
      ("I:" ++ writeEntry r.offset value))
  | .write (.core r) value, b =>
    some ((), { b with core := b.core.write r.offset value }.push
      ("L:" ++ writeEntry r.offset value))
  | .note n, b => some ((), b.keep ⟨.interruptController, n.level, n.message⟩)

/-- The bench after the firmware has answered the record at the word `index` of the buffer. -/
def answerTag (b : BoardBench) (index : Nat) (id size : UInt32) : BoardBench :=
  let b := b.push ("M:tag" ++ Text.hexFixed 8 id.toNat)
  match b.properties.lookup id with
  | none => b
  | some words =>
    let fitting := words.take (size.toNat / 4)
    let buffer := fitting.zipIdx.foldl
      (fun buffer (w, i) => buffer.setIfInBounds (index + 3 + i) w) b.buffer
    let length := Mailbox.responseBit ||| UInt32.ofNat (4 * words.length)
    { b with buffer := buffer.setIfInBounds (index + 2) length }

/-- The bench after the firmware has answered the records from the word `index` of the buffer on, at
most `records` of them. -/
def answerTags : (records index : Nat) → BoardBench → BoardBench
  | 0, _, b => b
  | records + 1, index, b =>
    let word (i : Nat) := b.buffer[index + i]?.getD 0
    if word 0 = 0 then b
    else
      answerTags records (index + 3 + (word 1).toNat / 4) (b.answerTag index (word 0) (word 1))

/-- What the firmware makes of a request that is posted as `value`. -/
def post (b : BoardBench) (value : UInt32) : BoardBench :=
  let distance := value - bufferAddress.value.toUInt32
  let b := b.push ("M:w20~" ++ Text.hexFixed 8 distance.toNat)
  let b := { b with buffer := b.buffer.setIfInBounds 1 b.code }
  let b := b.answerTags Mailbox.bufferWords Mailbox.headerWords
  { b with queue := b.queue ++ [value ^^^ b.difference] }

def mailboxDevice : (o : Mailbox.Op) → BoardBench → Option (o.Reply × BoardBench)
  | .read .outboxStatus, b => some (0, b.push ("M:" ++ readEntry 0x38 0))
  | .read .inboxStatus, b =>
    if b.queue.isEmpty then
      if emptyLimit ≤ b.emptyReads then none
      else
        some (Mailbox.emptyBit, { b with emptyReads := b.emptyReads + 1 }.push
          ("M:" ++ readEntry 0x18 Mailbox.emptyBit))
    else
      some (0, b.push ("M:" ++ readEntry 0x18 0))
  | .read .inbox, b => some (b.queue.headD 0, { b with queue := b.queue.tail }.push "M:r00")
  | .read .outbox, b => some (0, b)
  | .write .outbox value, b => some ((), b.post value)
  | .write r value, b => some ((), b.push ("M:" ++ writeEntry r.offset value))
  | .fill words, b =>
    some ((), { b with buffer := words.toArray ++ b.buffer.extract words.length b.buffer.size })
  | .load index, b => some (b.buffer[index]?.getD 0, b)
  | .clean _ _, b | .invalidate _ _, b | .syncBarrier, b | .memoryBarrier, b => some ((), b)
  | .note n, b => some ((), b.keep ⟨.mailbox, n.level, n.message⟩)

/-- The SD host controller. -/
def sdDevice : (a : Access Sd.Register) → BoardBench → Option (a.Reply × BoardBench)
  | .read r, b =>
    let (value, host) := b.host.read b.now r.offset
    let trace :=
      match r with
      | .data => b.trace.port false value
      | _ => b.trace.push ("E:" ++ readEntry r.offset value)
    some (value, { b with host, trace })
  | .write r value, b =>
    let trace :=
      match r with
      | .data => b.trace.port true value
      | _ => b.trace.push ("E:" ++ writeEntry r.offset value ++ "@" ++ toString b.now)
    some ((), { b with host := b.host.write b.now r.offset value, trace })

def device : Device Board.port BoardBench
  | .timer o, b => timerDevice o b
  | .interrupts o, b => interruptDevice o b
  | .mailbox o, b => mailboxDevice o b
  | .sd a, b => sdDevice a b
  | .handler id, b => some ((), { b with ran := b.ran.push id })
  | .hook id, b => some ((), { b with hooks := b.hooks + id })
  | .note n, b => some ((), b.keep n.record)

/-- Makes the pending word of a bank read as `value`. The bank next to the cores is the last. -/
def setPending (b : BoardBench) (bank : Nat) (value : UInt32) : BoardBench :=
  let main (r : Interrupt.MainRegister) := { b with main := b.main.write r.offset value }
  match bank with
  | 0 => main .pending1
  | 1 => main .pending2
  | 2 => main .basicPending
  | _ => { b with core := b.core.write Interrupt.CoreRegister.source.offset value }

/-- The bench before the next step, with an empty trace, no records and no handler run. -/
def cleared (b : BoardBench) : BoardBench := { b with trace := {}, records := #[], ran := #[] }

def run {α : Type} (b : BoardBench) (system : Board.System) (task : Board.Task α) :
    Option (α × Board.System × BoardBench) :=
  match (task.run system).run device b with
  | some ((result, system), b) => some (result, system, b)
  | none => none

end BoardBench

end Peripherals.Simulation
