import Peripherals.Input.Queues

/-! A bench for the keyboard: what the handlers of a routing are told. -/

namespace Peripherals.Simulation

open Input (Event Keyboard Overrun Queues)

/-- What becomes of input. -/
inductive Routing where
  /-- Every event goes to a handler. -/
  | direct
  /-- Key and MIDI bytes are queued, all else and every overrun goes to a handler. -/
  | queued
  /-- Key and MIDI bytes are queued, an overrun is logged, and all else is discarded. -/
  | shared
  | discarded
  /-- Key and MIDI bytes are discarded, all else goes to a handler. -/
  | unqueued
  deriving DecidableEq, Repr

/-- What a handler is told. -/
inductive Report where
  | event (e : Event)
  | midi (byte : UInt8)
  | overrun (o : Overrun)
  deriving DecidableEq, Repr

/-- The state of the bench. -/
structure InputBench where
  routing : Routing
  keyboard : Keyboard := {}
  queues : Queues := {}
  reports : Array Report := #[]
  logged : Nat := 0

namespace InputBench

def tell (b : InputBench) (r : Report) : InputBench := { b with reports := b.reports.push r }

/-- The bench after a byte has been queued, or has found its ring full. -/
def keep (b : InputBench) : Queues × Option Overrun → InputBench
  | (queues, none) => { b with queues }
  | (queues, some o) =>
    let b := { b with queues }
    match b.routing with
    | .queued => b.tell (.overrun o)
    | _ => { b with logged := b.logged + 1 }

def key (b : InputBench) (byte : UInt8) : InputBench :=
  match b.routing with
  | .direct => b.tell (.event (.key byte))
  | .queued | .shared => b.keep (b.queues.pushKey byte)
  | .discarded | .unqueued => b

def midi (b : InputBench) (byte : UInt8) : InputBench :=
  match b.routing with
  | .direct => b.tell (.midi byte)
  | .queued | .shared => b.keep (b.queues.pushMidi byte)
  | .discarded | .unqueued => b

/-- Takes a byte from the keyboard processor. -/
def receive (b : InputBench) (byte : UInt8) : InputBench :=
  let (keyboard, event) := b.keyboard.receive byte
  let b := { b with keyboard }
  match event with
  | none => b
  | some (.key code) => b.key code
  | some e =>
    match b.routing with
    | .shared | .discarded => b
    | _ => b.tell (.event e)

/-- The bench before the next step, with nothing told and nothing logged. -/
def cleared (b : InputBench) : InputBench := { b with reports := #[], logged := 0 }

end InputBench

end Peripherals.Simulation
