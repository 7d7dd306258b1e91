import Peripherals.Simulation.Memory
import Peripherals.Simulation.Trace
import Peripherals.Timer.SystemTimer

/-! Benches for timers: the registers of the system timer, and a bare counter. -/

namespace Peripherals.Simulation

/-- How often a counter is read before it is taken to be waited for in vain. -/
def readLimit : Nat := 300000

/-- How long a poll is given: longer than a counter is read. -/
def timerPatience : Nat := 1000000000

/-- The registers of the system timer. -/
structure TimerBench where
  registers : Memory := {}
  /-- Values that reads give before those in the registers. -/
  queued : List (Nat × List UInt32) := []
  /-- By how much a read of the counter moves it on. -/
  step : UInt32 := 0
  reads : Nat := 0
  trace : Trace := {}

namespace TimerBench

/-- The value that a read of a register gives, and the registers afterwards. -/
def readRegister (b : TimerBench) (offset : Nat) : UInt32 × TimerBench :=
  match b.queued.lookup offset with
  | some (value :: rest) =>
    (value, { b with queued := (offset, rest) :: b.queued.filter fun (o, _) => o != offset })
  | _ =>
    let value := b.registers.read offset
    let next := if offset = 0x04 then value + b.step else value
    (value, { b with registers := b.registers.write offset next })

/-- Counts a read that gave `value`, and traces it unless the counter moves on by itself. -/
def countRead (b : TimerBench) (offset : Nat) (value : UInt32) : TimerBench :=
  let trace := if b.step = 0 then b.trace.push (readEntry offset value) else b.trace
  { b with reads := b.reads + 1, trace }

def device : Device Timer.port TimerBench
  | .read r, b =>
    if readLimit ≤ b.reads then none
    else
      let (value, b) := b.readRegister r.offset
      some (value, b.countRead r.offset value)
  | .write r value, b =>
    some ((), { b with
      registers := b.registers.write r.offset value
      trace := b.trace.push (writeEntry r.offset value) })
  | .note _, b => some ((), b)

/-- The bench before the next step, with an empty trace. -/
def cleared (b : TimerBench) : TimerBench := { b with trace := {} }

end TimerBench

/-- A counter that moves on with every read. -/
structure ClockBench where
  counter : UInt32 := 0
  step : UInt32 := 1
  reads : Nat := 0
  /-- How often a polled condition has been sampled. -/
  samples : Nat := 0

namespace ClockBench

abbrev Run := StateT ClockBench Option

def device : Device Clock.port ClockBench
  | .now, b =>
    if readLimit ≤ b.reads then none
    else some (b.counter, { b with counter := b.counter + b.step, reads := b.reads + 1 })

def run {α : Type} (p : Prog Clock.port α) : Run α := fun b => p.run device b

/-- Waits for a condition that holds at its sample number `holdsAt`, or never. -/
def wait (rate timeout : UInt32) (holdsAt : Option Nat) : Run (Except DeviceError Unit) :=
  Clock.waitFor (fun us => run (Clock.delayUs rate timerPatience us)) timeout do
    modify fun b => { b with samples := b.samples + 1 }
    let b ← get
    pure (holdsAt == some b.samples)

end ClockBench

end Peripherals.Simulation
