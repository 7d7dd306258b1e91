import Peripherals.Log.Record
import Peripherals.Sd.Block
import Peripherals.Simulation.SdHost

/-! A bench for the SD driver: the simulated controller, a firmware that answers by a stub, and a
clock on which a delay takes no time but is counted. -/

namespace Peripherals.Simulation

/-- How the firmware answers a question. -/
inductive StubAnswer where
  | usual
  | word (value : UInt32)
  | failure (error : Mailbox.Error)

/-- The answer of the firmware, where `usual` is the usual value. -/
def StubAnswer.toExcept (usual : UInt32) : StubAnswer → Except Mailbox.Error UInt32
  | .usual => .ok usual
  | .word value => .ok value
  | .failure error => .error error

/-- The state of the bench. -/
structure SdBench where
  host : SdHost
  power : StubAnswer := .usual
  clock : StubAnswer := .usual
  now : Nat := 0
  trace : Trace := {}
  limit : Log.Filter := .off
  records : Array Log.Record := #[]

namespace SdBench

def keep (b : SdBench) (r : Log.Record) : SdBench :=
  if b.limit.allows r.level then { b with records := b.records.push r } else b

def device : Device Sd.port SdBench
  | .read r, b =>
    let (value, host) := b.host.read b.now r.offset
    let trace :=
      match r with
      | .data => b.trace.port false value
      | _ => b.trace.push (readEntry r.offset value)
    some (value, { b with host, trace })
  | .write r value, b =>
    let trace :=
      match r with
      | .data => b.trace.port true value
      | _ => b.trace.push (writeEntry r.offset value ++ "@" ++ toString b.now)
    some ((), { b with host := b.host.write b.now r.offset value, trace })
  | .delay us, b => some ((), { b with now := b.now + us.toNat })
  | .clockRate clock, b =>
    let trace := b.trace.push ("clock(" ++ toString clock.number ++ ")")
    some (b.clock.toExcept 250000000, { b with trace })
  | .setPower device bits, b =>
    let entry := "power(" ++ toString device.number ++ "," ++ toString bits ++ ")"
    let answer := b.power.toExcept Mailbox.PowerStatus.on
    some (answer.map (· &&& Mailbox.PowerStatus.all), { b with trace := b.trace.push entry })
  | .note n, b => some ((), b.keep ⟨.sdCard, n.level, n.message⟩)

/-- The bench before the next step, with an empty trace and no records. -/
def cleared (b : SdBench) : SdBench := { b with trace := {}, records := #[] }

def run {α : Type} (b : SdBench) (driver : Sd.Driver) (step : Sd.Step α) :
    Option (α × Sd.Driver × SdBench) :=
  match (step.run driver).run device b with
  | some ((result, driver), b) => some (result, driver, b)
  | none => none

end SdBench

end Peripherals.Simulation
