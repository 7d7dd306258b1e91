/-! The software system tick: a count of timer interrupts, and the slower tick that falls on every
fourth of them. -/

namespace Peripherals.Clock

def defaultTickHz : UInt32 := 200

/-- The state of the tick. The pattern has one bit in four set and turns by one bit with every
tick. -/
structure SystemTick where
  ticks : UInt32 := 0
  pattern : UInt16 := 0x1111
  deriving DecidableEq, Repr

namespace SystemTick

def turn (pattern : UInt16) : UInt16 := (pattern <<< 1) ||| (pattern >>> 15)

def advance (t : SystemTick) : SystemTick := ⟨t.ticks + 1, turn t.pattern⟩

/-- Whether the work of the slower tick is due on the tick that led to `t`. -/
def isDue (t : SystemTick) : Bool := t.pattern &&& 4 != 0

/-- Services one timer interrupt: counts it, runs the hook where the slower tick is due, and then
acknowledges it. -/
def service {m : Type → Type} [Monad m] (t : SystemTick) (hook : Option (m Unit))
    (acknowledge : m Unit) : m SystemTick := do
  let t := t.advance
  if t.isDue then
    match hook with
    | some run => run
    | none => pure ()
  acknowledge
  pure t

end SystemTick

end Peripherals.Clock
