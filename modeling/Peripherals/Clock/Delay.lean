import Peripherals.Program
import Peripherals.DeviceError

/-! Delays and bounded polling on a free-running counter. The counter is a 32-bit word that wraps
around, so times are compared by their distance. Nothing here needs interrupts. -/

namespace Peripherals.Clock

/-- The request of a counter: its value now. -/
inductive Op where
  | now
  deriving DecidableEq, Repr

abbrev port : Signature := ⟨Op, fun _ => UInt32⟩

def now : Prog port UInt32 := Prog.request (S := port) .now

def lastWord : Nat := 0xFFFFFFFF

/-- The counter distance that covers `us` microseconds at `rate` ticks each: one tick more than
their product, because the tick that is running may be partly over, and no more than a counter can
tell apart. -/
def ticksFor (rate us : UInt32) : UInt32 :=
  UInt32.ofNat (min (min (us.toNat * rate.toNat) lastWord + 1) lastWord)

/-- Polls the counter until it is `ticks` or more past `start`, at most `patience` times. -/
def awaitTicks (start ticks : UInt32) : (patience : Nat) → Prog port Unit
  | 0 => .wedged
  | patience + 1 => do
    let value ← now
    if value - start < ticks then awaitTicks start ticks patience else pure ()

/-- Waits for at least `us` microseconds on a counter of `rate` ticks each. -/
def delayUs (rate : UInt32) (patience : Nat) (us : UInt32) : Prog port Unit :=
  if us = 0 then pure () else do
    let start ← now
    awaitTicks start (ticksFor rate us) patience

/-- Waits for at least `ms` milliseconds, one after the other. -/
def delayMs (rate : UInt32) (patience : Nat) : (ms : Nat) → Prog port Unit
  | 0 => pure ()
  | ms + 1 => do
    delayUs rate patience 1000
    delayMs rate patience ms

/-- Samples `condition` up to `rounds` times, one microsecond into every millisecond. -/
def pollRounds {m : Type → Type} [Monad m] (delay : UInt32 → m Unit) (condition : m Bool) :
    (rounds : Nat) → m (Except DeviceError Unit)
  | 0 => pure (.error .timeout)
  | rounds + 1 => do
    delay 1
    if ← condition then
      pure (.ok ())
    else
      delay 999
      pollRounds delay condition rounds

/-- Polls `condition` until it holds or `timeout` microseconds have passed. A condition that holds
already is found by the first sample, and a timeout is reported within a millisecond. -/
def waitFor {m : Type → Type} [Monad m] (delay : UInt32 → m Unit) (timeout : UInt32)
    (condition : m Bool) : m (Except DeviceError Unit) :=
  pollRounds delay condition (timeout.toNat / 1000 + 1)

end Peripherals.Clock
