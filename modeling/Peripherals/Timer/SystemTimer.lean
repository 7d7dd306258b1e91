import Peripherals.Clock.Delay
import Peripherals.Log.Level
import Peripherals.Register
import Peripherals.Word

/-! The system timer: a 64-bit counter at one megahertz with four 32-bit compare channels, of which
the periodic tick uses the last. -/

namespace Peripherals.Timer

/-- The registers of the timer. -/
inductive Register where
  /-- The match flags, cleared by writing ones. -/
  | control
  | counterLow
  | counterHigh
  /-- The value at which a channel matches. -/
  | compare (channel : Fin 4)
  deriving DecidableEq, Repr

/-- The byte offset of a register in the block. -/
def Register.offset : Register → Nat
  | .control => 0x00
  | .counterLow => 0x04
  | .counterHigh => 0x08
  | .compare channel => 0x0C + 4 * channel

/-- What the timer reports. -/
inductive Note where
  /-- The tick runs `hz` times a second, every `interval` microseconds. -/
  | armed (hz interval : UInt32)
  deriving DecidableEq, Repr

/-- How severe a report is. -/
def Note.level : Note → Log.Level
  | .armed _ _ => .info

/-- The wording of a report. -/
def Note.message : Note → String
  | .armed hz interval =>
    "systimer: " ++ toString hz ++ " Hz tick, interval " ++ toString interval ++ " us"

/-- The requests of the timer's driver. -/
inductive Op where
  | read (r : Register)
  | write (r : Register) (value : UInt32)
  | note (n : Note)
  deriving DecidableEq, Repr

/-- The answer to a request: the word read, or nothing. -/
abbrev Op.Reply : Op → Type
  | .read _ => UInt32
  | _ => Unit

abbrev port : Signature := ⟨Op, Op.Reply⟩

instance : RegisterBlock (Prog port) Register where
  read r := Prog.request (S := port) (.read r)
  write r value := Prog.request (S := port) (.write r value)

def report (n : Note) : Prog port Unit := Prog.request (S := port) (.note n)

def counterHz : UInt32 := 1000000

def ticksPerUs : UInt32 := 1

/-- The low half of the counter when the tick starts, 30 seconds before it wraps around. -/
def preload : UInt32 := 0 - 30 * counterHz

def tickChannel : Fin 4 := 3

def tickMatch : UInt32 := 0x8

/-- The driver of the timer: the distance between two ticks, zero before the tick is armed. -/
structure SystemTimer where
  interval : UInt32 := 0
  deriving DecidableEq, Repr

open RegisterBlock (read write)

/-- Arms the tick to come `hz` times a second, counted from a counter that wraps around soon. -/
def startPeriodic (hz : UInt32) : Prog port (Except DeviceError SystemTimer) :=
  if hz = 0 ∨ counterHz < hz then
    pure (.error .invalidParameter)
  else do
    let interval := counterHz / hz
    write Register.counterLow preload
    let start ← read Register.counterLow
    write (Register.compare tickChannel) (start + interval)
    report (.armed hz interval)
    pure (.ok ⟨interval⟩)

/-- Whether `deadline` lies ahead of `now`, in the half of the counter's range after it. -/
def isAhead (deadline now : UInt32) : Bool :=
  deadline - now != 0 && deadline - now < 0x80000000

/-- Sets the next deadline and clears the match. A deadline that has passed already is counted from
the present instead of from the last one. -/
def acknowledgeTick (t : SystemTimer) : Prog port Unit := do
  let last ← read (Register.compare tickChannel)
  let now ← read Register.counterLow
  let next := last + t.interval
  let next := if isAhead next now then next else now + t.interval
  write (Register.compare tickChannel) next
  write Register.control tickMatch

/-- The whole counter: its halves are read until the high half is the same before and after the
low half, at most `patience` times. -/
def counter : (patience : Nat) → Prog port UInt64
  | 0 => .wedged
  | patience + 1 => do
    let high ← read Register.counterHigh
    let low ← read Register.counterLow
    let again ← read Register.counterHigh
    if again = high then pure (Word.join high low) else counter patience

/-- The low half of the counter is the clock that delays run on. -/
def asClock : (o : Clock.Op) → Prog port (Clock.port.Reply o)
  | .now => read Register.counterLow

/-- Waits for at least `us` microseconds. -/
def delayUs (patience : Nat) (us : UInt32) : Prog port Unit :=
  (Clock.delayUs ticksPerUs patience us).translate asClock

end Peripherals.Timer
