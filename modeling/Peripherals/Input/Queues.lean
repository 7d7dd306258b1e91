import Peripherals.Input.Keyboard
import Peripherals.Input.Ring
import Peripherals.Log.Level
import Peripherals.Text.Hex

/-! The rings in which key and MIDI bytes wait. A byte that finds its ring full is dropped. -/

namespace Peripherals.Input

/-- The rings of a keyboard and a MIDI port. -/
structure Queues where
  keyboard : Ring := .keyboard
  midi : Ring := .midi

/-- A byte that found its ring full. -/
inductive Overrun where
  | keyboard (byte : UInt8)
  | midi (byte : UInt8)
  deriving DecidableEq, Repr

namespace Overrun

def level (_ : Overrun) : Log.Level := .trace

/-- The wording of the report of an overrun. -/
def message : Overrun → String
  | .keyboard byte => "ikbd: keyboard buffer full, dropped 0x" ++ Text.hexFixed 2 byte.toNat
  | .midi byte => "ikbd: MIDI buffer full, dropped 0x" ++ Text.hexFixed 2 byte.toNat

end Overrun

namespace Queues

/-- The queues with a key byte added, or its overrun. -/
def pushKey (q : Queues) (byte : UInt8) : Queues × Option Overrun :=
  match q.keyboard.push? byte with
  | some keyboard => ({ q with keyboard }, none)
  | none => (q, some (.keyboard byte))

/-- The queues with a MIDI byte added, or its overrun. -/
def pushMidi (q : Queues) (byte : UInt8) : Queues × Option Overrun :=
  match q.midi.push? byte with
  | some midi => ({ q with midi }, none)
  | none => (q, some (.midi byte))

/-- The oldest key byte and the queues without it. -/
def popKey (q : Queues) : Option UInt8 × Queues :=
  match q.keyboard.pop? with
  | some (byte, keyboard) => (some byte, { q with keyboard })
  | none => (none, q)

/-- The oldest MIDI byte and the queues without it. -/
def popMidi (q : Queues) : Option UInt8 × Queues :=
  match q.midi.pop? with
  | some (byte, midi) => (some byte, { q with midi })
  | none => (none, q)

def clear (q : Queues) : Queues := ⟨q.keyboard.clear, q.midi.clear⟩

/-- The queues after an event, of which only a key byte is queued, and its overrun. -/
def deliver (q : Queues) : Event → Queues × Option Overrun
  | .key byte => q.pushKey byte
  | _ => (q, none)

end Queues

end Peripherals.Input
