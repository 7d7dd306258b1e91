/-! The packets that a keyboard processor sends. A byte below the first header is a key; a header
announces a packet of a fixed length. -/

namespace Peripherals.Input

/-- The kinds of packet. -/
inductive Packet where
  | status
  | absoluteMouse
  | relativeMouse
  | clock
  | joysticks
  | joystick0
  | joystick1
  deriving DecidableEq, Repr

namespace Packet

def firstHeader : UInt8 := 0xF6

/-- The kind of packet that `byte` announces, where it is a header. -/
def ofHeader? (byte : UInt8) : Option Packet :=
  if byte < firstHeader then none
  else match byte.toNat with
    | 0xF6 => some .status
    | 0xF7 => some .absoluteMouse
    | 0xF8 | 0xF9 | 0xFA | 0xFB => some .relativeMouse
    | 0xFC => some .clock
    | 0xFD => some .joysticks
    | 0xFE => some .joystick0
    | _ => some .joystick1

/-- The number of bytes that follow the header. -/
def payloadLength : Packet → Nat
  | .status => 7
  | .absoluteMouse => 5
  | .relativeMouse => 2
  | .clock => 6
  | .joysticks => 2
  | .joystick0 => 1
  | .joystick1 => 1

theorem payloadLength_pos (p : Packet) : 0 < p.payloadLength := by cases p <;> decide

end Packet

end Peripherals.Input
