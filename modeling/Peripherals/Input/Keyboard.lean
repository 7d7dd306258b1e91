import Peripherals.Input.Packet

/-! Putting the bytes of the keyboard processor together to events. A handler of joystick events
always sees both sticks, so what a packet says of one stick is merged with what is known of the
other. -/

namespace Peripherals.Input

/-- What the keyboard processor reports. -/
inductive Event where
  | key (code : UInt8)
  | status (payload : List UInt8)
  /-- The payload of a packet with an absolute position, or the whole of one with a movement. -/
  | mouse (packet : List UInt8)
  | clock (payload : List UInt8)
  /-- The header of a joystick packet and the state of both sticks. -/
  | joystick (header stick0 stick1 : UInt8)
  deriving DecidableEq, Repr

/-- A packet of which some bytes are still to come. -/
structure Unfinished where
  header : UInt8
  packet : Packet
  payload : List UInt8
  length_lt : payload.length < packet.payloadLength
  deriving DecidableEq

/-- The last joystick event: its header and the state of the sticks. -/
structure JoystickRecord where
  header : UInt8 := 0
  stick0 : UInt8 := 0
  stick1 : UInt8 := 0
  deriving DecidableEq, Repr

namespace JoystickRecord

def bytes (r : JoystickRecord) : List UInt8 := [r.header, r.stick0, r.stick1]

def event (r : JoystickRecord) : Event := .joystick r.header r.stick0 r.stick1

end JoystickRecord

/-- The state between two bytes. -/
structure Keyboard where
  unfinished : Option Unfinished := none
  joystick : JoystickRecord := {}
  deriving DecidableEq

namespace Keyboard

def isIdle (k : Keyboard) : Bool := k.unfinished.isNone

def joystickAfter (last : JoystickRecord) (header : UInt8) (packet : Packet)
    (payload : List UInt8) : JoystickRecord :=
  let first := payload[0]?.getD 0
  match packet with
  | .joysticks => ⟨header, first, payload[1]?.getD 0⟩
  | .joystick0 => ⟨header, first, last.stick1⟩
  | .joystick1 => ⟨header, last.stick0, first⟩
  | _ => last

/-- The event of a packet that is complete. -/
def eventOf (joystick : JoystickRecord) (header : UInt8) (packet : Packet)
    (payload : List UInt8) : Event :=
  match packet with
  | .status => .status payload
  | .absoluteMouse => .mouse payload
  | .relativeMouse => .mouse (header :: payload)
  | .clock => .clock payload
  | .joysticks | .joystick0 | .joystick1 => joystick.event

/-- Takes one byte. The result is the state after it and the event that it completes, if any. -/
def receive (k : Keyboard) (byte : UInt8) : Keyboard × Option Event :=
  match k.unfinished with
  | none =>
    match Packet.ofHeader? byte with
    | none => (k, some (.key byte))
    | some packet =>
      ({ k with unfinished := some ⟨byte, packet, [], packet.payloadLength_pos⟩ }, none)
  | some u =>
    let payload := u.payload ++ [byte]
    if h : payload.length < u.packet.payloadLength then
      ({ k with unfinished := some ⟨u.header, u.packet, payload, h⟩ }, none)
    else
      let joystick := joystickAfter k.joystick u.header u.packet payload
      (⟨none, joystick⟩, some (eventOf joystick u.header u.packet payload))

end Keyboard

end Peripherals.Input
