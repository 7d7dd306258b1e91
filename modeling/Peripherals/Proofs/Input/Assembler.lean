import Mathlib.Data.List.Basic
import Peripherals.Input.Keyboard

/-! The state of a keyboard in a buffer of eight bytes, with the place of the next byte and the
number of bytes to come. An access past the end of the buffer, or past what has been stored, and a
count that would fall below zero are faults. There is none in any stream, and the events are those
of the keyboard. -/

namespace Peripherals.Input

/-- The state after `bytes`, with the events that they complete. -/
def Keyboard.receiveAll (k : Keyboard) : (bytes : List UInt8) → Keyboard × List Event
  | [] => (k, [])
  | byte :: bytes =>
    let (k, event) := k.receive byte
    let (k, events) := k.receiveAll bytes
    (k, event.toList ++ events)

theorem Keyboard.receiveAll_cons {k k' : Keyboard} {byte : UInt8} {event : Option Event}
    (h : k.receive byte = (k', event)) (bytes : List UInt8) :
    k.receiveAll (byte :: bytes) =
      ((k'.receiveAll bytes).1, event.toList ++ (k'.receiveAll bytes).2) := by
  rw [receiveAll, h]

theorem Keyboard.receiveAll_append (k : Keyboard) (xs ys : List UInt8) :
    k.receiveAll (xs ++ ys) =
      (((k.receiveAll xs).1.receiveAll ys).1,
        (k.receiveAll xs).2 ++ ((k.receiveAll xs).1.receiveAll ys).2) := by
  induction xs generalizing k with
  | nil => rfl
  | cons x xs ih => simp only [List.cons_append, receiveAll, ih, List.append_assoc]

theorem Keyboard.receiveAll_concat (k : Keyboard) (bytes : List UInt8) (byte : UInt8) :
    k.receiveAll (bytes ++ [byte]) =
      (((k.receiveAll bytes).1.receive byte).1,
        (k.receiveAll bytes).2 ++ ((k.receiveAll bytes).1.receive byte).2.toList) := by
  simp [receiveAll_append, receiveAll]

def bufferSize : Nat := 8

structure Assembler where
  /-- The packet that is under way. -/
  packet : Option Packet := none
  remaining : Nat := 0
  index : Nat := 0
  buffer : Vector UInt8 bufferSize := Vector.replicate bufferSize 0
  joystick : JoystickRecord := {}
  deriving DecidableEq

theorem Packet.payloadLength_lt (p : Packet) : p.payloadLength < bufferSize := by
  cases p <;> decide

namespace Assembler

/-- Hands over a packet of which all bytes are in the buffer. -/
def complete (a : Assembler) (packet : Packet) : Option (Assembler × Event) :=
  if bufferSize < a.index then
    none
  else
    match packet, a.buffer.toList.take a.index with
    | .status, _ :: payload => some (a, .status payload)
    | .absoluteMouse, _ :: payload => some (a, .mouse payload)
    | .relativeMouse, bytes => some (a, .mouse bytes)
    | .clock, _ :: payload => some (a, .clock payload)
    | .joysticks, header :: stick0 :: stick1 :: _ =>
      some ({ a with joystick := ⟨header, stick0, stick1⟩ }, .joystick header stick0 stick1)
    | .joystick0, header :: stick0 :: _ =>
      let joystick := { a.joystick with header, stick0 }
      some ({ a with joystick }, joystick.event)
    | .joystick1, header :: stick1 :: _ =>
      let joystick := { a.joystick with header, stick1 }
      some ({ a with joystick }, joystick.event)
    | _, _ => none

def receive (a : Assembler) (byte : UInt8) : Option (Assembler × Option Event) :=
  match a.packet with
  | none =>
    match Packet.ofHeader? byte with
    | none => some (a, some (.key byte))
    | some packet =>
      some
        ({ a with
            packet := some packet
            remaining := packet.payloadLength
            index := 1
            buffer := a.buffer.set 0 byte (by decide) }, none)
  | some packet =>
    if h : a.index < bufferSize ∧ 0 < a.remaining then
      let a :=
        { a with
          remaining := a.remaining - 1
          index := a.index + 1
          buffer := a.buffer.set a.index byte h.1 }
      if a.remaining = 0 then
        ({ a with packet := none }.complete packet).map fun (a, event) => (a, some event)
      else
        some (a, none)
    else
      none

def receiveAll (a : Assembler) : (bytes : List UInt8) → Option (Assembler × List Event)
  | [] => some (a, [])
  | byte :: bytes => do
    let (a, event) ← a.receive byte
    let (a, events) ← a.receiveAll bytes
    pure (a, event.toList ++ events)

/-- The state `a` is that of the keyboard `k`, whatever earlier packets have left in the buffer. -/
structure Holds (a : Assembler) (k : Keyboard) : Prop where
  joystick : a.joystick = k.joystick
  idle : k.unfinished = none → a.packet = none
  busy : ∀ u, k.unfinished = some u → a.packet = some u.packet ∧
    a.index = u.payload.length + 1 ∧ a.remaining + u.payload.length = u.packet.payloadLength ∧
    a.buffer.toList.take a.index = u.header :: u.payload

theorem take_set (buffer : Vector UInt8 bufferSize) {i : Nat} (hi : i < bufferSize) (byte : UInt8) :
    (buffer.set i byte hi).toList.take (i + 1) = buffer.toList.take i ++ [byte] := by
  have hlength : i < (buffer.toList.set i byte).length := by simpa using hi
  rw [Vector.toList_set, List.take_succ_eq_append_getElem hlength,
    List.take_set_of_le (Nat.le_refl i), List.getElem_set_self]

theorem holds_fresh : Holds {} {} := ⟨rfl, fun _ => rfl, nofun⟩

theorem Holds.packet_eq_none {a : Assembler} {k : Keyboard} (h : a.Holds k) :
    a.packet = none ↔ k.isIdle = true := by
  rw [Keyboard.isIdle, Option.isNone_iff_eq_none]
  refine ⟨fun hnone => ?_, h.idle⟩
  cases hk : k.unfinished with
  | none => rfl
  | some u =>
    rw [(h.busy u hk).1] at hnone
    cases hnone

/-- A packet whose bytes are all in the buffer is handed over as the keyboard does. -/
theorem complete_eq {a : Assembler} {header : UInt8} {packet : Packet} {payload : List UInt8}
    (hindex : a.index ≤ bufferSize) (hlength : payload.length = packet.payloadLength)
    (hbuffer : a.buffer.toList.take a.index = header :: payload) :
    let joystick := Keyboard.joystickAfter a.joystick header packet payload
    a.complete packet =
      some ({ a with joystick }, Keyboard.eventOf joystick header packet payload) := by
  unfold complete
  rw [if_neg (Nat.not_lt.mpr hindex), hbuffer]
  cases packet with
  | status | absoluteMouse | relativeMouse | clock => rfl
  | joysticks =>
    obtain ⟨stick0, stick1, rfl⟩ := List.length_eq_two.mp hlength
    rfl
  | joystick0 | joystick1 =>
    obtain ⟨stick, rfl⟩ := List.length_eq_one_iff.mp hlength
    rfl

theorem Holds.receive {a : Assembler} {k : Keyboard} (h : a.Holds k) (byte : UInt8) :
    ∃ a', a.receive byte = some (a', (k.receive byte).2) ∧ a'.Holds (k.receive byte).1 := by
  rw [Assembler.receive, Keyboard.receive]
  cases hk : k.unfinished with
  | none =>
    rw [h.idle hk]
    cases hpacket : Packet.ofHeader? byte with
    | none => exact ⟨a, rfl, h⟩
    | some packet =>
      refine ⟨_, rfl, h.joystick, nofun, ?_⟩
      rintro _ ⟨⟩
      exact ⟨rfl, rfl, rfl, take_set a.buffer (by decide) byte⟩
  | some u =>
    obtain ⟨hpacket, hindex, hremaining, hbuffer⟩ := h.busy u hk
    have hlt := u.length_lt
    have hsize := u.packet.payloadLength_lt
    have hroom : a.index < bufferSize ∧ 0 < a.remaining := by omega
    have hstored := take_set a.buffer hroom.1 byte
    rw [hbuffer] at hstored
    simp only [hpacket, dif_pos hroom]
    by_cases hlast : a.remaining - 1 = 0
    · have hdone : ¬(u.payload ++ [byte]).length < u.packet.payloadLength := by
        rw [List.length_append, List.length_singleton]
        omega
      have hlength : (u.payload ++ [byte]).length = u.packet.payloadLength := by
        rw [List.length_append, List.length_singleton]
        omega
      rw [if_pos hlast, dif_neg hdone, complete_eq (Nat.succ_le_of_lt hroom.1) hlength hstored]
      rw [h.joystick, Option.map_some]
      exact ⟨_, rfl, rfl, fun _ => rfl, nofun⟩
    · have hmore : (u.payload ++ [byte]).length < u.packet.payloadLength := by
        rw [List.length_append, List.length_singleton]
        omega
      rw [if_neg hlast, dif_pos hmore]
      refine ⟨_, rfl, h.joystick, nofun, ?_⟩
      rintro _ ⟨⟩
      refine ⟨rfl, ?_, ?_, hstored⟩
      · simp [hindex]
      · simp
        omega

theorem Holds.receiveAll {a : Assembler} {k : Keyboard} (h : a.Holds k) (bytes : List UInt8) :
    ∃ a', a.receiveAll bytes = some (a', (k.receiveAll bytes).2) ∧
      a'.Holds (k.receiveAll bytes).1 := by
  induction bytes generalizing a k with
  | nil => exact ⟨a, rfl, h⟩
  | cons byte bytes ih =>
    obtain ⟨b, hreceive, hb⟩ := h.receive byte
    obtain ⟨c, hrest, hc⟩ := ih hb
    refine ⟨c, ?_, hc⟩
    simp [Assembler.receiveAll, Keyboard.receiveAll, hreceive, hrest]

end Assembler

end Peripherals.Input
