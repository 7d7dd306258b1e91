import Mathlib.Data.List.Induction
import Peripherals.Input.Queues
import Peripherals.Proofs.Input.Fifo
import Peripherals.Proofs.Input.Stream

/-! The input side as a whole: bytes from the keyboard processor and from the MIDI port come in, and
key bytes and MIDI bytes are taken out, in any order. Each key of the stream and each MIDI byte is
either taken out in its turn or reported as an overrun, by how many were waiting when it came. No
other byte comes into a ring, and neither ring depends on what the other is for. -/

namespace Peripherals.Input

/-- What happens at the input side. -/
inductive InputStep where
  /-- A byte comes from the keyboard processor. -/
  | receive (byte : UInt8)
  /-- A byte comes from the MIDI port. -/
  | receiveMidi (byte : UInt8)
  | popKey
  | popMidi
  deriving DecidableEq, Repr

namespace InputStep

/-- The step is one of the keyboard's side. -/
def forKeys : InputStep → Bool
  | .receive _ | .popKey => true
  | .receiveMidi _ | .popMidi => false

/-- The byte that comes from the keyboard processor. -/
def byte? : InputStep → Option UInt8
  | .receive byte => some byte
  | .receiveMidi _ | .popKey | .popMidi => none

def midiByte? : InputStep → Option UInt8
  | .receiveMidi byte => some byte
  | .receive _ | .popKey | .popMidi => none

end InputStep

/-- The input side, with the bytes that have been taken out of its rings and the overruns that have
been reported, in their order. -/
structure Reception where
  keyboard : Keyboard := {}
  queues : Queues := {}
  keys : List UInt8 := []
  midi : List UInt8 := []
  overruns : List Overrun := []

namespace Reception

/-- The input side with these queues, and with the overrun reported if there is one. -/
def keep (r : Reception) : Queues × Option Overrun → Reception
  | (queues, overrun) => { r with queues, overruns := r.overruns ++ overrun.toList }

def after (r : Reception) : InputStep → Reception
  | .receive byte =>
    let (keyboard, event) := r.keyboard.receive byte
    let r := { r with keyboard }
    match event with
    | some e => r.keep (r.queues.deliver e)
    | none => r
  | .receiveMidi byte => r.keep (r.queues.pushMidi byte)
  | .popKey =>
    let (byte, queues) := r.queues.popKey
    { r with queues, keys := r.keys ++ byte.toList }
  | .popMidi =>
    let (byte, queues) := r.queues.popMidi
    { r with queues, midi := r.midi ++ byte.toList }

end Reception

def Event.key? : Event → Option UInt8
  | .key code => some code
  | _ => none

def Overrun.key? : Overrun → Option UInt8
  | .keyboard byte => some byte
  | .midi _ => none

def Overrun.midi? : Overrun → Option UInt8
  | .keyboard _ => none
  | .midi byte => some byte

/-- A byte that has come for a ring, and whether there was room for it. -/
structure Arrival where
  byte : UInt8
  room : Bool

/-- The account of the bytes for one ring: what has come for it, in its order, and how much has been
taken out. -/
structure Ledger where
  arrivals : List Arrival := []
  taken : Nat := 0

namespace Ledger

def arrived (l : Ledger) : List UInt8 := l.arrivals.map Arrival.byte

/-- The bytes that came while there was room. -/
def accepted (l : Ledger) : List UInt8 := (l.arrivals.filter fun a => a.room).map Arrival.byte

/-- The bytes that came while there was none. -/
def refused (l : Ledger) : List UInt8 := (l.arrivals.filter fun a => !a.room).map Arrival.byte

def waiting (l : Ledger) : List UInt8 := l.accepted.drop l.taken

/-- A byte comes; there is room for it where fewer than `capacity` wait. -/
def arrive (capacity : Nat) (l : Ledger) (byte : UInt8) : Ledger :=
  { l with arrivals := l.arrivals ++ [⟨byte, l.waiting.length < capacity⟩] }

/-- A byte is taken out, if one waits. -/
def take (l : Ledger) : Ledger := if l.waiting = [] then l else { l with taken := l.taken + 1 }

variable {l : Ledger} {capacity : Nat}

theorem arrived_arrive (byte : UInt8) : (l.arrive capacity byte).arrived = l.arrived ++ [byte] :=
  List.map_append

theorem arrive_room (h : l.waiting.length < capacity) (byte : UInt8) :
    (l.arrive capacity byte).accepted = l.accepted ++ [byte] ∧
      (l.arrive capacity byte).refused = l.refused := by
  simp [arrive, accepted, refused, h]

theorem arrive_full (h : ¬l.waiting.length < capacity) (byte : UInt8) :
    (l.arrive capacity byte).accepted = l.accepted ∧
      (l.arrive capacity byte).refused = l.refused ++ [byte] := by
  simp [arrive, accepted, refused, h]

theorem arrived_take : l.take.arrived = l.arrived := by
  unfold take
  split <;> rfl

end Ledger

/-- The byte, coming after those of `stream`, is a key and no part of a packet. -/
def IsKey (stream : List UInt8) (byte : UInt8) : Prop := byte < 0xF6 ∧ Whole stream

instance (stream : List UInt8) (byte : UInt8) : Decidable (IsKey stream byte) :=
  inferInstanceAs (Decidable (byte < 0xF6 ∧ Whole stream))

/-- The account of both rings, and of the bytes from the keyboard processor. -/
structure Books where
  stream : List UInt8 := []
  keys : Ledger := {}
  midi : Ledger := {}

def keyCapacity : Nat := 255

def midiCapacity : Nat := 127

def Books.enter (b : Books) : InputStep → Books
  | .receive byte =>
    { b with
      stream := b.stream ++ [byte]
      keys := if IsKey b.stream byte then b.keys.arrive keyCapacity byte else b.keys }
  | .receiveMidi byte => { b with midi := b.midi.arrive midiCapacity byte }
  | .popKey => { b with keys := b.keys.take }
  | .popMidi => { b with midi := b.midi.take }

/-! ### One ring -/

/-- A ring, with the bytes that have been taken out of it and those that have been reported as
overruns. -/
structure Side where
  ring : Ring
  popped : List UInt8
  overrun : List UInt8

namespace Side

def push (s : Side) (byte : UInt8) : Side :=
  match s.ring.push? byte with
  | some ring => { s with ring }
  | none => { s with overrun := s.overrun ++ [byte] }

def pop (s : Side) : Side :=
  match s.ring.pop? with
  | some (byte, ring) => { s with ring, popped := s.popped ++ [byte] }
  | none => s

end Side

/-- The bytes that came while there was room have been taken out in their order, or wait in the
ring; the others have been reported. -/
structure Delivered (l : Ledger) (capacity : Nat) (s : Side) : Prop where
  capacity : s.ring.capacity = capacity
  taken_le : l.taken ≤ l.accepted.length
  popped : s.popped = l.accepted.take l.taken
  waiting : s.ring.toList = l.accepted.drop l.taken
  overrun : s.overrun = l.refused

namespace Delivered

variable {l : Ledger} {capacity : Nat} {s : Side}

theorem length_waiting (h : Delivered l capacity s) : l.waiting.length = s.ring.length := by
  rw [Ledger.waiting, ← h.waiting, Ring.length_toList]

theorem empty (size low high : Nat) : Delivered {} size ⟨.empty size low high, [], []⟩ where
  capacity := by rw [Ring.capacity, Ring.size_empty, Nat.add_sub_cancel]
  taken_le := Nat.le_refl 0
  popped := rfl
  waiting := Ring.toList_empty size low high
  overrun := rfl

theorem push (h : Delivered l capacity s) (byte : UInt8) :
    Delivered (l.arrive capacity byte) capacity (s.push byte) := by
  -- As many bytes wait in the account as in the ring, so both find room or neither does.
  by_cases hroom : s.ring.length < s.ring.capacity
  · have hledger : l.waiting.length < capacity := by rwa [h.length_waiting, ← h.capacity]
    obtain ⟨haccepted, hrefused⟩ := Ledger.arrive_room hledger byte
    rw [Side.push, s.ring.push?_room hroom]
    refine ⟨?_, ?_, ?_, ?_, h.overrun.trans hrefused.symm⟩
    · rw [Ring.capacity, Ring.size_pushed]
      exact h.capacity
    · rw [haccepted, List.length_append]
      exact Nat.le_add_right_of_le h.taken_le
    · rw [haccepted]
      exact h.popped.trans (List.take_append_of_le_length h.taken_le).symm
    · rw [haccepted, s.ring.toList_pushed hroom, h.waiting]
      exact (List.drop_append_of_le_length h.taken_le).symm
  · have hledger : ¬l.waiting.length < capacity := by rwa [h.length_waiting, ← h.capacity]
    obtain ⟨haccepted, hrefused⟩ := Ledger.arrive_full hledger byte
    have hfull := Nat.le_antisymm s.ring.length_le (Nat.le_of_not_lt hroom)
    rw [Side.push, s.ring.push?_full hfull]
    refine ⟨h.capacity, ?_, ?_, ?_, by rw [hrefused, h.overrun]⟩ <;> rw [haccepted]
    · exact h.taken_le
    · exact h.popped
    · exact h.waiting

theorem pop (h : Delivered l capacity s) : Delivered l.take capacity s.pop := by
  by_cases hnone : s.ring.length = 0
  · rw [Ledger.take, if_pos (List.length_eq_zero_iff.mp (h.length_waiting.trans hnone)), Side.pop,
      s.ring.pop?_empty hnone]
    exact h
  · have hne : l.waiting ≠ [] := fun hnil =>
      hnone (h.length_waiting.symm.trans (List.length_eq_zero_iff.mpr hnil))
    have hlist := h.waiting
    rw [s.ring.toList_popped hnone] at hlist
    have hlt : l.taken < l.accepted.length :=
      Nat.lt_of_not_le fun hle => hne (List.drop_eq_nil_of_le hle)
    rw [List.drop_eq_getElem_cons hlt] at hlist
    obtain ⟨hhead, htail⟩ := List.cons.inj hlist
    rw [Ledger.take, if_neg hne, Side.pop, s.ring.pop?_some hnone]
    refine ⟨h.capacity, hlt, ?_, htail, h.overrun⟩
    rw [h.popped, hhead]
    exact (List.take_succ_eq_append_getElem hlt).symm

end Delivered

/-! ### One step -/

namespace Keyboard

variable {k : Keyboard} {byte : UInt8}

theorem receive_key (hidle : k.isIdle) (hbyte : byte < 0xF6) :
    k.receive byte = (k, some (.key byte)) := by
  rw [receive, Option.isNone_iff_eq_none.mp hidle]
  simp only [ofHeader?_of_lt hbyte]

/-- A byte of a packet is no key, and neither is what it completes. -/
theorem receive_other (h : ¬(byte < 0xF6 ∧ k.isIdle)) :
    (k.receive byte).2.bind Event.key? = none := by
  rw [receive]
  cases hk : k.unfinished with
  | none =>
    have hbyte : ¬byte < 0xF6 := fun hlt => h ⟨hlt, Option.isNone_iff_eq_none.mpr hk⟩
    obtain ⟨packet, hpacket, -⟩ := ofHeader?_of_not_lt hbyte
    simp only [hpacket]
    rfl
  | some u =>
    simp only
    split
    · rfl
    · cases u.packet <;> rfl

/-- Between two frames the keyboard is idle. -/
theorem isIdle_receiveAll (bytes : List UInt8) :
    (receiveAll {} bytes).1.isIdle = true ↔ Whole bytes := by
  obtain ⟨frames, rest, hframed⟩ := exists_framed bytes
  obtain ⟨record, hframes⟩ := receiveAll_frames frames {}
  rw [hframed.whole_iff, hframed.eq, receiveAll_append, hframes]
  exact (receiveAll_incomplete hframed.incomplete record).2

end Keyboard

namespace Reception

def keySide (r : Reception) : Side :=
  ⟨r.queues.keyboard, r.keys, r.overruns.filterMap Overrun.key?⟩

def midiSide (r : Reception) : Side :=
  ⟨r.queues.midi, r.midi, r.overruns.filterMap Overrun.midi?⟩

variable (r : Reception) (byte : UInt8)

theorem ring_keySide : r.keySide.ring = r.queues.keyboard := rfl

theorem ring_midiSide : r.midiSide.ring = r.queues.midi := rfl

theorem keep_pushKey :
    (r.keep (r.queues.pushKey byte)).keySide = r.keySide.push byte ∧
      (r.keep (r.queues.pushKey byte)).midiSide = r.midiSide := by
  rw [Queues.pushKey, Side.push, ring_keySide]
  cases r.queues.keyboard.push? byte <;> simp [keep, keySide, midiSide, Overrun.key?, Overrun.midi?]

theorem keep_pushMidi :
    (r.keep (r.queues.pushMidi byte)).keySide = r.keySide ∧
      (r.keep (r.queues.pushMidi byte)).midiSide = r.midiSide.push byte := by
  rw [Queues.pushMidi, Side.push, ring_midiSide]
  cases r.queues.midi.push? byte <;> simp [keep, keySide, midiSide, Overrun.key?, Overrun.midi?]

theorem keyboard_keep (kept : Queues × Option Overrun) : (r.keep kept).keyboard = r.keyboard := rfl

theorem after_key (h : byte < 0xF6 ∧ r.keyboard.isIdle) :
    r.after (.receive byte) = r.keep (r.queues.pushKey byte) := by
  rw [after, Keyboard.receive_key h.2 h.1]
  rfl

theorem after_other (h : ¬(byte < 0xF6 ∧ r.keyboard.isIdle)) :
    r.after (.receive byte) = { r with keyboard := (r.keyboard.receive byte).1 } := by
  have hother := Keyboard.receive_other h
  rw [after]
  cases hreceive : r.keyboard.receive byte with
  | mk keyboard event =>
    rw [hreceive] at hother
    cases event with
    | none => rfl
    | some e =>
      cases e with
      | key code => cases hother
      | status | mouse | clock | joystick => simp [keep, Queues.deliver]

/-- Only the keyboard's bytes make a difference to the keyboard. -/
theorem keyboard_after (s : InputStep) :
    (r.after s).keyboard = match s with
      | .receive byte => (r.keyboard.receive byte).1
      | _ => r.keyboard := by
  cases s with
  | receive byte =>
    by_cases h : byte < 0xF6 ∧ r.keyboard.isIdle
    · rw [after_key r byte h, keyboard_keep]
      exact (congrArg Prod.fst (Keyboard.receive_key h.2 h.1)).symm
    · rw [after_other r byte h]
  | receiveMidi | popKey | popMidi => rfl

theorem keySide_after (s : InputStep) :
    (r.after s).keySide = match s with
      | .receive byte =>
        if byte < 0xF6 ∧ r.keyboard.isIdle then r.keySide.push byte else r.keySide
      | .popKey => r.keySide.pop
      | .receiveMidi _ | .popMidi => r.keySide := by
  cases s with
  | receive byte =>
    by_cases h : byte < 0xF6 ∧ r.keyboard.isIdle
    · rw [after_key r byte h, (r.keep_pushKey byte).1]
      exact (if_pos h).symm
    · rw [after_other r byte h]
      exact (if_neg h).symm
  | receiveMidi byte => exact (r.keep_pushMidi byte).1
  | popKey =>
    simp only [after, Queues.popKey, Side.pop, ring_keySide]
    cases r.queues.keyboard.pop? <;> simp [keySide]
  | popMidi =>
    simp only [after, Queues.popMidi]
    cases r.queues.midi.pop? <;> rfl

theorem midiSide_after (s : InputStep) :
    (r.after s).midiSide = match s with
      | .receiveMidi byte => r.midiSide.push byte
      | .popMidi => r.midiSide.pop
      | .receive _ | .popKey => r.midiSide := by
  cases s with
  | receive byte =>
    by_cases h : byte < 0xF6 ∧ r.keyboard.isIdle
    · rw [after_key r byte h]
      exact (r.keep_pushKey byte).2
    · rw [after_other r byte h]
      rfl
  | receiveMidi byte => exact (r.keep_pushMidi byte).2
  | popKey =>
    simp only [after, Queues.popKey]
    cases r.queues.keyboard.pop? <;> rfl
  | popMidi =>
    simp only [after, Queues.popMidi, Side.pop, ring_midiSide]
    cases r.queues.midi.pop? <;> simp [midiSide]

end Reception

theorem isKey_iff {stream : List UInt8} {byte : UInt8} :
    IsKey stream byte ↔ byte < 0xF6 ∧ (Keyboard.receiveAll {} stream).1.isIdle = true := by
  rw [IsKey, Keyboard.isIdle_receiveAll]

/-! ### Whole runs -/

def reception (steps : List InputStep) : Reception := steps.foldl Reception.after {}

def books (steps : List InputStep) : Books := steps.foldl Books.enter {}

/-- The bytes that `steps` receive from the keyboard processor. -/
def received (steps : List InputStep) : List UInt8 := steps.filterMap InputStep.byte?

def receivedMidi (steps : List InputStep) : List UInt8 := steps.filterMap InputStep.midiByte?

/-- The frames that are keys. -/
def keysOf (frames : List Frame) : List UInt8 :=
  (frames.map Frame.head).filter (· < 0xF6)

/-- The account `b` is that of the input side `r`. -/
structure Agrees (r : Reception) (b : Books) : Prop where
  keyboard : r.keyboard = (Keyboard.receiveAll {} b.stream).1
  keys : Delivered b.keys keyCapacity r.keySide
  midi : Delivered b.midi midiCapacity r.midiSide

theorem Agrees.enter {r : Reception} {b : Books} (h : Agrees r b) (s : InputStep) :
    Agrees (r.after s) (b.enter s) := by
  refine ⟨?_, ?_, ?_⟩
  · rw [r.keyboard_after s, h.keyboard]
    cases s with
    | receive byte =>
      show _ = (Keyboard.receiveAll {} (b.stream ++ [byte])).1
      rw [Keyboard.receiveAll_append]
      rfl
    | receiveMidi | popKey | popMidi => rfl
  · rw [r.keySide_after s]
    cases s with
    | receive byte =>
      rw [h.keyboard]
      -- The account goes by the stream where the keyboard goes by its state.
      by_cases hkey : IsKey b.stream byte
      · simp only [Books.enter, if_pos hkey, if_pos (isKey_iff.mp hkey)]
        exact h.keys.push byte
      · simp only [Books.enter, if_neg hkey, if_neg fun hidle => hkey (isKey_iff.mpr hidle)]
        exact h.keys
    | popKey => exact h.keys.pop
    | receiveMidi | popMidi => exact h.keys
  · rw [r.midiSide_after s]
    cases s with
    | receiveMidi byte => exact h.midi.push byte
    | popMidi => exact h.midi.pop
    | receive | popKey => exact h.midi

/-! ### What has come -/

theorem key?_event (f : Frame) (record : JoystickRecord) :
    (f.event record).key? = if f.head < 0xF6 then some f.head else none := by
  unfold Frame.event
  split
  · rfl
  · (repeat' split) <;> rfl

theorem keys_reports (last : JoystickRecord) (frames : List Frame) :
    (reports last frames).filterMap Event.key? = keysOf frames := by
  induction frames generalizing last with
  | nil => rfl
  | cons f fs ih =>
    rw [reports, List.filterMap_cons, key?_event, ih]
    by_cases hkey : f.head < 0xF6 <;> simp [keysOf, hkey]

/-- The keys that a keyboard reports of a stream are the frames that are keys. -/
theorem Framed.keys_receiveAll {bytes rest : List UInt8} {frames : List Frame}
    (h : Framed bytes frames rest) :
    (Keyboard.receiveAll {} bytes).2.filterMap Event.key? = keysOf frames := by
  obtain ⟨record, hframes⟩ := Keyboard.receiveAll_frames frames {}
  have hrest := (Keyboard.receiveAll_incomplete h.incomplete record).1
  rw [h.eq, Keyboard.receiveAll_append, hframes]
  show (reports {} frames ++ (Keyboard.receiveAll ⟨none, record⟩ rest).2).filterMap Event.key? = _
  rw [hrest, List.append_nil, keys_reports]

theorem Keyboard.keys_receive (k : Keyboard) (byte : UInt8) :
    (k.receiveAll [byte]).2.filterMap Event.key? =
      ((k.receive byte).2.bind Event.key?).toList := by
  cases hreceive : k.receive byte with
  | mk k' event =>
    rw [receiveAll_cons hreceive]
    cases event with
    | none => rfl
    | some e => cases e <;> rfl

theorem Keyboard.keys_append (bytes : List UInt8) (byte : UInt8) :
    (receiveAll {} (bytes ++ [byte])).2.filterMap Event.key? =
      (receiveAll {} bytes).2.filterMap Event.key? ++ if IsKey bytes byte then [byte] else [] := by
  rw [receiveAll_append, List.filterMap_append, keys_receive]
  by_cases hkey : IsKey bytes byte
  · obtain ⟨hbyte, hidle⟩ := isKey_iff.mp hkey
    rw [if_pos hkey, receive_key hidle hbyte]
    rfl
  · rw [if_neg hkey, receive_other fun h => hkey (isKey_iff.mpr h)]
    rfl

/-- All keys of the stream, and all bytes for the other ring, are in the account. -/
structure Accounted (steps : List InputStep) (b : Books) : Prop where
  stream : b.stream = received steps
  keys : b.keys.arrived = (Keyboard.receiveAll {} b.stream).2.filterMap Event.key?
  midi : b.midi.arrived = receivedMidi steps

theorem Accounted.enter {steps : List InputStep} {b : Books} (h : Accounted steps b)
    (s : InputStep) : Accounted (steps ++ [s]) (b.enter s) := by
  refine ⟨?_, ?_, ?_⟩
  · rw [received, List.filterMap_append, ← received, ← h.stream]
    cases s with
    | receive => rfl
    | receiveMidi | popKey | popMidi => exact (List.append_nil _).symm
  · cases s with
    | receive byte =>
      show (if IsKey b.stream byte then _ else _ : Ledger).arrived =
        (Keyboard.receiveAll {} (b.stream ++ [byte])).2.filterMap Event.key?
      rw [Keyboard.keys_append, ← h.keys]
      split
      · exact Ledger.arrived_arrive byte
      · exact (List.append_nil _).symm
    | popKey => exact Ledger.arrived_take.trans h.keys
    | receiveMidi | popMidi => exact h.keys
  · rw [receivedMidi, List.filterMap_append, ← receivedMidi, ← h.midi]
    cases s with
    | receiveMidi byte => exact Ledger.arrived_arrive byte
    | popMidi => exact Ledger.arrived_take.trans (List.append_nil _).symm
    | receive | popKey => exact (List.append_nil _).symm

theorem accounted_books (steps : List InputStep) : Accounted steps (books steps) := by
  induction steps using List.reverseRecOn with
  | nil => exact ⟨rfl, rfl, rfl⟩
  | append_singleton steps s ih =>
    rw [books, List.foldl_append]
    exact ih.enter s

theorem agrees_reception (steps : List InputStep) : Agrees (reception steps) (books steps) := by
  induction steps using List.reverseRecOn with
  | nil => exact ⟨rfl, .empty 0xFF 0x40 0xC0, .empty 0x7F 0x20 0x60⟩
  | append_singleton steps s ih =>
    rw [reception, books, List.foldl_append, List.foldl_append]
    exact ih.enter s

/-! ### Each ring by itself -/

namespace Reception

variable {r r' : Reception}

/-- What comes of the keyboard's side depends on that side only. -/
theorem keySide_congr (hkeyboard : r.keyboard = r'.keyboard) (hside : r.keySide = r'.keySide)
    (s : InputStep) : (r.after s).keyboard = (r'.after s).keyboard ∧
      (r.after s).keySide = (r'.after s).keySide := by
  rw [keyboard_after, keyboard_after, keySide_after, keySide_after, hkeyboard, hside]
  exact ⟨rfl, rfl⟩

theorem midiSide_congr (hside : r.midiSide = r'.midiSide) (s : InputStep) :
    (r.after s).midiSide = (r'.after s).midiSide := by
  rw [midiSide_after, midiSide_after, hside]

theorem keySide_foldl (steps : List InputStep) (hkeyboard : r.keyboard = r'.keyboard)
    (hside : r.keySide = r'.keySide) :
    (steps.foldl after r).keySide = ((steps.filter InputStep.forKeys).foldl after r').keySide := by
  induction steps generalizing r r' with
  | nil => exact hside
  | cons s steps ih =>
    cases s with
    | receive | popKey =>
      obtain ⟨hkeyboard', hside'⟩ := keySide_congr hkeyboard hside _
      exact ih hkeyboard' hside'
    | receiveMidi | popMidi =>
      -- Only the run of all steps goes on.
      refine ih ?_ ?_
      · rw [keyboard_after, hkeyboard]
      · rw [keySide_after, hside]

theorem midiSide_foldl (steps : List InputStep) (hside : r.midiSide = r'.midiSide) :
    (steps.foldl after r).midiSide =
      ((steps.filter fun s => !s.forKeys).foldl after r').midiSide := by
  induction steps generalizing r r' with
  | nil => exact hside
  | cons s steps ih =>
    cases s with
    | receiveMidi | popMidi => exact ih (midiSide_congr hside _)
    | receive | popKey => exact ih (by rw [midiSide_after, hside])

end Reception

/-- In any order of bytes that come and bytes that are taken out, what each ring has given out and
what waits in it are the bytes that came while there was room, and each other one is an overrun. All
that comes for the one ring are the keys of the stream, for the other one the bytes from the MIDI
port. Neither makes a difference to the other. -/
theorem input_delivered (steps : List InputStep) :
    let b := books steps
    let r := reception steps
    Delivered b.keys keyCapacity r.keySide ∧ Delivered b.midi midiCapacity r.midiSide ∧
      (∃ frames rest, Framed (received steps) frames rest ∧ b.keys.arrived = keysOf frames) ∧
      b.midi.arrived = receivedMidi steps ∧
      r.keySide = (reception (steps.filter InputStep.forKeys)).keySide ∧
      r.midiSide = (reception (steps.filter fun s => !s.forKeys)).midiSide := by
  obtain ⟨-, hkeys, hmidi⟩ := agrees_reception steps
  have hbooks := accounted_books steps
  obtain ⟨frames, rest, hframed⟩ := exists_framed (received steps)
  refine ⟨hkeys, hmidi, ⟨frames, rest, hframed, ?_⟩, hbooks.midi, ?_, ?_⟩
  · rw [hbooks.keys, hbooks.stream, hframed.keys_receiveAll]
  · exact Reception.keySide_foldl steps rfl rfl
  · exact Reception.midiSide_foldl steps rfl

end Peripherals.Input
