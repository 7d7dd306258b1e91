import Peripherals.Proofs.Input.Assembler
import Peripherals.Proofs.Input.Grammar

/-! What a keyboard reports of a stream: one event for each frame, in their order. -/

namespace Peripherals.Input

/-- The joystick record after a frame, where `last` is the one before it. -/
def Frame.record (f : Frame) (last : JoystickRecord) : JoystickRecord :=
  if f.head = 0xFD then ⟨f.head, f.payload.getD 0 0, f.payload.getD 1 0⟩
  else if f.head = 0xFE then ⟨f.head, f.payload.getD 0 0, last.stick1⟩
  else if f.head = 0xFF then ⟨f.head, last.stick0, f.payload.getD 0 0⟩
  else last

/-- What is reported of a frame, where `record` is the joystick record after it. -/
def Frame.event (f : Frame) (record : JoystickRecord) : Event :=
  if f.head < 0xF6 then .key f.head
  else if f.head = 0xF6 then .status f.payload
  else if f.head = 0xF7 then .mouse f.payload
  else if f.head ≤ 0xFB then .mouse f.bytes
  else if f.head = 0xFC then .clock f.payload
  else .joystick record.header record.stick0 record.stick1

/-- What is reported of `frames`, where `last` is the joystick record before them. -/
def reports (last : JoystickRecord) : (frames : List Frame) → List Event
  | [] => []
  | f :: fs => f.event (f.record last) :: reports (f.record last) fs

/-- The joystick record after `frames`, where `last` is the one before them. -/
def recordAfter (last : JoystickRecord) (frames : List Frame) : JoystickRecord :=
  frames.foldl (fun record f => f.record record) last

namespace Keyboard

/-- As long as bytes are missing to a packet nothing is reported. -/
theorem receiveAll_unfinished (u : Unfinished) (last : JoystickRecord) (bytes : List UInt8)
    (h : (u.payload ++ bytes).length < u.packet.payloadLength) :
    receiveAll ⟨some u, last⟩ bytes =
      (⟨some ⟨u.header, u.packet, u.payload ++ bytes, h⟩, last⟩, []) := by
  induction bytes generalizing u with
  | nil =>
    simp only [List.append_nil]
    rfl
  | cons byte bytes ih =>
    have hbyte : (u.payload ++ [byte]).length < u.packet.payloadLength := by
      simp only [List.length_append, List.length_cons, List.length_nil] at h ⊢
      omega
    have hrest : (u.payload ++ [byte] ++ bytes).length < u.packet.payloadLength := by
      rwa [List.append_assoc]
    have hreceive : receive ⟨some u, last⟩ byte =
        (⟨some ⟨u.header, u.packet, u.payload ++ [byte], hbyte⟩, last⟩, none) :=
      dif_pos hbyte
    rw [receiveAll_cons hreceive, ih _ hrest]
    simp only [List.append_assoc, List.singleton_append, Option.toList_none, List.nil_append]

/-- The last byte of a packet completes it. -/
theorem receiveAll_finished (u : Unfinished) (last : JoystickRecord) {bytes : List UInt8}
    (h : (u.payload ++ bytes).length = u.packet.payloadLength) :
    let record := joystickAfter last u.header u.packet (u.payload ++ bytes)
    receiveAll ⟨some u, last⟩ bytes =
      (⟨none, record⟩, [eventOf record u.header u.packet (u.payload ++ bytes)]) := by
  have hlt := u.length_lt
  have hne : bytes ≠ [] := by
    rintro rfl
    rw [List.append_nil] at h
    omega
  obtain ⟨before, byte, rfl⟩ := (List.eq_nil_or_concat' bytes).resolve_left hne
  rw [← List.append_assoc] at h ⊢
  have hbefore : (u.payload ++ before).length < u.packet.payloadLength := by
    rw [List.length_append, List.length_singleton] at h
    omega
  have hreceive : receive
      ⟨some ⟨u.header, u.packet, u.payload ++ before, hbefore⟩, last⟩ byte = _ :=
    dif_neg (Nat.not_lt.mpr (Nat.le_of_eq h.symm))
  rw [receiveAll_append, receiveAll_unfinished u last before hbefore, receiveAll_cons hreceive]
  rfl

theorem receiveAll_header {header : UInt8} {packet : Packet} {last : JoystickRecord}
    (h : Packet.ofHeader? header = some packet) (bytes : List UInt8) :
    receiveAll ⟨none, last⟩ (header :: bytes) =
      receiveAll ⟨some ⟨header, packet, [], packet.payloadLength_pos⟩, last⟩ bytes := by
  have hreceive : receive ⟨none, last⟩ header =
      (⟨some ⟨header, packet, [], packet.payloadLength_pos⟩, last⟩, none) := by
    rw [receive]
    simp only [h]
  rw [receiveAll_cons hreceive]
  rfl

theorem receiveAll_key {code : UInt8} (h : code < 0xF6) (last : JoystickRecord) :
    receiveAll ⟨none, last⟩ [code] = (⟨none, last⟩, [.key code]) := by
  have hreceive : receive ⟨none, last⟩ code = (⟨none, last⟩, some (.key code)) := by
    rw [receive]
    simp only [ofHeader?_of_lt h]
  rw [receiveAll_cons hreceive]
  rfl

/-- A packet is reported as the handlers expect the frame that it came in. -/
theorem packet_reported {f : Frame} {packet : Packet} (h : ¬f.head < 0xF6)
    (hpacket : Packet.ofHeader? f.head = some packet) (last : JoystickRecord) :
    joystickAfter last f.head packet f.payload = f.record last ∧
      ∀ record, eventOf record f.head packet f.payload = f.event record := by
  obtain ⟨head, payload, hlength⟩ := f
  obtain ⟨n, hn, rfl⟩ := exists_header h
  interval_cases n <;> (cases hpacket; exact ⟨rfl, fun _ => rfl⟩)

theorem receiveAll_frame (f : Frame) (last : JoystickRecord) :
    receiveAll ⟨none, last⟩ f.bytes = (⟨none, f.record last⟩, [f.event (f.record last)]) := by
  by_cases h : f.head < 0xF6
  · have hpayload : f.payload = [] :=
      List.length_eq_zero_iff.mp (f.length_eq.trans (following_of_lt h))
    have hne (b : UInt8) (hb : ¬b < 0xF6) : f.head ≠ b := fun heq => hb (heq ▸ h)
    have hrecord : f.record last = last := by
      rw [Frame.record, if_neg (hne _ (by decide)), if_neg (hne _ (by decide)),
        if_neg (hne _ (by decide))]
    rw [Frame.bytes, hpayload, receiveAll_key h, hrecord, Frame.event, if_pos h]
  · obtain ⟨packet, hpacket, hlength⟩ := ofHeader?_of_not_lt h
    obtain ⟨hrecord, hevent⟩ := packet_reported h hpacket last
    rw [Frame.bytes, receiveAll_header hpacket,
      receiveAll_finished ⟨_, packet, [], _⟩ last (f.length_eq.trans hlength.symm)]
    simp only [List.nil_append, hrecord, hevent]

theorem receiveAll_frames_eq (frames : List Frame) (last : JoystickRecord) :
    receiveAll ⟨none, last⟩ (frames.flatMap Frame.bytes) =
      (⟨none, recordAfter last frames⟩, reports last frames) := by
  induction frames generalizing last with
  | nil => rfl
  | cons f fs ih =>
    rw [List.flatMap_cons, receiveAll_append, receiveAll_frame, ih]
    rfl

theorem receiveAll_frames (frames : List Frame) (last : JoystickRecord) :
    ∃ record, receiveAll ⟨none, last⟩ (frames.flatMap Frame.bytes) =
      (⟨none, record⟩, reports last frames) :=
  ⟨_, receiveAll_frames_eq frames last⟩

/-- The beginning of a frame is kept. -/
theorem receiveAll_begun {header : UInt8} {payload : List UInt8}
    (h : Incomplete (header :: payload)) (last : JoystickRecord) :
    ∃ u, receiveAll ⟨none, last⟩ (header :: payload) = (⟨some u, last⟩, []) := by
  have hlt := incomplete_cons.mp h
  have hheader : ¬header < 0xF6 := by
    intro hkey
    rw [following_of_lt hkey] at hlt
    exact Nat.not_lt_zero _ hlt
  obtain ⟨packet, hpacket, hlength⟩ := ofHeader?_of_not_lt hheader
  rw [receiveAll_header hpacket, receiveAll_unfinished _ last payload (by rwa [hlength])]
  exact ⟨_, rfl⟩

/-- Nothing is reported of the beginning of a frame, and the keyboard waits for the rest of it. -/
theorem receiveAll_incomplete {bytes : List UInt8} (h : Incomplete bytes) (last : JoystickRecord) :
    (receiveAll ⟨none, last⟩ bytes).2 = [] ∧
      ((receiveAll ⟨none, last⟩ bytes).1.isIdle = true ↔ bytes = []) := by
  cases bytes with
  | nil => exact ⟨rfl, by simp [receiveAll, isIdle]⟩
  | cons header payload =>
    obtain ⟨u, hbegun⟩ := receiveAll_begun h last
    rw [hbegun]
    simp [isIdle]

end Keyboard

/-- There is one way to take a stream apart into frames and the beginning of one more. A keyboard
reports each of the frames, and is idle where there is no such beginning. In its buffer there is
room for every byte that it stores, and it never counts below zero. -/
theorem stream_framed (bytes : List UInt8) :
    ∃ frames rest, Framed bytes frames rest ∧
      (∀ frames' rest', Framed bytes frames' rest' → frames' = frames ∧ rest' = rest) ∧
      (Keyboard.receiveAll {} bytes).2 = reports {} frames ∧
      ((Keyboard.receiveAll {} bytes).1.isIdle = true ↔ rest = []) ∧
      ∃ a, Assembler.receiveAll {} bytes = some (a, reports {} frames) ∧
        (a.packet = none ↔ rest = []) := by
  obtain ⟨frames, rest, hframed⟩ := exists_framed bytes
  obtain ⟨record, hframes⟩ := Keyboard.receiveAll_frames frames {}
  obtain ⟨hrest, hidle⟩ := Keyboard.receiveAll_incomplete hframed.incomplete record
  have hevents : (Keyboard.receiveAll {} bytes).2 = reports {} frames := by
    rw [hframed.eq, Keyboard.receiveAll_append, hframes]
    simp [hrest]
  have hwaits : (Keyboard.receiveAll {} bytes).1.isIdle = true ↔ rest = [] := by
    rw [hframed.eq, Keyboard.receiveAll_append, hframes]
    exact hidle
  obtain ⟨a, hassembled, hholds⟩ := Assembler.holds_fresh.receiveAll bytes
  refine ⟨frames, rest, hframed, fun frames' rest' h => ?_, hevents, hwaits, a, ?_, ?_⟩
  · exact framed_unique h.incomplete hframed.incomplete (h.eq.symm.trans hframed.eq)
  · rw [hassembled, hevents]
  · rw [hholds.packet_eq_none, hwaits]

end Peripherals.Input
