import Mathlib.Data.List.Induction
import Peripherals.Proofs.Input.Stream

/-! The joystick record is a function of the frames so far: the header of the last joystick packet,
and for each stick what the last packet that tells of it has told. -/

namespace Peripherals.Input

variable {bytes rest : List UInt8} {frames : List Frame}

namespace Frame

/-- The frame is a packet about joysticks: about both, about joystick 0 or about joystick 1. -/
def IsJoystick (f : Frame) : Prop := f.head = 0xFD ∨ f.head = 0xFE ∨ f.head = 0xFF

instance (f : Frame) : Decidable f.IsJoystick := inferInstanceAs (Decidable (_ ∨ _))

def joystickHeader? (f : Frame) : Option UInt8 := if f.IsJoystick then some f.head else none

/-- What the frame tells of joystick 0. -/
def stick0? (f : Frame) : Option UInt8 :=
  if f.head = 0xFD ∨ f.head = 0xFE then f.payload[0]? else none

/-- What the frame tells of joystick 1. -/
def stick1? (f : Frame) : Option UInt8 :=
  if f.head = 0xFD then f.payload[1]? else if f.head = 0xFF then f.payload[0]? else none

end Frame

/-- What is told last, or 0 where nothing is told. -/
def latest (told? : Frame → Option UInt8) (frames : List Frame) : UInt8 :=
  (frames.filterMap told?).getLastD 0

theorem latest_concat (told? : Frame → Option UInt8) (frames : List Frame) (f : Frame) :
    latest told? (frames ++ [f]) = (told? f).getD (latest told? frames) := by
  cases h : told? f with
  | none => simp [latest, h]
  | some byte => simp [latest, h]

/-- The record that `frames` leave behind. -/
def recordOf (frames : List Frame) : JoystickRecord where
  header := latest Frame.joystickHeader? frames
  stick0 := latest Frame.stick0? frames
  stick1 := latest Frame.stick1? frames

/-- A joystick packet has a byte for each stick that it tells of. -/
theorem Frame.IsJoystick.cases {f : Frame} (h : f.IsJoystick) :
    (f.head = 0xFD ∧ ∃ b0 b1, f.payload = [b0, b1]) ∨ (f.head = 0xFE ∧ ∃ b0, f.payload = [b0]) ∨
      (f.head = 0xFF ∧ ∃ b1, f.payload = [b1]) := by
  have hlength := f.length_eq
  obtain hhead | hhead | hhead := h
  · have htwo : f.payload.length = 2 := by rw [hlength, hhead]; decide
    exact .inl ⟨hhead, List.length_eq_two.mp htwo⟩
  · have hone : f.payload.length = 1 := by rw [hlength, hhead]; decide
    exact .inr (.inl ⟨hhead, List.length_eq_one_iff.mp hone⟩)
  · have hone : f.payload.length = 1 := by rw [hlength, hhead]; decide
    exact .inr (.inr ⟨hhead, List.length_eq_one_iff.mp hone⟩)

theorem Frame.head_of_not {f : Frame} (h : ¬f.IsJoystick) :
    f.head ≠ 0xFD ∧ f.head ≠ 0xFE ∧ f.head ≠ 0xFF := by
  simpa [IsJoystick] using h

/-- No other frame changes the record. -/
theorem record_of_not {f : Frame} (h : ¬f.IsJoystick) (last : JoystickRecord) :
    f.record last = last := by
  obtain ⟨hboth, h0, h1⟩ := f.head_of_not h
  rw [Frame.record, if_neg hboth, if_neg h0, if_neg h1]

/-- A packet is merged with what the frames before it have told. -/
theorem recordOf_concat (frames : List Frame) (f : Frame) :
    recordOf (frames ++ [f]) = f.record (recordOf frames) := by
  simp only [recordOf, latest_concat]
  by_cases h : f.IsJoystick
  · obtain ⟨hhead, b0, b1, hpayload⟩ | ⟨hhead, b0, hpayload⟩ | ⟨hhead, b1, hpayload⟩ := h.cases
    all_goals
      simp [Frame.record, Frame.joystickHeader?, Frame.stick0?, Frame.stick1?, Frame.IsJoystick,
        hhead, hpayload]
  · obtain ⟨hboth, h0, h1⟩ := f.head_of_not h
    rw [record_of_not h]
    simp [Frame.joystickHeader?, Frame.stick0?, Frame.stick1?, h, hboth, h0, h1]

/-- Behind a joystick packet the record has its header. -/
theorem recordOf_of_isJoystick {f : Frame} (h : f.IsJoystick) (frames : List Frame) :
    recordOf (frames ++ [f]) = ⟨f.head, latest Frame.stick0? (frames ++ [f]),
      latest Frame.stick1? (frames ++ [f])⟩ := by
  rw [recordOf, latest_concat Frame.joystickHeader?, Frame.joystickHeader?, if_pos h]
  rfl

theorem event_of_isJoystick {f : Frame} (h : f.IsJoystick) (record : JoystickRecord) :
    f.event record = record.event := by
  obtain hhead | hhead | hhead := h <;> rw [Frame.event, hhead] <;> rfl

theorem event_ne_joystick {f : Frame} (h : ¬f.IsJoystick) (record : JoystickRecord)
    (header stick0 stick1 : UInt8) : f.event record ≠ .joystick header stick0 stick1 := by
  unfold Frame.event
  split_ifs with hkey hstatus hmouse hmove hclock
  iterate 5 nofun
  -- What is left is a header above those of the clock.
  refine absurd ?_ h
  rw [UInt8.le_iff_toNat_le] at hmove
  rw [← UInt8.toNat_inj] at hclock
  simp only [Frame.IsJoystick, ← UInt8.toNat_inj, UInt8.reduceToNat] at hmove hclock ⊢
  have hlt := f.head.toNat_lt
  omega

/-! ### Streams -/

theorem recordAfter_concat (last : JoystickRecord) (frames : List Frame) (f : Frame) :
    recordAfter last (frames ++ [f]) = f.record (recordAfter last frames) := by
  rw [recordAfter, List.foldl_append]
  rfl

theorem recordAfter_eq (frames : List Frame) : recordAfter {} frames = recordOf frames := by
  induction frames using List.reverseRecOn with
  | nil => rfl
  | append_singleton frames f ih => rw [recordAfter_concat, ih, recordOf_concat]

theorem reports_concat (last : JoystickRecord) (frames : List Frame) (f : Frame) :
    reports last (frames ++ [f]) =
      reports last frames ++ [f.event (recordAfter last (frames ++ [f]))] := by
  induction frames generalizing last with
  | nil => rfl
  | cons g gs ih => exact congrArg (_ :: ·) (ih _)

theorem receiveAll_framed (h : Framed bytes frames rest) :
    (Keyboard.receiveAll {} bytes).1.joystick = recordOf frames ∧
      (Keyboard.receiveAll {} bytes).2 = reports {} frames := by
  rw [h.eq, Keyboard.receiveAll_append, Keyboard.receiveAll_frames_eq, recordAfter_eq]
  cases rest with
  | nil => exact ⟨rfl, List.append_nil _⟩
  | cons header payload =>
    obtain ⟨u, hbegun⟩ := Keyboard.receiveAll_begun h.incomplete (recordOf frames)
    rw [hbegun]
    exact ⟨rfl, List.append_nil _⟩

section Byte

variable {byte : UInt8}

/-- A byte that ends a frame makes the keyboard report it. -/
theorem receive_last {before : List Frame} {f : Frame} {init : List UInt8}
    (hbefore : Framed bytes before init) (hframed : Framed (bytes ++ [byte]) (before ++ [f]) []) :
    ((Keyboard.receiveAll {} bytes).1.receive byte).1.joystick = recordOf (before ++ [f]) ∧
      ((Keyboard.receiveAll {} bytes).1.receive byte).2 =
        some (f.event (recordOf (before ++ [f]))) := by
  obtain ⟨hrecord, hevents⟩ := receiveAll_framed hframed
  rw [Keyboard.receiveAll_concat] at hrecord hevents
  rw [(receiveAll_framed hbefore).2, reports_concat, recordAfter_eq] at hevents
  exact ⟨hrecord, Option.toList_eq_singleton_iff.mp (List.append_cancel_left hevents)⟩

/-- A byte in the middle of a frame makes it report nothing. -/
theorem receive_inner {init : List UInt8} (hbefore : Framed bytes frames init)
    (hframed : Framed (bytes ++ [byte]) frames rest) :
    ((Keyboard.receiveAll {} bytes).1.receive byte).1.joystick = recordOf frames ∧
      ((Keyboard.receiveAll {} bytes).1.receive byte).2 = none := by
  obtain ⟨hrecord, hevents⟩ := receiveAll_framed hframed
  rw [Keyboard.receiveAll_concat] at hrecord hevents
  rw [(receiveAll_framed hbefore).2] at hevents
  exact ⟨hrecord, Option.toList_eq_nil_iff.mp (List.append_right_eq_self.mp hevents)⟩

/-- The byte does not touch the record, and the event that it completes is not about joysticks. -/
def Untouched (k : Keyboard) (byte : UInt8) : Prop :=
  (k.receive byte).1.joystick = k.joystick ∧
    ∀ header stick0 stick1, (k.receive byte).2 ≠ some (.joystick header stick0 stick1)

theorem untouched_last {before : List Frame} {f : Frame} {init : List UInt8}
    (hbefore : Framed bytes before init) (hframed : Framed (bytes ++ [byte]) (before ++ [f]) [])
    (hf : ¬f.IsJoystick) : Untouched (Keyboard.receiveAll {} bytes).1 byte := by
  obtain ⟨hrecord, hevent⟩ := receive_last hbefore hframed
  refine ⟨?_, fun header stick0 stick1 heq => ?_⟩
  · rw [hrecord, recordOf_concat, record_of_not hf, (receiveAll_framed hbefore).1]
  · rw [hevent] at heq
    exact event_ne_joystick hf _ _ _ _ (Option.some.inj heq)

theorem untouched_inner {init : List UInt8} (hbefore : Framed bytes frames init)
    (hframed : Framed (bytes ++ [byte]) frames rest) :
    Untouched (Keyboard.receiveAll {} bytes).1 byte := by
  obtain ⟨hrecord, hevent⟩ := receive_inner hbefore hframed
  refine ⟨?_, fun header stick0 stick1 heq => ?_⟩
  · rw [hrecord, (receiveAll_framed hbefore).1]
  · rw [hevent] at heq
    cases heq

/-- A byte that ends a joystick packet makes the keyboard report its header, with what was told last
of each stick, and keep the same record. No other byte changes the record or makes it report one.
The record in the keyboard with the buffer is the same. -/
theorem joystick_merged (h : Framed (bytes ++ [byte]) frames rest) :
    let k := (Keyboard.receiveAll {} bytes).1
    let k' := (k.receive byte).1
    let event := (k.receive byte).2
    (∀ before f, frames = before ++ [f] → rest = [] → f.IsJoystick →
      k'.joystick.bytes = [f.head, latest Frame.stick0? frames, latest Frame.stick1? frames] ∧
      event = some (.joystick f.head (latest Frame.stick0? frames) (latest Frame.stick1? frames))) ∧
    ((∀ before f, frames = before ++ [f] → rest = [] → ¬f.IsJoystick) → Untouched k byte) ∧
    ∃ a events, Assembler.receiveAll {} (bytes ++ [byte]) = some (a, events ++ event.toList) ∧
      a.joystick = k'.joystick := by
  intro k k' event
  obtain ⟨a, hassembled, hholds⟩ := Assembler.holds_fresh.receiveAll (bytes ++ [byte])
  rw [Keyboard.receiveAll_concat] at hassembled hholds
  refine and_assoc.mp ⟨?_, a, _, hassembled, hholds.joystick⟩
  obtain ⟨before, f, init, rfl, rfl, hbefore⟩ | ⟨init, rfl, hbefore⟩ := h.of_concat
  · refine ⟨fun before' f' heq _ hjoystick => ?_, fun hother =>
      untouched_last hbefore h (hother before f rfl rfl)⟩
    obtain ⟨-, hlast⟩ := List.append_inj' heq rfl
    cases hlast
    obtain ⟨hrecord, hevent⟩ := receive_last hbefore h
    have hmerged := recordOf_of_isJoystick hjoystick before
    rw [hmerged] at hrecord hevent
    exact ⟨congrArg JoystickRecord.bytes hrecord, hevent.trans
      (congrArg some (event_of_isJoystick hjoystick _))⟩
  · refine ⟨fun _ _ _ hnil => ?_, fun _ => untouched_inner hbefore h⟩
    simp at hnil

/-- Packets about both sticks and about each of them, with a key and the mouse in between. -/
theorem joystick_merged_three :
    ((Keyboard.receiveAll {} [0xFD, 1, 0x82, 0x30, 0xFE, 4, 0xF8, 1, 2, 0xFF]).1.receive 8).2 =
      some (.joystick 0xFF 4 8) := by
  have hframed : Framed ([0xFD, 1, 0x82, 0x30, 0xFE, 4, 0xF8, 1, 2, 0xFF] ++ [8])
      ([⟨0xFD, [1, 0x82], by decide⟩, ⟨0x30, [], by decide⟩, ⟨0xFE, [4], by decide⟩,
        ⟨0xF8, [1, 2], by decide⟩] ++ [⟨0xFF, [8], by decide⟩]) [] :=
    ⟨by decide, incomplete_nil⟩
  exact ((joystick_merged hframed).1 _ _ rfl rfl (by decide)).2

end Byte

end Peripherals.Input
