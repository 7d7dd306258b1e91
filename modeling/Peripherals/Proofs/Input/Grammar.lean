import Mathlib.Data.List.Basic
import Mathlib.Tactic.IntervalCases
import Peripherals.Input.Keyboard

/-! The grammar of the stream of a keyboard processor. The stream is a sequence of frames and the
beginning of one more. A frame is a byte and as many others as have to follow it: none follows a
key, and any bytes follow a header. There is one way to take a stream apart. -/

namespace Peripherals.Input

/-- The numbers of bytes that follow the headers 0xF6 to 0xFF. -/
def payloadLengths : List Nat := [7, 5, 2, 2, 2, 2, 6, 2, 1, 1]

/-- The number of bytes that follow `head` in a frame. -/
def following (head : UInt8) : Nat :=
  if head < 0xF6 then 0 else payloadLengths.getD (head.toNat - 0xF6) 0

/-- A key, or a header with its whole payload. -/
structure Frame where
  head : UInt8
  payload : List UInt8
  length_eq : payload.length = following head
  deriving DecidableEq

def Frame.bytes (f : Frame) : List UInt8 := f.head :: f.payload

/-- The bytes begin a frame and do not end it. -/
def Incomplete (bytes : List UInt8) : Prop := ∃ f : Frame, bytes <+: f.bytes ∧ bytes ≠ f.bytes

/-- The stream `bytes` is `frames` and the beginning `rest` of one more. -/
structure Framed (bytes : List UInt8) (frames : List Frame) (rest : List UInt8) : Prop where
  eq : bytes = frames.flatMap Frame.bytes ++ rest
  incomplete : Incomplete rest

/-! ### Headers -/

theorem following_of_lt {b : UInt8} (h : b < 0xF6) : following b = 0 := if_pos h

theorem ofHeader?_of_lt {b : UInt8} (h : b < 0xF6) : Packet.ofHeader? b = none := if_pos h

theorem exists_header {b : UInt8} (h : ¬b < 0xF6) : ∃ n < 10, b = UInt8.ofNat (0xF6 + n) := by
  have hlow : 0xF6 ≤ b.toNat := by
    rw [UInt8.lt_iff_toNat_lt] at h
    exact Nat.le_of_not_lt h
  have hhigh : b.toNat < 0x100 := b.toNat_lt
  refine ⟨b.toNat - 0xF6, by omega, ?_⟩
  rw [Nat.add_sub_cancel' hlow, UInt8.ofNat_toNat]

/-- Every other byte announces a packet, whose length is that of the rest of its frame. -/
theorem ofHeader?_of_not_lt {b : UInt8} (h : ¬b < 0xF6) :
    ∃ p, Packet.ofHeader? b = some p ∧ p.payloadLength = following b := by
  obtain ⟨n, hn, rfl⟩ := exists_header h
  interval_cases n <;> exact ⟨_, rfl, by decide⟩

/-! ### Frames -/

/-- The number of bytes that are missing to a frame tells whether there are enough. -/
theorem incomplete_cons {head : UInt8} {payload : List UInt8} :
    Incomplete (head :: payload) ↔ payload.length < following head := by
  constructor
  · rintro ⟨f, hprefix, hne⟩
    obtain ⟨rfl, hpayload⟩ := List.cons_prefix_cons.mp hprefix
    have hle := hpayload.length_le
    rw [f.length_eq] at hle
    refine Nat.lt_of_le_of_ne hle fun heq => hne ?_
    rw [Frame.bytes, hpayload.eq_of_length (heq.trans f.length_eq.symm)]
  · intro hlt
    let missing := List.replicate (following head - payload.length) (0 : UInt8)
    refine ⟨⟨head, payload ++ missing, ?_⟩, ?_, ?_⟩
    · rw [List.length_append, List.length_replicate]
      omega
    · exact List.cons_prefix_cons.mpr ⟨rfl, List.prefix_append _ _⟩
    · intro heq
      have hlength := congrArg List.length heq
      simp only [Frame.bytes, List.length_cons, List.length_append, List.length_replicate,
        missing] at hlength
      omega

theorem incomplete_nil : Incomplete [] :=
  ⟨⟨0, [], rfl⟩, List.nil_prefix, by simp [Frame.bytes]⟩

/-- What begins with a whole frame is not the beginning of one. -/
theorem not_incomplete_append (f : Frame) (bytes : List UInt8) :
    ¬Incomplete (f.bytes ++ bytes) := by
  rw [Frame.bytes, List.cons_append, incomplete_cons, List.length_append, f.length_eq]
  omega

theorem Frame.append_inj {f g : Frame} {xs ys : List UInt8}
    (h : f.bytes ++ xs = g.bytes ++ ys) : f = g ∧ xs = ys := by
  cases f with
  | mk head payload hlength =>
    cases g with
    | mk head' payload' hlength' =>
      simp only [Frame.bytes, List.cons_append, List.cons.injEq] at h
      obtain ⟨rfl, htail⟩ := h
      obtain ⟨rfl, rfl⟩ := List.append_inj htail (hlength.trans hlength'.symm)
      exact ⟨rfl, rfl⟩

/-- There is at most one way to take a stream apart. -/
theorem framed_unique {frames frames' : List Frame} {rest rest' : List UInt8}
    (hrest : Incomplete rest) (hrest' : Incomplete rest')
    (h : frames.flatMap Frame.bytes ++ rest = frames'.flatMap Frame.bytes ++ rest') :
    frames = frames' ∧ rest = rest' := by
  induction frames generalizing frames' with
  | nil =>
    cases frames' with
    | nil => exact ⟨rfl, h⟩
    | cons g gs =>
      simp only [List.flatMap_nil, List.nil_append, List.flatMap_cons, List.append_assoc] at h
      rw [h] at hrest
      exact absurd hrest (not_incomplete_append g _)
  | cons f fs ih =>
    simp only [List.flatMap_cons, List.append_assoc] at h
    cases frames' with
    | nil =>
      simp only [List.flatMap_nil, List.nil_append] at h
      rw [← h] at hrest'
      exact absurd hrest' (not_incomplete_append f _)
    | cons g gs =>
      simp only [List.flatMap_cons, List.append_assoc] at h
      obtain ⟨rfl, htail⟩ := Frame.append_inj h
      obtain ⟨rfl, rfl⟩ := ih htail
      exact ⟨rfl, rfl⟩

/-- There is a way to take any stream apart. -/
theorem exists_framed : (bytes : List UInt8) → ∃ frames rest, Framed bytes frames rest
  | [] => ⟨[], [], rfl, incomplete_nil⟩
  | head :: tail => by
    by_cases hlt : tail.length < following head
    · exact ⟨[], head :: tail, rfl, incomplete_cons.mpr hlt⟩
    · have hlength : (tail.take (following head)).length = following head := by
        rw [List.length_take]
        omega
      obtain ⟨frames, rest, heq, hrest⟩ := exists_framed (tail.drop (following head))
      refine ⟨⟨head, _, hlength⟩ :: frames, rest, ?_, hrest⟩
      rw [List.flatMap_cons, List.append_assoc, ← heq, Frame.bytes, List.cons_append,
        List.take_append_drop]
termination_by bytes => bytes.length
decreasing_by
  simp only [List.length_drop, List.length_cons]
  omega

/-! ### The last byte of a stream -/

theorem incomplete_of_concat {bytes : List UInt8} {byte : UInt8}
    (h : Incomplete (bytes ++ [byte])) : Incomplete bytes := by
  obtain ⟨f, hprefix, -⟩ := h
  refine ⟨f, (List.prefix_append bytes [byte]).trans hprefix, ?_⟩
  rintro rfl
  have hle := hprefix.length_le
  rw [List.length_append, List.length_singleton] at hle
  omega

theorem incomplete_of_eq_bytes {f : Frame} {bytes : List UInt8} {byte : UInt8}
    (h : f.bytes = bytes ++ [byte]) : Incomplete bytes := by
  refine ⟨f, h ▸ List.prefix_append bytes [byte], fun heq => ?_⟩
  have hlength := congrArg List.length (heq.trans h)
  rw [List.length_append, List.length_singleton] at hlength
  omega

/-- The last byte of a stream ends a frame, or is part of the one under way. -/
theorem Framed.of_concat {bytes rest : List UInt8} {byte : UInt8} {frames : List Frame}
    (h : Framed (bytes ++ [byte]) frames rest) :
    (∃ before f init, frames = before ++ [f] ∧ rest = [] ∧ Framed bytes before init) ∨
      ∃ init, rest = init ++ [byte] ∧ Framed bytes frames init := by
  obtain ⟨heq, hincomplete⟩ := h
  obtain rfl | ⟨init, last, rfl⟩ := List.eq_nil_or_concat' rest
  · rw [List.append_nil] at heq
    obtain rfl | ⟨before, f, rfl⟩ := List.eq_nil_or_concat' frames
    · simp at heq
    obtain hnil | ⟨init, last, hbytes⟩ := List.eq_nil_or_concat' f.bytes
    · exact absurd hnil (List.cons_ne_nil _ _)
    rw [List.flatMap_append, List.flatMap_singleton, hbytes, ← List.append_assoc] at heq
    obtain ⟨rfl, -⟩ := List.append_inj' heq rfl
    exact .inl ⟨before, f, init, rfl, rfl, rfl, incomplete_of_eq_bytes hbytes⟩
  · rw [← List.append_assoc] at heq
    obtain ⟨rfl, hlast⟩ := List.append_inj' heq rfl
    cases hlast
    exact .inr ⟨init, rfl, rfl, incomplete_of_concat hincomplete⟩

/-! ### Whole frames -/

/-- The bytes are frames, and none is missing. -/
def Whole (bytes : List UInt8) : Prop := ∃ frames : List Frame, bytes = frames.flatMap Frame.bytes

/-- The number of bytes that are missing after `bytes` to the frame under way, where `pending` were
missing before. -/
def missing : (pending : Nat) → (bytes : List UInt8) → Nat
  | pending, [] => pending
  | 0, head :: bytes => missing (following head) bytes
  | pending + 1, _ :: bytes => missing pending bytes

theorem missing_append (xs ys : List UInt8) : missing xs.length (xs ++ ys) = missing 0 ys := by
  induction xs with
  | nil => rfl
  | cons x xs ih => exact ih

theorem missing_of_lt {bytes : List UInt8} {pending : Nat} (h : bytes.length < pending) :
    missing pending bytes ≠ 0 := by
  induction bytes generalizing pending with
  | nil => exact Nat.ne_of_gt h
  | cons b bytes ih =>
    cases pending with
    | zero => exact absurd h (Nat.not_lt_zero _)
    | succ pending => exact ih (Nat.lt_of_succ_lt_succ h)

theorem missing_frame (f : Frame) (bytes : List UInt8) :
    missing 0 (f.bytes ++ bytes) = missing 0 bytes := by
  rw [Frame.bytes, List.cons_append, missing, ← f.length_eq, missing_append]

theorem missing_frames (frames : List Frame) (bytes : List UInt8) :
    missing 0 (frames.flatMap Frame.bytes ++ bytes) = missing 0 bytes := by
  induction frames with
  | nil => rfl
  | cons f fs ih => rw [List.flatMap_cons, List.append_assoc, missing_frame, ih]

theorem missing_incomplete {bytes : List UInt8} (h : Incomplete bytes) :
    missing 0 bytes = 0 ↔ bytes = [] := by
  cases bytes with
  | nil => exact iff_of_true rfl rfl
  | cons head payload =>
    have hne : missing (following head) payload ≠ 0 := missing_of_lt (incomplete_cons.mp h)
    exact iff_of_false hne (List.cons_ne_nil _ _)

theorem whole_iff_missing {bytes : List UInt8} : missing 0 bytes = 0 ↔ Whole bytes := by
  constructor
  · intro h
    obtain ⟨frames, rest, heq, hrest⟩ := exists_framed bytes
    rw [heq, missing_frames, missing_incomplete hrest] at h
    exact ⟨frames, by rw [heq, h, List.append_nil]⟩
  · rintro ⟨frames, rfl⟩
    rw [← List.append_nil (frames.flatMap Frame.bytes), missing_frames]
    rfl

instance (bytes : List UInt8) : Decidable (Whole bytes) := decidable_of_iff _ whole_iff_missing

/-- What is taken apart is whole where nothing is left over. -/
theorem Framed.whole_iff {bytes rest : List UInt8} {frames : List Frame}
    (h : Framed bytes frames rest) : Whole bytes ↔ rest = [] := by
  rw [← whole_iff_missing, h.eq, missing_frames, missing_incomplete h.incomplete]

end Peripherals.Input
