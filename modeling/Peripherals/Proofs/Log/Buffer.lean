import Peripherals.Log.Message
import Peripherals.Proofs.Text.Bytes

/-! The buffer that a line is written to. It holds the first bytes of all that is written to it, in
whatever pieces it comes. In memory it is an array and the number of its bytes in use, and a write
copies a slice of the piece over a slice of the array. A slice that is not within its array, two
slices of different lengths, and a difference below zero are faults. No sequence of writes has
one. -/

namespace Peripherals.Log

/-! ### Writing in pieces -/

/-- What is cut off a first part does not show in the first bytes of the whole. -/
theorem take_take_append (n : Nat) (l m : List UInt8) :
    (l.take n ++ m).take n = (l ++ m).take n := by
  have hroom : n - min n l.length = n - l.length := by omega
  rw [List.take_append, List.take_append, List.take_take, Nat.min_self, List.length_take, hroom]

namespace Buffer

theorem bytes_append (b : Buffer) (more : List UInt8) :
    (b.append more).bytes = (b.bytes ++ more).take capacity := by
  rw [List.take_append, List.take_of_length_le b.length_le]
  rfl

/-- A buffer holds the first bytes of all the pieces together. -/
theorem bytes_foldl_write (pieces : List String) (b : Buffer) :
    (pieces.foldl write b).bytes =
      (b.bytes ++ pieces.flatMap fun s => s.toUTF8.toList).take capacity := by
  induction pieces generalizing b with
  | nil =>
    rw [List.foldl_nil, List.flatMap_nil, List.append_nil, List.take_of_length_le b.length_le]
  | cons s pieces ih =>
    rw [List.foldl_cons, ih, write, bytes_append, take_take_append, List.append_assoc,
      List.flatMap_cons]

theorem isFull_iff (b : Buffer) : b.isFull = true ↔ b.bytes.length = capacity :=
  beq_iff_eq

theorem eq_of_bytes {b b' : Buffer} (h : b.bytes = b'.bytes) : b = b' := by
  cases b
  cases b'
  cases h
  rfl

end Buffer

/-! ### The buffer in memory -/

/-- The bytes from the place `first` up to `last`, where both are in order and within `bytes`. -/
def slice? (bytes : List UInt8) (first last : Nat) : Option (List UInt8) :=
  if first ≤ last ∧ last ≤ bytes.length then some ((bytes.take last).drop first) else none

theorem slice?_prefix {bytes : List UInt8} {count : Nat} (hcount : count ≤ bytes.length) :
    slice? bytes 0 count = some (bytes.take count) :=
  if_pos ⟨Nat.zero_le _, hcount⟩

/-- An array of bytes of which the first `used` are in use. -/
structure Storage where
  data : List UInt8
  used : Nat
  length_eq : data.length = capacity

namespace Storage

def empty : Storage := ⟨List.replicate capacity 0, 0, List.length_replicate⟩

/-- The number of bytes that are not in use. -/
def room? (s : Storage) : Option Nat := if s.used ≤ capacity then some (capacity - s.used) else none

/-- The array with `source` over the slice from `first` up to `last`, which must be as long. -/
def copy? (s : Storage) (first last : Nat) (source : List UInt8) : Option Storage :=
  if h : (first ≤ last ∧ last ≤ capacity) ∧ source.length = last - first then
    some
      { s with
        data := s.data.take first ++ source ++ s.data.drop last
        length_eq := by
          have := s.length_eq
          simp only [List.length_append, List.length_take, List.length_drop]
          omega }
  else
    none

/-- Writes a piece, as far as it fits, and tells that it has been written. -/
def write? (s : Storage) (piece : String) : Option (Storage × Except Unit Unit) := do
  let bytes := piece.toUTF8.toList
  let room ← s.room?
  let count := min bytes.length room
  let source ← slice? bytes 0 count
  let s ← s.copy? s.used (s.used + count) source
  pure ({ s with used := s.used + count }, .ok ())

def writeAll? (s : Storage) : (pieces : List String) → Option (Storage × List (Except Unit Unit))
  | [] => some (s, [])
  | piece :: pieces => do
    let (s, result) ← s.write? piece
    let (s, results) ← s.writeAll? pieces
    pure (s, result :: results)

def bytes? (s : Storage) : Option (List UInt8) := slice? s.data 0 s.used

def isFull (s : Storage) : Bool := s.used == capacity

/-- The bytes in use are those of the buffer `b`. -/
structure Holds (s : Storage) (b : Buffer) : Prop where
  used : s.used = b.bytes.length
  bytes : s.data.take s.used = b.bytes

variable {s : Storage} {b : Buffer}

theorem holds_empty : Holds empty .empty := ⟨rfl, rfl⟩

theorem Holds.room? (h : s.Holds b) : s.room? = some (capacity - b.bytes.length) := by
  rw [Storage.room?, h.used, if_pos b.length_le]

theorem Holds.bytes? (h : s.Holds b) : s.bytes? = some b.bytes := by
  have hused : s.used ≤ s.data.length := by
    rw [s.length_eq, h.used]
    exact b.length_le
  rw [Storage.bytes?, slice?_prefix hused, h.bytes]

theorem Holds.isFull (h : s.Holds b) : s.isFull = b.isFull := by
  rw [Storage.isFull, Buffer.isFull, h.used]

theorem copy?_eq {first last : Nat} {source : List UInt8} (hplaces : first ≤ last)
    (hlast : last ≤ capacity) (hlength : source.length = last - first) :
    ∃ s', s.copy? first last source = some s' ∧ s'.used = s.used ∧
      s'.data.take last = s.data.take first ++ source := by
  refine ⟨_, dif_pos ⟨⟨hplaces, hlast⟩, hlength⟩, rfl, List.take_left' ?_⟩
  have := s.length_eq
  rw [List.length_append, List.length_take]
  omega

/-- A write has no fault, and does to the array what it does to the buffer. -/
theorem Holds.write? (h : s.Holds b) (piece : String) :
    ∃ s', s.write? piece = some (s', .ok ()) ∧ s'.Holds (b.write piece) := by
  have hle := b.length_le
  obtain ⟨count, hcount⟩ :
      ∃ count, count = min piece.toUTF8.toList.length (capacity - b.bytes.length) := ⟨_, rfl⟩
  have hlength : (piece.toUTF8.toList.take count).length = count := by
    rw [List.length_take]
    omega
  have hused : s.used + count ≤ capacity := by
    rw [h.used]
    omega
  have hwritten : (b.write piece).bytes = b.bytes ++ piece.toUTF8.toList.take count := by
    rw [hcount, Nat.min_comm, ← List.take_eq_take_min]
    rfl
  obtain ⟨s1, hcopy, hsame, hdata⟩ := copy?_eq (s := s) (Nat.le_add_right s.used count) hused
    (hlength.trans (Nat.add_sub_cancel_left ..).symm)
  refine ⟨{ s1 with used := s1.used + count }, ?_, ?_, ?_⟩
  · have hslice : slice? piece.toUTF8.toList 0 count = some _ := slice?_prefix (by omega)
    simp only [Storage.write?, h.room?, Option.bind_eq_bind, Option.bind_some, ← hcount, hslice,
      hcopy]
    rfl
  · rw [hwritten, List.length_append, hlength, hsame, h.used]
  · rw [hwritten, hsame, hdata, h.bytes]

theorem Holds.writeAll? (h : s.Holds b) (pieces : List String) :
    ∃ s', s.writeAll? pieces = some (s', pieces.map fun _ => .ok ()) ∧
      s'.Holds (pieces.foldl Buffer.write b) := by
  induction pieces generalizing s b with
  | nil => exact ⟨s, rfl, h⟩
  | cons piece pieces ih =>
    obtain ⟨s1, hwrite, h1⟩ := h.write? piece
    obtain ⟨s2, hrest, h2⟩ := ih h1
    refine ⟨s2, ?_, h2⟩
    simp [Storage.writeAll?, hwrite, hrest]

end Storage

/-- The bytes of all pieces, one after the other. -/
def allBytes (pieces : List String) : List UInt8 := pieces.flatMap fun s => s.toUTF8.toList

/-- However text is split, every piece is written without a fault, and what is kept of it are its
first 256 bytes. -/
theorem writes_truncated (pieces : List String) :
    ∃ s, Storage.empty.writeAll? pieces = some (s, pieces.map fun _ => .ok ()) ∧
      s.bytes? = some ((allBytes pieces).take 256) ∧
      (s.isFull = true ↔ 256 ≤ (allBytes pieces).length) ∧
      (pieces.foldl Buffer.write .empty).bytes = (allBytes pieces).take 256 ∧
      (pieces.foldl Buffer.write .empty).isFull = s.isFull ∧
      pieces.foldl Buffer.write .empty = Buffer.empty.write (String.join pieces) := by
  have hbytes : (pieces.foldl Buffer.write .empty).bytes = (allBytes pieces).take 256 :=
    Buffer.bytes_foldl_write pieces .empty
  have hfull : (pieces.foldl Buffer.write .empty).isFull = true ↔
      256 ≤ (allBytes pieces).length := by
    rw [Buffer.isFull_iff, hbytes, List.length_take]
    unfold capacity
    omega
  have hone : (Buffer.empty.write (String.join pieces)).bytes = (allBytes pieces).take 256 := by
    rw [Buffer.write, Buffer.bytes_append, Text.toUTF8_join]
    rfl
  obtain ⟨s, hwrites, hholds⟩ := Storage.holds_empty.writeAll? pieces
  refine ⟨s, hwrites, ?_, ?_, hbytes, hholds.isFull.symm, Buffer.eq_of_bytes ?_⟩
  · rw [hholds.bytes?, hbytes]
  · rw [hholds.isFull, hfull]
  · rw [hbytes, hone]

end Peripherals.Log
