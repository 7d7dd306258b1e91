import Mathlib.Data.Nat.ModEq
import Peripherals.Input.Ring

/-! A ring as a queue of bounded length. The bytes that wait are those of the slots behind the head
up to the tail, all the way round; they come out in the order in which they went in, and a byte that
finds all slots but one taken is refused. The slots can be checked for every access: none is out of
range in any sequence of calls. -/

namespace Peripherals.Input

/-- What can be asked of a ring. -/
inductive RingCall where
  | push (byte : UInt8)
  | pop
  | clear
  | length
  | isEmpty
  deriving DecidableEq, Repr

/-- The answer to a call. -/
inductive RingAnswer where
  /-- Whether a byte was taken in. -/
  | accepted (taken : Bool)
  | popped (byte : Option UInt8)
  | cleared
  | length (n : Nat)
  | isEmpty (empty : Bool)
  deriving DecidableEq, Repr

/-- What a queue of at most `capacity` bytes, of which `waiting` wait, makes of a call. -/
def queueCall (capacity : Nat) (waiting : List UInt8) : RingCall → List UInt8 × RingAnswer
  | .push byte =>
    if waiting.length < capacity then (waiting ++ [byte], .accepted true)
    else (waiting, .accepted false)
  | .pop =>
    match waiting with
    | [] => ([], .popped none)
    | byte :: rest => (rest, .popped (some byte))
  | .clear => ([], .cleared)
  | .length => (waiting, .length waiting.length)
  | .isEmpty => (waiting, .isEmpty waiting.isEmpty)

/-- The state after `calls`, with the answers to them. -/
def session {σ : Type} (call : σ → RingCall → σ × RingAnswer) (s : σ) :
    (calls : List RingCall) → σ × List RingAnswer
  | [] => (s, [])
  | c :: calls =>
    let (s, answer) := call s c
    let (s, answers) := session call s calls
    (s, answer :: answers)

namespace Ring

def call (r : Ring) : RingCall → Ring × RingAnswer
  | .push byte =>
    match r.push? byte with
    | some pushed => (pushed, .accepted true)
    | none => (r, .accepted false)
  | .pop =>
    match r.pop? with
    | some (byte, popped) => (popped, .popped (some byte))
    | none => (r, .popped none)
  | .clear => (r.clear, .cleared)
  | .length => (r, .length r.length)
  | .isEmpty => (r, .isEmpty r.isEmpty)

/-- The slot of the byte with `i` older ones before it. -/
def place (r : Ring) (i : Nat) : Nat := (r.head + 1 + i) % r.slots.size

/-- The byte with `i` older ones before it. -/
def waitingAt (r : Ring) (i : Nat) : UInt8 := r.slots[r.place i]?.getD 0

theorem toList_eq (r : Ring) : r.toList = (List.range r.length).map r.waitingAt := rfl

@[simp] theorem length_toList (r : Ring) : r.toList.length = r.length := by
  rw [toList_eq, List.length_map, List.length_range]

variable (r : Ring)

theorem size_pos : 0 < r.slots.size := Nat.zero_lt_of_lt r.head_lt

theorem length_lt : r.length < r.slots.size := Nat.mod_lt _ r.size_pos

theorem length_le : r.length ≤ r.capacity := Nat.le_sub_one_of_lt r.length_lt

/-- The tail is as many slots behind the head as there are bytes that wait. -/
theorem tail_eq : r.tail = (r.head + r.length) % r.slots.size := by
  have hlt := r.head_lt
  rw [length, Nat.add_mod_mod, Nat.add_sub_cancel' (by omega), Nat.add_mod_right,
    Nat.mod_eq_of_lt r.tail_lt]

theorem length_of_tail {n : Nat} (hn : n < r.slots.size)
    (h : r.tail = (r.head + n) % r.slots.size) : r.length = n := by
  have heq : r.head + r.length ≡ r.head + n [MOD r.slots.size] := r.tail_eq.symm.trans h
  exact Nat.ModEq.eq_of_lt_of_lt (Nat.ModEq.add_left_cancel' _ heq) r.length_lt hn

theorem place_inj {i j : Nat} (hi : i < r.slots.size) (hj : j < r.slots.size)
    (h : r.place i = r.place j) : i = j :=
  Nat.ModEq.eq_of_lt_of_lt (Nat.ModEq.add_left_cancel' _ h) hi hj

/-- The slot behind the tail is that of the byte to come. -/
theorem next_tail : r.next r.tail = r.place r.length := by
  rw [next, r.tail_eq, Nat.mod_add_mod, place, Nat.add_right_comm]

theorem next_head : r.next r.head = r.place 0 := rfl

/-- The slot of the head is that of no byte. -/
theorem head_eq_place : r.head = r.place r.capacity := by
  have hpos := r.size_pos
  rw [place, capacity, Nat.add_assoc, Nat.add_sub_cancel' hpos, Nat.add_mod_right,
    Nat.mod_eq_of_lt r.head_lt]

theorem next_tail_eq_head : r.next r.tail = r.head ↔ r.length = r.capacity := by
  have hpos := r.size_pos
  have hcapacity : r.capacity < r.slots.size := Nat.sub_one_lt_of_lt hpos
  rw [next_tail, head_eq_place]
  exact ⟨r.place_inj r.length_lt hcapacity, congrArg r.place⟩

theorem head_eq_tail : r.head = r.tail ↔ r.length = 0 := by
  constructor
  · intro h
    refine r.length_of_tail r.size_pos ?_
    rw [Nat.add_zero, Nat.mod_eq_of_lt r.head_lt, h]
  · intro h
    rw [r.tail_eq, h, Nat.add_zero, Nat.mod_eq_of_lt r.head_lt]

theorem toList_eq_nil : r.toList = [] ↔ r.length = 0 := by
  rw [← List.length_eq_zero_iff, length_toList]

theorem next_head_lt : r.next r.head < r.slots.size := r.next_lt r.head

theorem next_tail_lt : r.next r.tail < r.slots.size := r.next_lt r.tail

theorem head_lt_set (byte : UInt8) :
    r.head < (r.slots.set (r.next r.tail) byte r.next_tail_lt).size :=
  Nat.lt_of_lt_of_eq r.head_lt (Array.size_set r.next_tail_lt).symm

theorem next_tail_lt_set (byte : UInt8) :
    r.next r.tail < (r.slots.set (r.next r.tail) byte r.next_tail_lt).size :=
  Nat.lt_of_lt_of_eq r.next_tail_lt (Array.size_set r.next_tail_lt).symm

/-- The ring with `byte` in the slot behind the tail. -/
def pushed (byte : UInt8) : Ring where
  slots := r.slots.set (r.next r.tail) byte r.next_tail_lt
  head := r.head
  tail := r.next r.tail
  low := r.low
  high := r.high
  head_lt := r.head_lt_set byte
  tail_lt := r.next_tail_lt_set byte

/-- The ring with the head in the slot behind it. -/
def popped : Ring := { r with head := r.next r.head, head_lt := r.next_head_lt }

@[simp] theorem size_pushed (byte : UInt8) : (r.pushed byte).slots.size = r.slots.size :=
  Array.size_set r.next_tail_lt

@[simp] theorem size_popped : r.popped.slots.size = r.slots.size := rfl

@[simp] theorem place_pushed (byte : UInt8) (i : Nat) : (r.pushed byte).place i = r.place i := by
  rw [place, size_pushed]
  rfl

theorem place_popped (i : Nat) : r.popped.place i = r.place (i + 1) := by
  show (r.next r.head + 1 + i) % r.slots.size = (r.head + 1 + (i + 1)) % r.slots.size
  rw [next, Nat.add_assoc, Nat.mod_add_mod, Nat.add_comm 1 i]

theorem push?_full {byte : UInt8} (h : r.length = r.capacity) : r.push? byte = none :=
  if_pos (r.next_tail_eq_head.mpr h)

theorem push?_room {byte : UInt8} (h : r.length < r.capacity) :
    r.push? byte = some (r.pushed byte) :=
  if_neg fun heq => Nat.ne_of_lt h (r.next_tail_eq_head.mp heq)

theorem pop?_empty (h : r.length = 0) : r.pop? = none := if_pos (r.head_eq_tail.mpr h)

theorem pop?_some (h : r.length ≠ 0) : r.pop? = some (r.waitingAt 0, r.popped) := by
  rw [pop?, if_neg fun heq => h (r.head_eq_tail.mp heq), waitingAt, ← next_head,
    Array.getElem?_eq_getElem r.next_head_lt, Option.getD_some]
  rfl

theorem length_pushed {byte : UInt8} (h : r.length < r.capacity) :
    (r.pushed byte).length = r.length + 1 := by
  have hroom : r.length + 1 < r.slots.size := Nat.add_lt_of_lt_sub h
  refine length_of_tail _ (by rwa [size_pushed]) ?_
  rw [size_pushed]
  exact r.next_tail.trans (congrArg (· % r.slots.size) (by rw [Nat.add_assoc, Nat.add_comm 1]; rfl))

theorem length_popped (h : r.length ≠ 0) : r.popped.length + 1 = r.length := by
  obtain ⟨n, hn⟩ := Nat.exists_eq_succ_of_ne_zero h
  have hlt : n + 1 < r.slots.size := hn.symm.trans_lt r.length_lt
  rw [hn, length_of_tail r.popped (Nat.lt_of_succ_lt hlt)]
  show r.tail = (r.next r.head + n) % r.slots.size
  rw [r.tail_eq, hn, next, Nat.mod_add_mod, Nat.add_right_comm, Nat.add_assoc]

/-- A byte that is taken in waits behind all others. -/
theorem toList_pushed {byte : UInt8} (h : r.length < r.capacity) :
    (r.pushed byte).toList = r.toList ++ [byte] := by
  -- The slot that is written is that of no byte that waits already.
  have hold (i : Nat) (hi : i < r.length) : (r.pushed byte).waitingAt i = r.waitingAt i := by
    have hne : r.place r.length ≠ r.place i := fun heq =>
      Nat.ne_of_gt hi (r.place_inj r.length_lt (Nat.lt_trans hi r.length_lt) heq)
    rw [waitingAt, place_pushed, waitingAt]
    show ((r.slots.set (r.next r.tail) byte r.next_tail_lt)[r.place i]?).getD 0 = _
    rw [Array.getElem?_set_ne _ (by rwa [next_tail])]
  have hnew : (r.pushed byte).waitingAt r.length = byte := by
    rw [waitingAt, place_pushed, ← next_tail]
    show ((r.slots.set (r.next r.tail) byte r.next_tail_lt)[r.next r.tail]?).getD 0 = _
    rw [Array.getElem?_set_self, Option.getD_some]
  rw [toList_eq, r.length_pushed h, List.range_succ, List.map_append, toList_eq, List.map_singleton,
    hnew]
  congr 1
  exact List.map_congr_left fun i hi => hold i (List.mem_range.mp hi)

/-- The byte that is taken out is the one before all others. -/
theorem toList_popped (h : r.length ≠ 0) : r.toList = r.waitingAt 0 :: r.popped.toList := by
  have hshift : r.waitingAt ∘ Nat.succ = r.popped.waitingAt :=
    funext fun i => by rw [Function.comp, waitingAt, waitingAt, place_popped]; rfl
  rw [toList_eq, ← r.length_popped h, List.range_succ_eq_map, List.map_cons, List.map_map, hshift,
    ← toList_eq]

theorem toList_clear : r.clear.toList = [] := by
  rw [toList_eq_nil, ← head_eq_tail]
  rfl

theorem toList_empty (size low high : Nat) : (empty size low high).toList = [] := by
  rw [toList_eq_nil, ← head_eq_tail]
  rfl

@[simp] theorem size_empty (size low high : Nat) : (empty size low high).slots.size = size + 1 :=
  Array.size_replicate

@[simp] theorem isEmpty_toList : r.toList.isEmpty = r.isEmpty := by
  rw [isEmpty, ← length_toList]
  cases r.toList with
  | nil | cons => rfl

theorem call_push_room {byte : UInt8} (h : r.length < r.capacity) :
    r.call (.push byte) = (r.pushed byte, .accepted true) := by
  rw [call, r.push?_room h]

theorem call_push_full {byte : UInt8} (h : ¬r.length < r.capacity) :
    r.call (.push byte) = (r, .accepted false) := by
  rw [call, r.push?_full (Nat.le_antisymm r.length_le (Nat.le_of_not_lt h))]

theorem call_pop_empty (h : r.length = 0) : r.call .pop = (r, .popped none) := by
  rw [call, r.pop?_empty h]

theorem call_pop_some (h : r.length ≠ 0) :
    r.call .pop = (r.popped, .popped (some (r.waitingAt 0))) := by
  rw [call, r.pop?_some h]

/-- A ring answers as a queue does, and goes on as one. -/
theorem call_eq (c : RingCall) :
    ((r.call c).1.toList, (r.call c).2) = queueCall r.capacity r.toList c := by
  cases c with
  | push byte =>
    rw [queueCall, length_toList]
    by_cases hroom : r.length < r.capacity
    · rw [r.call_push_room hroom, r.toList_pushed hroom, if_pos hroom]
    · rw [r.call_push_full hroom, if_neg hroom]
  | pop =>
    by_cases hnone : r.length = 0
    · rw [r.call_pop_empty hnone, r.toList_eq_nil.mpr hnone]
      rfl
    · rw [r.call_pop_some hnone, r.toList_popped hnone]
      rfl
  | clear => rw [call, toList_clear]; rfl
  | length => rw [call, queueCall, length_toList]
  | isEmpty => rw [call, queueCall, isEmpty_toList]

theorem size_call (c : RingCall) : (r.call c).1.slots.size = r.slots.size := by
  cases c with
  | push byte =>
    by_cases hroom : r.length < r.capacity
    · rw [r.call_push_room hroom, size_pushed]
    · rw [r.call_push_full hroom]
  | pop =>
    by_cases hnone : r.length = 0
    · rw [r.call_pop_empty hnone]
    · rw [r.call_pop_some hnone, size_popped]
  | clear | length | isEmpty => rfl

end Ring

/-- The slots of a ring, with the two marks in them. -/
structure Cells where
  slots : Array UInt8
  head : Nat
  tail : Nat

namespace Cells

def fresh (size : Nat) : Cells := ⟨Array.replicate size 0, 0, 0⟩

/-- The slot after `i`, if there are any slots. -/
def next? (s : Cells) (i : Nat) : Option Nat :=
  if s.slots.size = 0 then none else some ((i + 1) % s.slots.size)

/-- The number of bytes that wait, unless it would be below zero. -/
def length? (s : Cells) : Option Nat :=
  if s.slots.size = 0 ∨ s.tail + s.slots.size < s.head then none
  else some ((s.tail + s.slots.size - s.head) % s.slots.size)

/-- The slots after a call, and its answer. There is none where an access is out of range. -/
def call (s : Cells) : RingCall → Option (Cells × RingAnswer)
  | .push byte => do
    let tail ← s.next? s.tail
    if tail = s.head then
      some (s, .accepted false)
    else if h : tail < s.slots.size then
      some ({ s with slots := s.slots.set tail byte h, tail }, .accepted true)
    else
      none
  | .pop =>
    if s.head = s.tail then
      some (s, .popped none)
    else do
      let head ← s.next? s.head
      let byte ← s.slots[head]?
      some ({ s with head }, .popped (some byte))
  | .clear => some ({ s with head := s.tail }, .cleared)
  | .length => s.length?.map fun n => (s, .length n)
  | .isEmpty => s.length?.map fun n => (s, .isEmpty (n == 0))

def session (s : Cells) : (calls : List RingCall) → Option (Cells × List RingAnswer)
  | [] => some (s, [])
  | c :: calls => do
    let (s, answer) ← s.call c
    let (s, answers) ← s.session calls
    some (s, answer :: answers)

end Cells

namespace Ring

def cells (r : Ring) : Cells := ⟨r.slots, r.head, r.tail⟩

variable (r : Ring)

theorem cells_next? (i : Nat) : r.cells.next? i = some (r.next i) :=
  if_neg (Nat.ne_of_gt r.size_pos)

theorem cells_length? : r.cells.length? = some r.length := by
  have hpos := r.size_pos
  have hlt := r.head_lt
  refine if_neg ?_
  show ¬(r.slots.size = 0 ∨ r.tail + r.slots.size < r.head)
  omega

/-- The accesses of a ring are all in range. -/
theorem cells_call (c : RingCall) :
    r.cells.call c = some ((r.call c).1.cells, (r.call c).2) := by
  cases c with
  | push byte =>
    rw [Cells.call, cells_next?, Option.bind_eq_bind, Option.bind_some]
    by_cases hroom : r.length < r.capacity
    · rw [r.call_push_room hroom]
      have hne : r.next r.tail ≠ r.head := fun heq =>
        Nat.ne_of_lt hroom (r.next_tail_eq_head.mp heq)
      exact (if_neg hne).trans (dif_pos r.next_tail_lt)
    · rw [r.call_push_full hroom]
      exact if_pos (r.next_tail_eq_head.mpr
        (Nat.le_antisymm r.length_le (Nat.le_of_not_lt hroom)))
  | pop =>
    by_cases hnone : r.length = 0
    · rw [r.call_pop_empty hnone]
      exact if_pos (r.head_eq_tail.mpr hnone)
    · rw [r.call_pop_some hnone]
      refine (if_neg fun heq => hnone (r.head_eq_tail.mp heq)).trans ?_
      rw [cells_next?, Option.bind_eq_bind, Option.bind_some]
      show (r.slots[r.next r.head]?).bind _ = _
      rw [waitingAt, ← next_head, Array.getElem?_eq_getElem r.next_head_lt]
      rfl
  | clear => rfl
  | length | isEmpty => rw [Cells.call, cells_length?]; rfl

/-- Every session with a ring is one with a queue, and with checked slots. -/
theorem session_eq (calls : List RingCall) :
    let queue := session (queueCall r.capacity) r.toList calls
    ∃ r', session call r calls = (r', queue.2) ∧ r'.toList = queue.1 ∧
      r'.slots.size = r.slots.size ∧ r.cells.session calls = some (r'.cells, queue.2) := by
  induction calls generalizing r with
  | nil => exact ⟨r, rfl, rfl, rfl, rfl⟩
  | cons c calls ih =>
    have hcapacity : (r.call c).1.capacity = r.capacity := congrArg (· - 1) (r.size_call c)
    obtain ⟨r', hsession, hwaiting, hsize, hcells⟩ := ih (r.call c).1
    rw [hcapacity] at hsession hwaiting hcells
    simp only [session, Cells.session, ← r.call_eq c, r.cells_call c, hsession, hcells,
      Option.bind_eq_bind, Option.bind_some]
    exact ⟨r', rfl, hwaiting, hsize.trans (r.size_call c), rfl⟩

end Ring

/-- A ring of `size + 1` slots is a queue of at most `size` bytes, in every session. A byte that is
refused changes nothing in it. Its head and its tail stay in range, and so does every access to a
slot. -/
theorem ring_refines_queue (size low high : Nat) (calls : List RingCall) :
    let queue := session (queueCall size) [] calls
    queue.1.length ≤ size ∧
    ∃ r : Ring, session Ring.call (.empty size low high) calls = (r, queue.2) ∧
      r.toList = queue.1 ∧
      (∀ byte, queue.1.length = size → r.call (.push byte) = (r, .accepted false)) ∧
      r.slots.size = size + 1 ∧ r.head < size + 1 ∧ r.tail < size + 1 ∧
      (Cells.fresh (size + 1)).session calls = some (r.cells, queue.2) := by
  have hfresh := (Ring.empty size low high).session_eq calls
  have hcapacity : (Ring.empty size low high).capacity = size := by
    rw [Ring.capacity, Ring.size_empty, Nat.add_sub_cancel]
  rw [hcapacity, Ring.toList_empty, Ring.size_empty] at hfresh
  obtain ⟨r, hsession, hwaiting, hsize, hcells⟩ := hfresh
  have hroom : r.capacity = size := by rw [Ring.capacity, hsize, Nat.add_sub_cancel]
  have hlength : (session (queueCall size) [] calls).1.length = r.length := by
    rw [← hwaiting, Ring.length_toList]
  refine ⟨hlength ▸ hroom ▸ r.length_le, r, hsession, hwaiting, fun byte hfull => ?_, hsize,
    hsize ▸ r.head_lt, hsize ▸ r.tail_lt, hcells⟩
  exact r.call_push_full (by omega)

/-- A ring of two slots holds one byte. -/
example : (session Ring.call (.empty 1 0 0)
      [.push 7, .push 8, .pop, .push 9, .length, .pop, .pop]).2 =
    [.accepted true, .accepted false, .popped (some 7), .accepted true, .length 1,
      .popped (some 9), .popped none] := by
  decide

end Peripherals.Input
