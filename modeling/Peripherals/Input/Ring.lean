/-! Rings of bytes between an interrupt that fills and a program that drains. One slot always stays
free, so a ring whose head has caught up with its tail is empty. -/

namespace Peripherals.Input

/-- A ring of bytes with two marks for the control of its flow. -/
structure Ring where
  slots : Array UInt8
  /-- The slot before the oldest byte. -/
  head : Nat
  /-- The slot of the newest byte. -/
  tail : Nat
  /-- The number of bytes at or below which the ring has room again. -/
  low : Nat
  /-- The number of bytes from which on the ring is nearly full. -/
  high : Nat
  head_lt : head < slots.size
  tail_lt : tail < slots.size

namespace Ring

/-- An empty ring of `size + 1` slots. -/
def empty (size low high : Nat) : Ring where
  slots := Array.replicate (size + 1) 0
  head := 0
  tail := 0
  low
  high
  head_lt := by simp
  tail_lt := by simp

/-- The slot after `i`. -/
def next (r : Ring) (i : Nat) : Nat := (i + 1) % r.slots.size

theorem next_lt (r : Ring) (i : Nat) : r.next i < r.slots.size :=
  Nat.mod_lt _ (Nat.lt_of_le_of_lt (Nat.zero_le _) r.head_lt)

def length (r : Ring) : Nat := (r.tail + r.slots.size - r.head) % r.slots.size

def isEmpty (r : Ring) : Bool := r.length == 0

def capacity (r : Ring) : Nat := r.slots.size - 1

def isAboveHigh (r : Ring) : Bool := r.high ≤ r.length

def isBelowLow (r : Ring) : Bool := r.length ≤ r.low

/-- The ring with `byte` added, unless it is full. -/
def push? (r : Ring) (byte : UInt8) : Option Ring :=
  let tail := r.next r.tail
  if tail = r.head then
    none
  else
    some
      { r with
        slots := r.slots.set tail byte (r.next_lt r.tail)
        tail
        head_lt := by simpa using r.head_lt
        tail_lt := by simpa using r.next_lt r.tail }

/-- The oldest byte and the ring without it, unless it is empty. -/
def pop? (r : Ring) : Option (UInt8 × Ring) :=
  if r.head = r.tail then
    none
  else
    have head_lt := r.next_lt r.head
    some (r.slots[r.next r.head], { r with head := r.next r.head, head_lt })

def clear (r : Ring) : Ring := { r with head := r.tail, head_lt := r.tail_lt }

/-- The bytes that wait, the oldest first. -/
def toList (r : Ring) : List UInt8 :=
  (List.range r.length).map fun i =>
    r.slots[(r.head + 1 + i) % r.slots.size]?.getD 0

/-- A short description of a ring for diagnostics. -/
def describe (r : Ring) : String :=
  "Iorec \x7b len: " ++ toString r.length ++ ", capacity: " ++ toString r.capacity ++ ", low: " ++
    toString r.low ++ ", high: " ++ toString r.high ++ " \x7d"

def keyboard : Ring := empty 0xFF 0x40 0xC0

def midi : Ring := empty 0x7F 0x20 0x60

end Ring

end Peripherals.Input
