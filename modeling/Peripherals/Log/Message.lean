import Peripherals.Log.Level

/-! The text of a log record. A record is built in a buffer of fixed capacity: what does not fit
is cut off, and a buffer that has filled up is cut down for the line end. -/

namespace Peripherals.Log

def capacity : Nat := 256

/-- A buffer that holds at most `capacity` bytes. -/
structure Buffer where
  bytes : List UInt8
  length_le : bytes.length ≤ capacity

namespace Buffer

def empty : Buffer := ⟨[], by decide⟩

def isFull (b : Buffer) : Bool := b.bytes.length == capacity

/-- The buffer with the part of `more` that fits added to it. -/
def append (b : Buffer) (more : List UInt8) : Buffer where
  bytes := b.bytes ++ more.take (capacity - b.bytes.length)
  length_le := by
    have := b.length_le
    simp only [List.length_append, List.length_take]
    omega

/-- The buffer with the part of the bytes of `s` that fits added to it. -/
def write (b : Buffer) (s : String) : Buffer := b.append s.toUTF8.toList

/-- The buffer cut down to its first `n` bytes. -/
def truncate (b : Buffer) (n : Nat) : Buffer where
  bytes := b.bytes.take n
  length_le := by
    have := b.length_le
    simp only [List.length_take]
    omega

/-- A short description of a buffer for diagnostics. -/
def describe (b : Buffer) : String :=
  "MessageBuffer \x7b len: " ++ toString b.bytes.length ++ " \x7d"

end Buffer

/-- `s` followed by as many blanks as it lacks of `width` characters. -/
def padRight (width : Nat) (s : String) : String :=
  s ++ String.ofList (List.replicate (width - s.length) ' ')

/-- The head of a record: its level and the part of the system it comes from. -/
def head (level : Level) (target : String) : String :=
  "[" ++ padRight 5 level.name ++ " " ++ target ++ "] "

/-- The line of a record: head and message, cut down by two bytes where they fill the buffer, and
then the line end, as far as it fits. -/
def format (level : Level) (target message : String) : Buffer :=
  let text := (Buffer.empty.write (head level target)).write message
  let text := if text.isFull then text.truncate (capacity - 2) else text
  text.write "\r\n"

end Peripherals.Log
