/-! The data cache lines of a range of memory. -/

namespace Peripherals.Cache

/-- The size of a data cache line in bytes. -/
def lineSize : Nat := 64

/-- The last address of the 64-bit address space. -/
def lastAddress : Nat := 0xFFFFFFFFFFFFFFFF

/-- The start of the line that holds the byte at `addr`. -/
def lineOf (addr : Nat) : Nat := addr / lineSize * lineSize

/-- The end of the range of `len` bytes from `addr`, cut off at the last address. -/
def rangeEnd (addr len : Nat) : Nat := min (addr + len) lastAddress

/-- How many lines there are from the line of `addr` to the end of the range of `len` bytes. -/
def lineCount (addr len : Nat) : Nat :=
  (rangeEnd addr len - lineOf addr + (lineSize - 1)) / lineSize

/-- The first `n` of the lines of the range of `len` bytes from `addr`, or all of them where there
are fewer. -/
def firstLines (n addr len : Nat) : List Nat :=
  (List.range (min n (lineCount addr len))).map fun i => lineOf addr + i * lineSize

/-- The addresses of the lines from that of `addr` up to the end of the range of `len` bytes, in
ascending order. -/
def lines (addr len : Nat) : List Nat :=
  (List.range (lineCount addr len)).map fun i => lineOf addr + i * lineSize

theorem firstLines_eq_take (n addr len : Nat) :
    firstLines n addr len = (lines addr len).take n := by
  simp [firstLines, lines, ← List.map_take, List.take_range]

end Peripherals.Cache
