/-! Words and the bytes that they are stored as, least significant first. -/

namespace Peripherals.Word

/-- The byte at place `i` of a word, the least significant at place 0. -/
def byte (w : UInt32) (i : Nat) : UInt8 := (w >>> UInt32.ofNat (8 * i)).toUInt8

/-- The bytes of a word, least significant first. -/
def bytes (w : UInt32) : List UInt8 := [byte w 0, byte w 1, byte w 2, byte w 3]

/-- The word of four bytes, least significant first. -/
def ofBytes (b0 b1 b2 b3 : UInt8) : UInt32 :=
  b0.toUInt32 ||| (b1.toUInt32 <<< 8) ||| (b2.toUInt32 <<< 16) ||| (b3.toUInt32 <<< 24)

/-- The first `count` words of the bytes `bs`. A byte past the end counts as zero. -/
def arrayOfBytes (count : Nat) (bs : Array UInt8) : Array UInt32 :=
  let at_ (i : Nat) := bs[i]?.getD 0
  Array.ofFn fun i : Fin count =>
    ofBytes (at_ (4 * i)) (at_ (4 * i + 1)) (at_ (4 * i + 2)) (at_ (4 * i + 3))

/-- The bytes `bs` with the words `ws` stored over the first of them. -/
def overlay (ws : Array UInt32) (bs : Array UInt8) : Array UInt8 :=
  bs.mapIdx fun j b =>
    match ws[j / 4]? with
    | some w => byte w (j % 4)
    | none => b

def join (high low : UInt32) : UInt64 := (high.toUInt64 <<< 32) ||| low.toUInt64

end Peripherals.Word
