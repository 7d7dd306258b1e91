/-! Hexadecimal text of words and bytes, in lower-case digits. -/

namespace Peripherals.Text

/-- The digit of a value below 16. -/
def hexDigit (n : Nat) : Char :=
  if n < 10 then Char.ofNat (48 + n) else Char.ofNat (87 + n)

/-- The last `width` hexadecimal digits of `n`, most significant first. -/
def hexChars : (width n : Nat) → List Char
  | 0, _ => []
  | width + 1, n => hexChars width (n / 16) ++ [hexDigit (n % 16)]

/-- The number of hexadecimal digits that `n` needs, one for zero. -/
def hexWidth (n : Nat) : Nat := Nat.log2 n / 4 + 1

def hexFixed (width n : Nat) : String := String.ofList (hexChars width n)

/-- `n` in `width` digits, or more where it needs them. -/
def hexAtLeast (width n : Nat) : String := hexFixed (max width (hexWidth n)) n

/-- `n` in as few digits as it needs, after `0x`. -/
def hexShort (n : Nat) : String := "0x" ++ hexAtLeast 1 n

/-- A word in eight digits after `0x`. -/
def hexWord (w : UInt32) : String := "0x" ++ hexFixed 8 w.toNat

/-- Bytes in two digits each, without separators. -/
def hexBytes (bytes : List UInt8) : String :=
  String.ofList (bytes.flatMap fun b => hexChars 2 b.toNat)

/-- A list of bytes in brackets, two digits each, such as `[02, 35, 80]`. -/
def hexList (bytes : List UInt8) : String :=
  "[" ++ ", ".intercalate (bytes.map fun b => hexFixed 2 b.toNat) ++ "]"

end Peripherals.Text
