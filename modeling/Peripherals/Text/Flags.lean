import Peripherals.Text.Hex

/-! The text of a set of named bits, such as `Interrupt(CMD_DONE | DATA_DONE)`. -/

namespace Peripherals.Text

/-- The names of the bits that are set in `bits`, joined by bars after the name of the set, or the
empty word where none is. -/
def flags (set : String) (names : List (UInt32 × String)) (bits : UInt32) : String :=
  let named := (names.filter fun (bit, _) => bits &&& bit != 0).map Prod.snd
  set ++ "(" ++ (if named.isEmpty then "0x0" else " | ".intercalate named) ++ ")"

end Peripherals.Text
