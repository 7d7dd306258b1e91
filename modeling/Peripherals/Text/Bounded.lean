/-! Text in a store of fixed capacity, written piece by piece. A piece that does not fit is refused,
and the text with it. -/

namespace Peripherals.Text

/-- `text` with `piece` after it, where both fit into `capacity` bytes. -/
def push? (capacity : Nat) (text piece : String) : Option String :=
  if text.utf8ByteSize + piece.utf8ByteSize ≤ capacity then some (text ++ piece) else none

/-- The text of `pieces`, one after the other, where they fit. -/
def concat? (capacity : Nat) (pieces : List String) : Option String :=
  pieces.foldlM (push? capacity) ""

end Peripherals.Text
