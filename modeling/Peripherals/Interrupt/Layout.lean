/-! How the lines of an interrupt controller are numbered. The lines are grouped into banks, one
pending word to a bank, and numbered through the banks in order of priority. -/

namespace Peripherals.Interrupt

def maxBanks : Nat := 4

/-- The most lines that a bank can have: the bits of its pending word. -/
def maxWidth : Nat := 32

/-- The number of lines in each bank, in order of priority. -/
structure BankLayout where
  widths : List Nat
  length_le : widths.length ≤ maxBanks
  width_le : ∀ w ∈ widths, w ≤ maxWidth
  deriving DecidableEq

namespace BankLayout

/-- The layout with the given widths, unless there are too many banks or one is too wide. -/
def ofWidths? (widths : List Nat) : Option BankLayout :=
  if h : widths.length ≤ maxBanks ∧ ∀ w ∈ widths, w ≤ maxWidth then
    some ⟨widths, h.1, h.2⟩
  else
    none

def bankCount (l : BankLayout) : Nat := l.widths.length

/-- The number of lines in `bank`, zero where there is no such bank. -/
def width (l : BankLayout) (bank : Nat) : Nat := l.widths[bank]?.getD 0

/-- The bits of the pending word of `bank` that belong to lines. -/
def mask (l : BankLayout) (bank : Nat) : UInt32 := UInt32.ofNat ((1 <<< l.width bank) - 1)

/-- The number of the first line of `bank`. -/
def base (l : BankLayout) (bank : Nat) : Nat := (l.widths.take bank).foldl (· + ·) 0

def lineCount (l : BankLayout) : Nat := l.widths.foldl (· + ·) 0

/-- The bank and bit of the line `line` places after the first of the banks `widths`. -/
def locateIn : (widths : List Nat) → (line : Nat) → Option (Nat × Nat)
  | [], _ => none
  | w :: rest, line =>
    if line < w then some (0, line)
    else (locateIn rest (line - w)).map fun (bank, bit) => (bank + 1, bit)

/-- The bank of `line` and its bit in the bank's pending word. -/
def locate (l : BankLayout) (line : Nat) : Option (Nat × Nat) := locateIn l.widths line

end BankLayout

/-- The places of the bits that are set in `word`, in ascending order. -/
def setBits (word : UInt32) : List Nat := (List.range maxWidth).filter word.toNat.testBit

/-- The lines whose bits are set in the pending words of the banks from `bank` on, in ascending
order. -/
def pendingLines (l : BankLayout) : (bank : Nat) → (words : List UInt32) → List Nat
  | _, [] => []
  | bank, word :: rest => (setBits word).map (l.base bank + ·) ++ pendingLines l (bank + 1) rest

end Peripherals.Interrupt
