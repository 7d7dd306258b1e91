import Peripherals.Program

/-! Register blocks: 32-bit words that are read and written one at a time. -/

namespace Peripherals

/-- A monad `m` that reaches a block whose registers are named by `R`. -/
class RegisterBlock (m : Type → Type) (R : Type) where
  read : R → m UInt32
  write : R → UInt32 → m Unit

namespace RegisterBlock

variable {m : Type → Type} {R : Type} [Monad m] [RegisterBlock m R]

def setBits (r : R) (bits : UInt32) : m Unit := do
  let value ← read r
  write r (value ||| bits)

def clearBits (r : R) (bits : UInt32) : m Unit := do
  let value ← read r
  write r (value &&& ~~~bits)

end RegisterBlock

/-- An access to a register named by `R`. -/
inductive Access (R : Type) where
  | read (r : R)
  | write (r : R) (value : UInt32)
  deriving DecidableEq, Repr

/-- The answer to an access: the word read, or nothing. -/
abbrev Access.Reply {R : Type} : Access R → Type
  | .read _ => UInt32
  | .write _ _ => Unit

abbrev accesses (R : Type) : Signature := ⟨Access R, Access.Reply⟩

instance (R : Type) : RegisterBlock (Prog (accesses R)) R where
  read r := Prog.request (S := accesses R) (.read r)
  write r value := Prog.request (S := accesses R) (.write r value)

/-- A block of words in memory, with `reg` the byte offset of a word: what is read is what was
last written, and an offset past the end reads as zero. -/
def wordMemory : Device (accesses Nat) (Array UInt32)
  | .read reg, words => some (words[reg / 4]?.getD 0, words)
  | .write reg value, words => some ((), words.setIfInBounds (reg / 4) value)

end Peripherals
