/-! The divider of the card clock. The card clock is the base clock over twice the divider, or the
base clock itself where the divider is zero, and dividers are powers of two as far as they go. -/

namespace Peripherals.Sd.Divider

def identificationHz : UInt32 := 400000

def normalHz : UInt32 := 25000000

/-- The largest divider: ten bits. -/
def maxDivider : Nat := 0x3FF

/-- The factor by which `base` must be divided, at least, to be no faster than `target`. A target
of zero counts as one. -/
def wantedFactor (base target : UInt32) : Nat :=
  if base < target then 1
  else
    let target := max target.toNat 1
    (base.toNat + (target - 1)) / target

/-- The exponent of the least power of two that is at least `n`. -/
def log2Up (n : Nat) : Nat := if 1 <<< n.log2 = n then n.log2 else n.log2 + 1

/-- The divider for a clock of no more than `target`, as far as the largest divider allows. It says
nothing where the wanted factor is zero. -/
def choose (base target : UInt32) : Nat :=
  let shift := min (log2Up (wantedFactor base target)) 31
  if shift = 0 then 0 else min (1 <<< (shift - 1)) maxDivider

/-- A divider as it stands in the control register: the low eight bits above the high two. -/
def encode (divider : Nat) : UInt32 :=
  let low : UInt32 := UInt32.ofNat divider &&& 0xFF
  let high : UInt32 := (UInt32.ofNat divider >>> 8) &&& 0x3
  (low <<< 8) ||| (high <<< 6)

/-- The divider in a value of the control register. -/
def decode (field : UInt32) : UInt32 :=
  let low : UInt32 := (field >>> 8) &&& 0xFF
  let high : UInt32 := (field >>> 6) &&& 0x3
  low ||| (high <<< 8)

/-- The clock field for a card clock of no more than `target`. -/
def field (base target : UInt32) : UInt32 := encode (choose base target)

/-- The clock field for a card clock of no more than `target`, unless this cannot be computed: a
factor of zero has no highest bit. -/
def field? (base target : UInt32) : Option UInt32 :=
  if wantedFactor base target = 0 then none else some (field base target)

/-- The card clock that a clock field makes of `base`. -/
def rate (base field : UInt32) : UInt32 :=
  let divider := decode field
  if divider = 0 then base else base / (2 * divider)

end Peripherals.Sd.Divider
