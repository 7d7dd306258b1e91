import Mathlib.Algebra.Order.Floor.Div
import Mathlib.Data.Nat.Log
import Mathlib.Order.Bounds.Defs
import Peripherals.Proofs.Word
import Peripherals.Sd.Divider
import Peripherals.Sd.Register

/-! The divider that is chosen for a card clock. It divides by the least power of two that makes the
clock no faster than its target, as long as ten bits can hold such a divider, and by the most that
they can hold otherwise. No step of the choice leaves the range of a word. -/

namespace Peripherals.Sd.Divider

/-- How often `target` goes into `base`, rounded up, or once where it is the faster of the two. -/
def ratio (base target : UInt32) : Nat :=
  if base < target then 1 else base.toNat ⌈/⌉ target.toNat

/-- The factor by which a clock with this divider is divided. -/
def factor (divider : Nat) : Nat := if divider = 0 then 1 else 2 * divider

/-- The factors that are powers of two and slow a clock down by at least `q`. -/
def Sufficient (q : Nat) : Set Nat := {p | q ≤ p ∧ ∃ k, p = 2 ^ k}

variable {base target : UInt32} {n d : Nat}

theorem one_le_of_ne_zero (h : target ≠ 0) : 1 ≤ target :=
  UInt32.le_iff_toNat_le.mpr (Nat.pos_of_ne_zero fun h0 => h (UInt32.toNat_inj.mp h0))

/-! ### The choice -/

theorem wantedFactor_eq (htarget : 1 ≤ target) : wantedFactor base target = ratio base target := by
  have hpos : 1 ≤ target.toNat := UInt32.le_iff_toNat_le.mp htarget
  rw [wantedFactor, ratio, Nat.max_eq_left hpos, Nat.ceilDiv_eq_add_pred_div,
    Nat.add_sub_assoc hpos]

theorem ratio_pos (htarget : 1 ≤ target) : 1 ≤ ratio base target := by
  have hpos : 0 < target.toNat := UInt32.le_iff_toNat_le.mp htarget
  rw [ratio]
  split
  · rfl
  · have hle : target.toNat ≤ base.toNat := Nat.not_lt.mp ‹_›
    refine Nat.one_le_iff_ne_zero.mpr fun hnone => ?_
    have := (ceilDiv_le_iff_le_mul hpos).mp hnone.le
    omega

theorem le_ratio_mul (htarget : 1 ≤ target) : base.toNat ≤ ratio base target * target.toNat := by
  have hpos : 0 < target.toNat := UInt32.le_iff_toNat_le.mp htarget
  rw [ratio]
  split
  · have hlt : base.toNat < target.toNat := ‹base < target›
    omega
  · rw [Nat.mul_comm]
    exact (ceilDiv_le_iff_le_mul hpos).mp le_rfl

theorem log2Up_eq_clog (hn : 1 ≤ n) : log2Up n = Nat.clog 2 n := by
  obtain ⟨hle, hlt⟩ := (Nat.log2_eq_iff (by omega : n ≠ 0)).mp rfl
  rw [log2Up, Nat.one_shiftLeft]
  split
  · rename_i hpower
    rw [← hpower, Nat.clog_pow 2 _ Nat.one_lt_two, hpower]
  · rename_i hpower
    refine le_antisymm ?_ (Nat.clog_le_of_le_pow hlt.le)
    exact (Nat.lt_clog_iff_pow_lt Nat.one_lt_two).mpr (lt_of_le_of_ne hle hpower)

theorem pow_clog_isLeast (q : Nat) : IsLeast (Sufficient q) (2 ^ Nat.clog 2 q) := by
  refine ⟨⟨Nat.le_pow_clog Nat.one_lt_two q, _, rfl⟩, ?_⟩
  rintro _ ⟨hle, k, rfl⟩
  exact Nat.pow_le_pow_right Nat.two_pos (Nat.clog_le_of_le_pow hle)

/-- The divider for a clock that is to be slowed down by a power of two. -/
def ofShift (shift : Nat) : Nat := if shift = 0 then 0 else min (1 <<< (shift - 1)) maxDivider

theorem choose_eq (htarget : 1 ≤ target) :
    choose base target = ofShift (min (Nat.clog 2 (ratio base target)) 31) := by
  rw [choose, wantedFactor_eq htarget, log2Up_eq_clog (ratio_pos htarget)]
  rfl

theorem ofShift_le (shift : Nat) : ofShift shift ≤ maxDivider := by
  rw [ofShift]
  split
  · exact Nat.zero_le _
  · exact Nat.min_le_right _ _

theorem choose_le (base target : UInt32) : choose base target ≤ maxDivider :=
  ofShift_le (min (log2Up (wantedFactor base target)) 31)

/-- Up to ten, a shift is a power of two that a divider can make. -/
theorem factor_ofShift {shift : Nat} (h : shift ≤ 10) : factor (ofShift shift) = 2 ^ shift := by
  cases shift with
  | zero => rfl
  | succ k =>
    have hle : 2 ^ k ≤ maxDivider :=
      (Nat.pow_le_pow_right Nat.two_pos (by omega : k ≤ 9)).trans (by decide)
    have hpos := Nat.two_pow_pos k
    rw [ofShift, if_neg k.succ_ne_zero, Nat.add_sub_cancel, Nat.one_shiftLeft, Nat.min_eq_left hle,
      factor, if_neg hpos.ne', pow_succ, Nat.mul_comm]

theorem factor_ofShift_large {shift : Nat} (h : 10 < shift) : factor (ofShift shift) = 2046 := by
  have hle : maxDivider ≤ 2 ^ (shift - 1) :=
    (by decide : maxDivider ≤ 2 ^ 10).trans (Nat.pow_le_pow_right Nat.two_pos (by omega))
  rw [ofShift, if_neg (by omega), Nat.one_shiftLeft, Nat.min_eq_right hle]
  rfl

theorem factor_choose_isLeast (htarget : 1 ≤ target) (hq : ratio base target ≤ 1024) :
    IsLeast (Sufficient (ratio base target)) (factor (choose base target)) := by
  have hshift : Nat.clog 2 (ratio base target) ≤ 10 := Nat.clog_le_of_le_pow hq
  rw [choose_eq htarget, Nat.min_eq_left (by omega), factor_ofShift hshift]
  exact pow_clog_isLeast _

theorem factor_choose_large (htarget : 1 ≤ target) (hq : 1024 < ratio base target) :
    factor (choose base target) = 2046 := by
  have hshift : 10 < Nat.clog 2 (ratio base target) :=
    (Nat.lt_clog_iff_pow_lt Nat.one_lt_two).mpr hq
  rw [choose_eq htarget, factor_ofShift_large (by omega)]

theorem ratio_le_factor (htarget : 1 ≤ target) (hq : ratio base target ≤ 2046) :
    ratio base target ≤ factor (choose base target) := by
  by_cases hsmall : ratio base target ≤ 1024
  · exact (factor_choose_isLeast htarget hsmall).1.1
  · rwa [factor_choose_large htarget (by omega)]

/-! ### The field -/

theorem toNat_encode (hd : d ≤ maxDivider) :
    (encode d).toNat = d % 256 * 256 + d / 256 * 64 := by
  have hhighest : d / 256 < 4 := Nat.div_lt_of_lt_mul (hd.trans_lt (by decide))
  have hlowest : d % 256 < 256 := Nat.mod_lt _ (by decide)
  have hword : (UInt32.ofNat d).toNat = d := UInt32.toNat_ofNat_of_lt' (hd.trans_lt (by decide))
  have hlow : (UInt32.ofNat d &&& 0xFF).toNat = d % 256 := by
    rw [UInt32.toNat_and, hword]
    exact Nat.and_two_pow_sub_one_eq_mod d 8
  have hhigh : ((UInt32.ofNat d >>> 8) &&& 0x3).toNat = d / 256 := by
    rw [UInt32.toNat_and, UInt32.toNat_shiftRight, hword]
    refine (Nat.and_two_pow_sub_one_eq_mod _ 2).trans ?_
    rw [Nat.shiftRight_eq_div_pow]
    exact Nat.mod_eq_of_lt hhighest
  have hlow' : ((UInt32.ofNat d &&& 0xFF) <<< 8).toNat = (d % 256) <<< 8 := by
    rw [UInt32.toNat_shiftLeft, hlow]
    refine Nat.mod_eq_of_lt (?_ : (d % 256) <<< 8 < 2 ^ 32)
    rw [Nat.shiftLeft_eq]
    omega
  have hhigh' : (((UInt32.ofNat d >>> 8) &&& 0x3) <<< 6).toNat = d / 256 * 64 := by
    rw [UInt32.toNat_shiftLeft, hhigh, ← Nat.shiftLeft_eq _ 6]
    refine Nat.mod_eq_of_lt (?_ : (d / 256) <<< 6 < 2 ^ 32)
    rw [Nat.shiftLeft_eq]
    omega
  -- The two parts have no place in common, so they add up.
  have hlt : d / 256 * 64 < 2 ^ 8 := by omega
  rw [encode, UInt32.toNat_or, hlow', hhigh', ← Nat.shiftLeft_add_eq_or_of_lt hlt, Nat.shiftLeft_eq]

theorem toNat_decode (field : UInt32) :
    (decode field).toNat = field.toNat / 256 % 256 + field.toNat / 64 % 4 * 256 := by
  have hlow : ((field >>> 8) &&& 0xFF).toNat = field.toNat / 256 % 256 := by
    rw [UInt32.toNat_and, UInt32.toNat_shiftRight]
    exact (Nat.and_two_pow_sub_one_eq_mod _ 8).trans
      (congrArg (· % 2 ^ 8) (Nat.shiftRight_eq_div_pow _ 8))
  have hhigh : ((field >>> 6) &&& 0x3).toNat = field.toNat / 64 % 4 := by
    rw [UInt32.toNat_and, UInt32.toNat_shiftRight]
    exact (Nat.and_two_pow_sub_one_eq_mod _ 2).trans
      (congrArg (· % 2 ^ 2) (Nat.shiftRight_eq_div_pow _ 6))
  have hhigh' : (((field >>> 6) &&& 0x3) <<< 8).toNat = (field.toNat / 64 % 4) <<< 8 := by
    rw [UInt32.toNat_shiftLeft, hhigh]
    refine Nat.mod_eq_of_lt (?_ : (field.toNat / 64 % 4) <<< 8 < 2 ^ 32)
    rw [Nat.shiftLeft_eq]
    omega
  have hlt : field.toNat / 256 % 256 < 2 ^ 8 := Nat.mod_lt _ (by decide)
  rw [decode, UInt32.toNat_or, hlow, hhigh', Nat.or_comm, ← Nat.shiftLeft_add_eq_or_of_lt hlt,
    Nat.shiftLeft_eq, Nat.add_comm]

theorem decode_encode (hd : d ≤ maxDivider) : (decode (encode d)).toNat = d := by
  have hhighest : d / 256 < 4 := Nat.div_lt_of_lt_mul (hd.trans_lt (by decide))
  have hlowest : d % 256 < 256 := Nat.mod_lt _ (by decide)
  have hd := Nat.mod_add_div d 256
  rw [toNat_decode, toNat_encode ‹_›]
  generalize d % 256 = low, d / 256 = high at *
  omega

theorem decode_field (base target : UInt32) :
    (decode (field base target)).toNat = choose base target :=
  decode_encode (choose_le base target)

theorem encode_within (d : Nat) : encode d &&& 0xFFC0 = encode d := by
  have hmasked {w mask n : UInt32} (hmask : (mask <<< n) &&& 0xFFC0 = mask <<< n) :
      ((w &&& mask) <<< n) &&& 0xFFC0 = (w &&& mask) <<< n := by
    rw [UInt32.shiftLeft_and, UInt32.and_assoc, hmask]
  rw [encode, Word.or_and, hmasked rfl, hmasked rfl]

/-- The clock that a field makes is the base clock, divided by the factor of its divider. -/
theorem toNat_rate (base field : UInt32) :
    (rate base field).toNat = base.toNat / factor (decode field).toNat := by
  have hle : (decode field).toNat ≤ maxDivider := by
    rw [toNat_decode, maxDivider]
    omega
  rw [maxDivider] at hle
  rw [rate, factor]
  by_cases hzero : decode field = 0
  · rw [if_pos hzero, hzero, if_pos UInt32.toNat_zero, Nat.div_one]
  · have hpos : (decode field).toNat ≠ 0 := fun h => hzero (UInt32.toNat_inj.mp h)
    rw [if_neg hzero, if_neg hpos, UInt32.toNat_div, UInt32.toNat_mul]
    show _ / (2 * (decode field).toNat % 2 ^ 32) = _
    rw [Nat.mod_eq_of_lt (by omega)]

theorem rate_le (htarget : 1 ≤ target) (hq : ratio base target ≤ 2046) :
    rate base (field base target) ≤ target := by
  rw [UInt32.le_iff_toNat_le, toNat_rate, decode_field]
  have hfactor := ratio_le_factor htarget hq
  refine (Nat.div_le_div_left hfactor (ratio_pos htarget)).trans ?_
  exact Nat.div_le_of_le_mul (le_ratio_mul htarget)

/-! ### The choice in words -/

/-- The difference of two words, unless it is negative. -/
def minus (a b : UInt32) : Option UInt32 := if b ≤ a then some (a - b) else none

/-- The sum of two words, unless it is too large for a word. -/
def plus (a b : UInt32) : Option UInt32 :=
  if a.toNat + b.toNat < UInt32.size then some (a + b) else none

/-- A word moved up by `n` places, unless that is the width of a word or more. -/
def shiftUp (w n : UInt32) : Option UInt32 := if n < 32 then some (w <<< n) else none

/-- A word moved down by `n` places, unless that is the width of a word or more. -/
def shiftDown (w n : UInt32) : Option UInt32 := if n < 32 then some (w >>> n) else none

/-- The number of zeros above the highest one of a word. -/
def leadingZeros (w : UInt32) : UInt32 := ⟨w.toBitVec.clz⟩

/-- The quotient of two words, rounded up. -/
def quotientUp (a b : UInt32) : Option UInt32 :=
  if a % b = 0 then some (a / b) else plus (a / b) 1

/-- The shift for a factor of at least `wanted`: the place of its highest one, and one more unless
that is the only one. -/
def shiftFor (wanted : UInt32) : Option UInt32 := do
  let top ← minus 31 (leadingZeros wanted)
  let highest ← shiftUp 1 top
  let shift ← (if wanted &&& ~~~highest = 0 then some top else plus top 1)
  some (min shift 31)

def dividerFor (shift : UInt32) : Option UInt32 :=
  if shift = 0 then some 0
  else do
    let below ← minus shift 1
    let power ← shiftUp 1 below
    some (min power 0x3FF)

def encodeWord (divider : UInt32) : Option UInt32 := do
  let low ← shiftUp (divider &&& 0xFF) 8
  let upper ← shiftDown divider 8
  let high ← shiftUp (upper &&& 0x3) 6
  some (low ||| high)

/-- The clock field as it is computed word by word, unless a step leaves the range of a word. -/
def fieldInWords (base target : UInt32) : Option UInt32 := do
  let wanted ← (if base < target then some 1 else quotientUp base (max target 1))
  let shift ← shiftFor wanted
  let divider ← dividerFor shift
  encodeWord divider

theorem toNat_leadingZeros {w : UInt32} (hw : w ≠ 0) :
    (leadingZeros w).toNat = 31 - w.toNat.log2 ∧ w.toNat.log2 ≤ 31 := by
  have hne : w.toBitVec ≠ 0#32 := fun h => hw (UInt32.toBitVec_inj.mp h)
  have hlt : (leadingZeros w).toNat < 32 :=
    BitVec.lt_def.mp (BitVec.clz_lt_iff_ne_zero.mpr hne)
  have hlow : 2 ^ (31 - (leadingZeros w).toNat) ≤ w.toNat :=
    BitVec.two_pow_sub_clz_le_toNat_of_ne_zero (by decide) hne
  have hhigh : w.toNat < 2 ^ (32 - (leadingZeros w).toNat) := BitVec.toNat_lt_two_pow_sub_clz
  have hlog : w.toNat.log2 = 31 - (leadingZeros w).toNat := by
    refine (Nat.log2_eq_iff ?_).mpr ⟨hlow, ?_⟩
    · exact fun h => hw (UInt32.toNat_inj.mp h)
    · rwa [show 31 - (leadingZeros w).toNat + 1 = 32 - (leadingZeros w).toNat by omega]
  omega

theorem minus_eq {a b : UInt32} (h : b.toNat ≤ a.toNat) :
    minus a b = some (UInt32.ofNat (a.toNat - b.toNat)) := by
  have hle : b ≤ a := UInt32.le_iff_toNat_le.mpr h
  rw [minus, if_pos hle, ← UInt32.toNat_sub_of_le _ _ hle, UInt32.ofNat_toNat]

theorem plus_eq {a b : UInt32} (h : a.toNat + b.toNat < UInt32.size) :
    plus a b = some (UInt32.ofNat (a.toNat + b.toNat)) := by
  rw [plus, if_pos h, UInt32.ofNat_add, UInt32.ofNat_toNat, UInt32.ofNat_toNat]

theorem one_shiftUp {k : Nat} (hk : k ≤ 31) :
    shiftUp 1 (UInt32.ofNat k) = some (UInt32.ofNat (2 ^ k)) := by
  have hword : (UInt32.ofNat k).toNat = k := UInt32.toNat_ofNat_of_lt' (hk.trans_lt (by decide))
  have hlt : UInt32.ofNat k < 32 := by
    rw [UInt32.lt_iff_toNat_lt, hword]
    exact hk.trans_lt (by decide)
  have hpow : 2 ^ k < 2 ^ 32 := Nat.pow_lt_pow_right (by decide) (by omega)
  rw [shiftUp, if_pos hlt]
  refine congrArg some (UInt32.toNat_inj.mp ?_)
  rw [Word.toNat_one_shiftLeft (Nat.lt_succ_of_le hk), UInt32.toNat_ofNat_of_lt' hpow]

theorem min_ofNat {n m : Nat} (hn : n < UInt32.size) (hm : m < UInt32.size) :
    min (UInt32.ofNat n) (UInt32.ofNat m) = UInt32.ofNat (min n m) := by
  apply UInt32.toNat_inj.mp
  rw [UInt32.toNat_min, UInt32.toNat_ofNat_of_lt' hn, UInt32.toNat_ofNat_of_lt' hm,
    UInt32.toNat_ofNat_of_lt' ((min_le_left n m).trans_lt hn)]

/-- Nothing is left of a word without its highest one exactly if it has no other. -/
theorem and_not_eq_zero {w bit : UInt32} (hle : bit ≤ w) : w &&& ~~~bit = 0 ↔ bit = w := by
  constructor
  · intro h
    have hsplit : w = w &&& bit ||| w &&& ~~~bit := by
      rw [← Word.and_or, UInt32.or_not_self, UInt32.and_neg_one]
    have hge : w.toNat ≤ bit.toNat := by
      rw [h, UInt32.or_zero] at hsplit
      rw [hsplit, UInt32.toNat_and]
      exact Nat.and_le_right
    exact UInt32.toNat_inj.mp (Nat.le_antisymm (UInt32.le_iff_toNat_le.mp hle) hge)
  · rintro rfl
    exact UInt32.and_not_self

theorem minus_leadingZeros {w : UInt32} (hw : w ≠ 0) :
    minus 31 (leadingZeros w) = some (UInt32.ofNat w.toNat.log2) := by
  obtain ⟨hzeros, hlog⟩ := toNat_leadingZeros hw
  have hplace : 31 - (31 - w.toNat.log2) = w.toNat.log2 := by omega
  rw [minus_eq (show _ ≤ 31 by omega), hzeros]
  exact congrArg (some <| UInt32.ofNat ·) hplace

theorem onlyHighest_iff {w : UInt32} (hw : w ≠ 0) :
    w &&& ~~~UInt32.ofNat (2 ^ w.toNat.log2) = 0 ↔ 1 <<< w.toNat.log2 = w.toNat := by
  have hle : 2 ^ w.toNat.log2 ≤ w.toNat := Nat.log2_self_le fun h => hw (UInt32.toNat_inj.mp h)
  have hhighest : (UInt32.ofNat (2 ^ w.toNat.log2)).toNat = 2 ^ w.toNat.log2 :=
    UInt32.toNat_ofNat_of_lt' (hle.trans_lt w.toNat_lt)
  have hbit : UInt32.ofNat (2 ^ w.toNat.log2) ≤ w := by
    rw [UInt32.le_iff_toNat_le, hhighest]
    exact hle
  rw [and_not_eq_zero hbit, ← UInt32.toNat_inj, hhighest, Nat.one_shiftLeft]

theorem plus_one {k : Nat} (hk : k ≤ 31) :
    plus (UInt32.ofNat k) 1 = some (UInt32.ofNat (k + 1)) := by
  have hword : (UInt32.ofNat k).toNat = k := UInt32.toNat_ofNat_of_lt' (hk.trans_lt (by decide))
  rw [plus_eq, hword]
  · rfl
  · rw [hword]
    show k + 1 < 2 ^ 32
    omega

theorem shiftFor_eq {w : UInt32} (hw : w ≠ 0) :
    shiftFor w = some (UInt32.ofNat (min (log2Up w.toNat) 31)) := by
  have hlog : w.toNat.log2 ≤ 31 := (toNat_leadingZeros hw).2
  have hlast (shift : Nat) (hshift : shift ≤ 32) :
      some (min (UInt32.ofNat shift) 31) = some (UInt32.ofNat (min shift 31)) :=
    congrArg some (min_ofNat (hshift.trans_lt (by decide)) (by decide))
  rw [shiftFor, minus_leadingZeros hw, Option.bind_eq_bind, Option.bind_some, one_shiftUp hlog,
    Option.bind_some, log2Up]
  by_cases honly : 1 <<< w.toNat.log2 = w.toNat
  · rw [if_pos ((onlyHighest_iff hw).mpr honly), if_pos honly, Option.bind_some]
    exact hlast _ (by omega)
  · rw [if_neg (mt (onlyHighest_iff hw).mp honly), if_neg honly, plus_one hlog, Option.bind_some]
    exact hlast _ (by omega)

theorem dividerFor_eq {shift : Nat} (h : shift ≤ 31) :
    dividerFor (UInt32.ofNat shift) = some (UInt32.ofNat (ofShift shift)) := by
  have hword : (UInt32.ofNat shift).toNat = shift :=
    UInt32.toNat_ofNat_of_lt' (h.trans_lt (by decide))
  have hzero : UInt32.ofNat shift = 0 ↔ shift = 0 := by
    rw [← UInt32.toNat_inj, hword]
    rfl
  rw [dividerFor, ofShift]
  by_cases hnone : shift = 0
  · rw [if_pos (hzero.mpr hnone), if_pos hnone]
    rfl
  · have hbelow : minus (UInt32.ofNat shift) 1 = some (UInt32.ofNat (shift - 1)) := by
      rw [minus_eq, hword]
      · rfl
      · rw [hword]
        exact Nat.one_le_iff_ne_zero.mpr hnone
    have hpow : 2 ^ (shift - 1) < 2 ^ 32 := Nat.pow_lt_pow_right (by decide) (by omega)
    rw [if_neg (mt hzero.mp hnone), if_neg hnone, hbelow, Option.bind_eq_bind, Option.bind_some,
      one_shiftUp (by omega), Option.bind_some, Nat.one_shiftLeft]
    exact congrArg some (min_ofNat hpow (by decide))

theorem ceilDiv_eq {a b : Nat} (hb : 0 < b) :
    a ⌈/⌉ b = if a % b = 0 then a / b else a / b + 1 := by
  have hlt := Nat.mod_lt a hb
  have hsplit : a + b - 1 = a % b + b - 1 + b * (a / b) := by
    have := Nat.mod_add_div a b
    omega
  rw [Nat.ceilDiv_eq_add_pred_div, hsplit, Nat.add_mul_div_left _ _ hb]
  split
  · rename_i hexact
    rw [hexact, Nat.zero_add, Nat.div_eq_of_lt (by omega), Nat.zero_add]
  · rename_i hrest
    rw [Nat.div_eq_of_lt_le (by omega : 1 * b ≤ a % b + b - 1) (by omega), Nat.add_comm]

theorem quotientUp_eq {a b : UInt32} (hb : 1 ≤ b) :
    quotientUp a b = some (UInt32.ofNat (a.toNat ⌈/⌉ b.toNat)) := by
  have hpos : 0 < b.toNat := UInt32.le_iff_toNat_le.mp hb
  have hmod : a % b = 0 ↔ a.toNat % b.toNat = 0 := by
    rw [← UInt32.toNat_inj, UInt32.toNat_mod]
    rfl
  rw [quotientUp, ceilDiv_eq hpos, apply_ite UInt32.ofNat, ← UInt32.toNat_div, UInt32.ofNat_toNat]
  by_cases hexact : a.toNat % b.toNat = 0
  · rw [if_pos (hmod.mpr hexact), if_pos hexact]
  · -- A quotient with a remainder is not the largest word.
    have hroom : (a / b).toNat + 1 < UInt32.size := by
      have hdivisor : b.toNat ≠ 1 := fun h => hexact (by rw [h, Nat.mod_one])
      have hhalf : a.toNat / b.toNat ≤ a.toNat / 2 := Nat.div_le_div_left (by omega) Nat.two_pos
      have hword := a.toNat_lt
      rw [UInt32.toNat_div]
      show _ < 2 ^ 32
      omega
    rw [if_neg (mt hmod.mp hexact), if_neg hexact]
    exact plus_eq hroom

theorem encodeWord_eq (d : Nat) : encodeWord (UInt32.ofNat d) = some (encode d) := rfl

theorem ratio_lt (htarget : 1 ≤ target) : ratio base target < 2 ^ 32 := by
  have hpos : 0 < target.toNat := UInt32.le_iff_toNat_le.mp htarget
  rw [ratio]
  split
  · decide
  · refine lt_of_le_of_lt ((ceilDiv_le_iff_le_mul hpos).mpr ?_) base.toNat_lt
    exact Nat.le_mul_of_pos_left _ hpos

/-- No step leaves the range of a word. -/
theorem fieldInWords_eq (htarget : 1 ≤ target) :
    fieldInWords base target = some (field base target) := by
  have hwanted : (if base < target then some 1 else quotientUp base (max target 1)) =
      some (UInt32.ofNat (ratio base target)) := by
    have hmax : max target 1 = target := by
      apply UInt32.toNat_inj.mp
      rw [UInt32.toNat_max]
      exact Nat.max_eq_left (UInt32.le_iff_toNat_le.mp htarget)
    rw [hmax, ratio, quotientUp_eq htarget]
    split
    · rfl
    · rfl
  have hword : (UInt32.ofNat (ratio base target)).toNat = ratio base target :=
    UInt32.toNat_ofNat_of_lt' (ratio_lt htarget)
  have hpos : UInt32.ofNat (ratio base target) ≠ 0 := by
    intro hzero
    have hnone : ratio base target = 0 := by rw [← hword, hzero]; rfl
    exact Nat.one_le_iff_ne_zero.mp (ratio_pos htarget) hnone
  rw [fieldInWords, hwanted, Option.bind_eq_bind, Option.bind_some, shiftFor_eq hpos, hword,
    log2Up_eq_clog (ratio_pos htarget), Option.bind_some, dividerFor_eq (Nat.min_le_right _ _),
    Option.bind_some, encodeWord_eq, field, choose_eq htarget]

theorem wantedFactor_zero (hbase : base ≠ 0) : wantedFactor base 0 = wantedFactor base 1 := by
  have hone : ¬base < 1 := fun h => hbase (UInt32.lt_one_iff.mp h)
  rw [wantedFactor, wantedFactor, if_neg UInt32.not_lt_zero, if_neg hone]
  rfl

/-- A target of zero counts as one here as well. -/
theorem fieldInWords_zero (hbase : base ≠ 0) :
    fieldInWords base 0 = some (field base 0) := by
  have hone : ¬base < 1 := fun h => hbase (UInt32.lt_one_iff.mp h)
  have hwords : fieldInWords base 0 = fieldInWords base 1 := by
    rw [fieldInWords, fieldInWords, if_neg UInt32.not_lt_zero, if_neg hone]
    rfl
  rw [hwords, fieldInWords_eq (le_refl 1), field, field, choose, choose, wantedFactor_zero hbase]

/-- Where both are zero, and only there, there is no factor to divide by. -/
theorem wantedFactor_eq_zero_iff : wantedFactor base target = 0 ↔ base = 0 ∧ target = 0 := by
  have hpositive {t : UInt32} (ht : 1 ≤ t) : wantedFactor base t ≠ 0 := by
    rw [wantedFactor_eq ht]
    exact Nat.one_le_iff_ne_zero.mp (ratio_pos ht)
  constructor
  · intro hnone
    have htarget : target = 0 := by
      by_contra hne
      exact hpositive (one_le_of_ne_zero hne) hnone
    subst htarget
    refine ⟨?_, rfl⟩
    by_contra hbase
    exact hpositive (le_refl 1) (wantedFactor_zero hbase ▸ hnone)
  · rintro ⟨rfl, rfl⟩
    rfl

theorem field?_eq_some (hrates : base ≠ 0 ∨ target ≠ 0) :
    field? base target = some (field base target) := by
  rw [field?, if_neg]
  rw [wantedFactor_eq_zero_iff, not_and_or]
  exact hrates

/-- The choice leaves the range of a word exactly where there is no field. -/
theorem fieldInWords_eq_field? (base target : UInt32) :
    fieldInWords base target = field? base target := by
  by_cases htarget : target = 0
  · subst htarget
    by_cases hbase : base = 0
    · subst hbase
      rfl
    · rw [fieldInWords_zero hbase, field?_eq_some (.inl hbase)]
  · rw [fieldInWords_eq (one_le_of_ne_zero htarget), field?_eq_some (.inr htarget)]

theorem field_within (base target : UInt32) :
    field base target &&& Control1.clockField = field base target := by
  rw [field, ← encode_within, UInt32.and_assoc]
  rfl

/-- The field lies in the ten bits of the divider and decodes to the divider that was chosen. Up to
a ratio of 1024 this divides by the least power of two that is enough, and beyond by 2046. So the
clock is no faster than its target as long as the ratio is at most 2046. No step on the way to the
field leaves the range of a word. -/
theorem divider_optimal (base target : UInt32) (htarget : 1 ≤ target) :
    let q := ratio base target
    let f := field base target
    let divider := (decode f).toNat
    (f &&& 0xFFC0 = f ∧ f &&& Control1.clockField = f) ∧
    (divider = choose base target ∧ divider ≤ maxDivider) ∧
    (q ≤ 1024 → IsLeast (Sufficient q) (factor divider)) ∧
    (1024 < q → factor divider = 2046) ∧
    fieldInWords base target = some f ∧
    (rate base f).toNat = base.toNat / factor divider ∧
    (q ≤ 2046 → rate base f ≤ target) := by
  intro q f divider
  have hdivider : divider = choose base target := decode_field base target
  have hfits : divider ≤ maxDivider := hdivider ▸ choose_le base target
  refine ⟨⟨encode_within _, field_within base target⟩, ⟨hdivider, hfits⟩, fun hq => ?_,
    fun hq => ?_, fieldInWords_eq htarget, toNat_rate base f, rate_le htarget⟩
  · rw [hdivider]
    exact factor_choose_isLeast htarget hq
  · rw [hdivider]
    exact factor_choose_large htarget hq

/-- A base clock of 250 MHz is divided by 1024 while a card is identified. -/
theorem divider_optimal_identification :
    1 ≤ identificationHz ∧ ratio 250000000 identificationHz = 625 ∧
      IsLeast (Sufficient 625) 1024 ∧
      rate 250000000 (field 250000000 identificationHz) ≤ identificationHz := by
  have hratio : ratio 250000000 identificationHz = 625 := by decide
  obtain ⟨-, -, hleast, -, -, -, hrate⟩ :=
    divider_optimal 250000000 identificationHz (by decide)
  rw [hratio] at hleast hrate
  exact ⟨by decide, hratio, hleast (by decide), hrate (by decide)⟩

end Peripherals.Sd.Divider
