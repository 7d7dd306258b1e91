import Mathlib.Algebra.Order.BigOperators.Group.List
import Mathlib.Algebra.Order.Group.Nat
import Mathlib.Data.Nat.Bitwise
import Mathlib.Data.Set.Function
import Mathlib.Order.Interval.Set.Defs
import Peripherals.Interrupt.Layout
import Peripherals.Proofs.Word

/-! The numbering of lines. The lines of a bank have the numbers from the base of the bank on, so
that the bits of the banks and the numbers below the number of lines are one to one. A bank without
lines has the base of the bank after it, and no number. -/

namespace Peripherals.Interrupt.BankLayout

variable {widths : List Nat} {l : BankLayout} {bank other bit line : Nat}

/-! ### Widths and masks -/

theorem width_le_maxWidth (l : BankLayout) (bank : Nat) : l.width bank ≤ maxWidth := by
  unfold width
  cases hbank : l.widths[bank]? with
  | none => simp
  | some w => exact l.width_le w (List.mem_of_getElem? hbank)

theorem testBit_mask (l : BankLayout) (bank i : Nat) :
    (l.mask bank).toNat.testBit i = decide (i < l.width bank) := by
  have hle : 2 ^ l.width bank ≤ 2 ^ 32 :=
    Nat.pow_le_pow_right (by decide) (l.width_le_maxWidth bank)
  have hpos := Nat.two_pow_pos (l.width bank)
  rw [mask, Nat.one_shiftLeft, UInt32.toNat_ofNat', Nat.mod_eq_of_lt (by omega),
    Nat.testBit_two_pow_sub_one]

/-- The mask of as many lines, computed in words. A word cannot be shifted by its own size. -/
def maskInWords (width : Nat) : UInt32 :=
  if width = 32 then 0xFFFFFFFF else ((1 : UInt32) <<< UInt32.ofNat width) - 1

theorem mask_eq_maskInWords (l : BankLayout) (bank : Nat) :
    l.mask bank = maskInWords (l.width bank) := by
  have hwidth : l.width bank ≤ 32 := l.width_le_maxWidth bank
  rw [mask, maskInWords]
  split
  · rename_i hfull
    rw [hfull]
    rfl
  · have hlt : 2 ^ l.width bank < 2 ^ 32 := Nat.pow_lt_pow_right (by decide) (by omega)
    have hpos := Nat.two_pow_pos (l.width bank)
    have hone := Word.toNat_one_shiftLeft (Nat.lt_of_le_of_ne hwidth ‹_›)
    apply UInt32.toNat_inj.mp
    rw [UInt32.toNat_sub_of_le _ _ (UInt32.le_iff_toNat_le.mpr (by rw [hone]; exact hpos)), hone,
      UInt32.toNat_one, Nat.one_shiftLeft, UInt32.toNat_ofNat', Nat.mod_eq_of_lt (by omega)]

/-- A bank that has a line is one of the layout. -/
theorem lt_bankCount (h : bit < l.width bank) : bank < l.bankCount := by
  by_contra hbank
  have hnone : l.widths[bank]? = none := List.getElem?_eq_none (Nat.le_of_not_lt hbank)
  rw [width, hnone] at h
  exact absurd h (Nat.not_lt_zero _)

/-! ### Bases -/

theorem base_eq_sum (l : BankLayout) (bank : Nat) : l.base bank = (l.widths.take bank).sum :=
  List.sum_eq_foldl.symm

theorem lineCount_eq_sum (l : BankLayout) : l.lineCount = l.widths.sum :=
  List.sum_eq_foldl.symm

/-- Four full banks are the most that a layout can have. -/
theorem lineCount_le (l : BankLayout) : l.lineCount ≤ 128 := by
  have hsum : l.widths.sum ≤ l.widths.length * maxWidth :=
    List.sum_le_card_nsmul _ _ l.width_le
  have hbanks : l.widths.length * maxWidth ≤ maxBanks * maxWidth :=
    Nat.mul_le_mul_right maxWidth l.length_le
  rw [lineCount_eq_sum]
  exact hsum.trans hbanks

theorem base_succ (l : BankLayout) (bank : Nat) :
    l.base (bank + 1) = l.base bank + l.width bank := by
  unfold base width
  rw [List.take_add_one, List.foldl_append]
  cases l.widths[bank]? with
  | none => rfl
  | some w => rfl

theorem base_mono (l : BankLayout) (h : bank ≤ other) : l.base bank ≤ l.base other := by
  induction h with
  | refl => exact le_rfl
  | step _ ih => exact ih.trans (by rw [l.base_succ]; omega)

/-! ### Places of lines -/

/-- A line is in the first of the banks that ends behind it. -/
theorem locateIn_eq_some : locateIn widths line = some (bank, bit) ↔
    bit < widths[bank]?.getD 0 ∧ (widths.take bank).sum + bit = line := by
  induction widths generalizing line bank with
  | nil => simp [locateIn]
  | cons w rest ih =>
    rw [locateIn]
    by_cases hfirst : line < w
    · rw [if_pos hfirst]
      cases bank with
      | zero => grind
      | succ bank =>
        simp only [List.getElem?_cons_succ, List.take_succ_cons, List.sum_cons]
        grind
    · rw [if_neg hfirst, Option.map_eq_some_iff]
      cases bank with
      | zero => grind
      | succ bank =>
        have hrest : locateIn rest (line - w) = some (bank, bit) ↔ _ := ih
        simp only [List.getElem?_cons_succ, List.take_succ_cons, List.sum_cons]
        grind

theorem locateIn_eq_none : locateIn widths line = none ↔ widths.sum ≤ line := by
  induction widths generalizing line with
  | nil => simp [locateIn]
  | cons w rest ih =>
    rw [locateIn, List.sum_cons]
    by_cases hfirst : line < w
    · rw [if_pos hfirst]
      exact iff_of_false (by simp) (by omega)
    · rw [if_neg hfirst, Option.map_eq_none_iff, ih]
      omega

theorem locate_eq_some : l.locate line = some (bank, bit) ↔
    bank < l.bankCount ∧ bit < l.width bank ∧ l.base bank + bit = line := by
  rw [locate, locateIn_eq_some, base_eq_sum]
  exact ⟨fun h => ⟨lt_bankCount h.1, h⟩, fun h => h.2⟩

theorem locate_eq_none : l.locate line = none ↔ l.lineCount ≤ line := by
  rw [locate, locateIn_eq_none, lineCount_eq_sum]

/-- A bit of a bank, as a place. -/
def IsPlace (l : BankLayout) (place : Nat × Nat) : Prop :=
  place.1 < l.bankCount ∧ place.2 < l.width place.1

/-- The number of the line at a place. -/
def number (l : BankLayout) (place : Nat × Nat) : Nat := l.base place.1 + place.2

theorem locate_number {place : Nat × Nat} (h : l.IsPlace place) :
    l.locate (l.number place) = some place :=
  locate_eq_some.mpr ⟨h.1, h.2, rfl⟩

theorem exists_place (h : line < l.lineCount) :
    ∃ place, l.IsPlace place ∧ l.number place = line := by
  cases hplace : l.locate line with
  | none => exact absurd (locate_eq_none.mp hplace) (Nat.not_le_of_lt h)
  | some place =>
    obtain ⟨hbank, hbit, hline⟩ := locate_eq_some.mp hplace
    exact ⟨place, ⟨hbank, hbit⟩, hline⟩

theorem number_lt {place : Nat × Nat} (h : l.IsPlace place) : l.number place < l.lineCount := by
  by_contra hpast
  have hnone := locate_eq_none.mpr (Nat.le_of_not_lt hpast)
  rw [locate_number h] at hnone
  cases hnone

theorem number_bijOn (l : BankLayout) :
    Set.BijOn l.number {place | l.IsPlace place} (Set.Iio l.lineCount) := by
  refine ⟨fun place h => number_lt h, fun place h other hother hsame => ?_, fun line h => ?_⟩
  · have hplace := locate_number h
    rw [hsame, locate_number hother] at hplace
    exact (Option.some.inj hplace).symm
  · exact exists_place h

/-! ### Layouts -/

theorem isSome_ofWidths? :
    (ofWidths? widths).isSome ↔ widths.length ≤ maxBanks ∧ ∀ w ∈ widths, w ≤ maxWidth := by
  rw [ofWidths?]
  split
  · exact iff_of_true rfl ‹_›
  · exact iff_of_false nofun ‹_›

theorem widths_of_ofWidths? (h : ofWidths? widths = some l) : l.widths = widths := by
  rw [ofWidths?] at h
  split at h
  · cases h
    rfl
  · nomatch h

/-- In every layout that is accepted, the lines below the number of lines, 128 at most, are one to
one with the bits of the banks: the bank and bit of a line are the one place with its number, and no
other line has a place. The mask of a bank has the bits of its lines, and can be computed in words,
with a bank that fills its word set apart. -/
theorem numbering_bijective (widths : List Nat) :
    ((ofWidths? widths).isSome ↔ widths.length ≤ 4 ∧ ∀ w ∈ widths, w ≤ 32) ∧
    ∀ l, ofWidths? widths = some l →
      l.widths = widths ∧ l.lineCount ≤ 128 ∧
      (∀ line bank bit, l.locate line = some (bank, bit) ↔
        bank < l.bankCount ∧ bit < l.width bank ∧ l.base bank + bit = line) ∧
      (∀ line, l.locate line = none ↔ l.lineCount ≤ line) ∧
      Set.BijOn l.number {place | l.IsPlace place} (Set.Iio l.lineCount) ∧
      (∀ bank bit, (l.mask bank).toNat.testBit bit = true →
        l.locate (l.base bank + bit) = some (bank, bit)) ∧
      (∀ bank i, (l.mask bank).toNat.testBit i = true ↔ i < l.width bank) ∧
      ∀ bank, l.mask bank = maskInWords (l.width bank) := by
  refine ⟨isSome_ofWidths?, fun l h => ?_⟩
  have hmask (bank i : Nat) : (l.mask bank).toNat.testBit i = true ↔ i < l.width bank := by
    rw [l.testBit_mask, decide_eq_true_iff]
  refine ⟨widths_of_ofWidths? h, l.lineCount_le, fun _ _ _ => locate_eq_some,
    fun _ => locate_eq_none, l.number_bijOn, fun bank bit hbit => ?_, hmask, l.mask_eq_maskInWords⟩
  have hwidth := (hmask bank bit).mp hbit
  exact locate_eq_some.mpr ⟨lt_bankCount hwidth, hwidth, rfl⟩

theorem numbering_bijective_empty_banks : ∃ l, ofWidths? [0, 32, 0, 12] = some l ∧
    l.locate 31 = some (1, 31) ∧ l.locate 32 = some (3, 0) ∧ l.locate 44 = none ∧
    (l.mask 1).toNat.testBit 31 = true := by
  refine ⟨⟨[0, 32, 0, 12], by decide, by decide⟩, rfl, ?_⟩
  obtain ⟨-, -, hlocate, hnone, -, -, hmask, -⟩ := (numbering_bijective [0, 32, 0, 12]).2 _ rfl
  exact ⟨(hlocate _ _ _).mpr (by decide), (hlocate _ _ _).mpr (by decide),
    (hnone _).mpr (by decide), (hmask _ _).mpr (by decide)⟩

end Peripherals.Interrupt.BankLayout
