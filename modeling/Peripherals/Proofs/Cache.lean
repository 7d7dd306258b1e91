import Mathlib.Data.List.Range
import Mathlib.Data.Nat.Bitwise
import Peripherals.Cache

/-! The lines of a range of memory. They are all lines from that of its first byte up to its end, so
they cover it without a gap, also where it is cut off at the top of the address space. They touch
nothing but the range, save for an empty range inside a line, which has this line. -/

namespace Peripherals.Cache

/-- The line that starts at `line` holds the byte at `b`. -/
def Holds (line b : Nat) : Prop := line ≤ b ∧ b < line + lineSize

/-- The byte at `b` is one of the `len` bytes from `addr` on. -/
def InRange (addr len b : Nat) : Prop := addr ≤ b ∧ b < addr + len

variable {addr len line b i : Nat}

/-! ### The line of a byte -/

theorem lineSize_dvd_lineOf (addr : Nat) : lineSize ∣ lineOf addr :=
  Nat.dvd_mul_left _ _

theorem holds_lineOf (b : Nat) : Holds (lineOf b) b := by
  unfold Holds lineOf lineSize
  omega

/-- No two lines hold the same byte. -/
theorem eq_lineOf (hdvd : lineSize ∣ line) (h : Holds line b) : line = lineOf b := by
  unfold Holds lineOf lineSize at *
  omega

theorem lineOf_mono (h : addr ≤ b) : lineOf addr ≤ lineOf b :=
  Nat.mul_le_mul_right _ (Nat.div_le_div_right h)

/-- A line past that of a byte starts past the byte. -/
theorem lt_of_lineOf_lt (hdvd : lineSize ∣ line) (h : lineOf addr < line) : addr < line := by
  unfold lineOf lineSize at *
  omega

/-! ### The lines of a range -/

theorem lt_lineCount : i < lineCount addr len ↔ lineOf addr + lineSize * i < rangeEnd addr len := by
  unfold lineCount lineSize
  omega

theorem lines_eq_range' (addr len : Nat) :
    lines addr len = List.range' (lineOf addr) (lineCount addr len) lineSize := by
  refine List.ext_getElem (by simp [lines]) fun i _ _ => ?_
  simp [lines, Nat.mul_comm]

theorem mem_lines :
    line ∈ lines addr len ↔ lineSize ∣ line ∧ lineOf addr ≤ line ∧ line < rangeEnd addr len := by
  simp only [lines_eq_range', List.mem_range', lt_lineCount]
  constructor
  · rintro ⟨i, hi, rfl⟩
    exact ⟨Nat.dvd_add (lineSize_dvd_lineOf addr) (Nat.dvd_mul_right _ _), Nat.le_add_right _ _, hi⟩
  · rintro ⟨hdvd, hle, hlt⟩
    obtain ⟨i, hi⟩ := Nat.dvd_sub hdvd (lineSize_dvd_lineOf addr)
    have hline : line = lineOf addr + lineSize * i := by omega
    exact ⟨i, hline ▸ hlt, hline⟩

theorem lines_isChain (addr len : Nat) :
    (lines addr len).IsChain fun line next => next = line + lineSize := by
  rw [lines_eq_range']
  exact List.isChain_range' _ _ _

theorem lines_nodup (addr len : Nat) : (lines addr len).Nodup := by
  rw [lines_eq_range']
  exact List.nodup_range' lineSize (by decide)

/-- The end of a range is never past the last address, so the byte there is left out of it; but no
line starts there. -/
theorem lineOf_lt_rangeEnd (hb : b ≤ lastAddress) (h : b < addr + len) :
    lineOf b < rangeEnd addr len := by
  unfold rangeEnd lastAddress lineOf lineSize at *
  omega

theorem lineOf_mem_lines (hb : b ≤ lastAddress) (h : InRange addr len b) :
    lineOf b ∈ lines addr len :=
  mem_lines.mpr ⟨lineSize_dvd_lineOf b, lineOf_mono h.1, lineOf_lt_rangeEnd hb h.2⟩

theorem le_lastAddress (b : UInt64) : b.toNat ≤ lastAddress :=
  Nat.le_of_lt_succ b.toNat_lt

/-- A line of a range that is not empty holds the first byte of the range, or starts in it. -/
theorem exists_touched (haddr : addr ≤ lastAddress) (hlen : 0 < len)
    (h : line ∈ lines addr len) : ∃ b ≤ lastAddress, InRange addr len b ∧ Holds line b := by
  obtain ⟨hdvd, hle, hlt⟩ := mem_lines.mp h
  obtain ⟨hsum, hlast⟩ := Nat.lt_min.mp hlt
  obtain heq | hpast := Nat.eq_or_lt_of_le hle
  · exact ⟨addr, haddr, ⟨Nat.le_refl _, by omega⟩, heq ▸ holds_lineOf addr⟩
  · have hfirst := lt_of_lineOf_lt hdvd hpast
    exact ⟨line, hlast.le, ⟨hfirst.le, hsum⟩, Nat.le_refl _, Nat.lt_add_of_pos_right (by decide)⟩

/-- An empty range has no line if it is at the start of one, and else the line that it is in. -/
theorem lines_empty (haddr : addr ≤ lastAddress) :
    lines addr 0 = if lineSize ∣ addr then [] else [lineOf addr] := by
  have hcount : lineCount addr 0 = if lineSize ∣ addr then 0 else 1 := by
    unfold lineCount rangeEnd lineOf lineSize
    split <;> omega
  rw [lines_eq_range', hcount]
  split <;> rfl

/-! ### The lines in words -/

/-- So many words from `line` on, each a line further than the one before. -/
def walk : (count : Nat) → (line : UInt64) → List UInt64
  | 0, _ => []
  | count + 1, line => line :: walk count (line + 64)

/-- The end of a range, or the last address where the sum is too large for a word. -/
def stopInWords (addr len : UInt64) : UInt64 :=
  if addr + len < addr then 0xFFFFFFFFFFFFFFFF else addr + len

/-- How many lines there are in so many bytes from the start of one. -/
def countInWords (span : UInt64) : UInt64 :=
  span / 64 + if span % 64 = 0 then 0 else 1

/-- The lines of a range as they are computed word by word. -/
def linesInWords (addr len : UInt64) : List UInt64 :=
  let start := addr &&& ~~~(63 : UInt64)
  walk (countInWords (stopInWords addr len - start)).toNat start

theorem mask_eq_shifts (w : UInt64) : w &&& ~~~(63 : UInt64) = w >>> 6 <<< 6 := by
  apply UInt64.toBitVec_inj.mp
  ext i hi
  have hlow : (63 : UInt64).toBitVec[i] = decide (i < 6) := Nat.testBit_two_pow_sub_one 6 i
  rw [UInt64.toBitVec_and, UInt64.toBitVec_not, BitVec.getElem_and, BitVec.getElem_not, hlow]
  by_cases h6 : i < 6
  · simp [h6]
  · simp [h6, Nat.le_of_not_lt h6, BitVec.getLsbD_eq_getElem hi]

theorem toNat_mask (w : UInt64) : (w &&& ~~~(63 : UInt64)).toNat = lineOf w.toNat := by
  have hlt := w.toNat_lt
  rw [mask_eq_shifts, UInt64.toNat_shiftLeft, UInt64.toNat_shiftRight]
  show w.toNat >>> 6 <<< 6 % 2 ^ 64 = _
  rw [Nat.shiftLeft_eq, Nat.shiftRight_eq_div_pow]
  unfold lineOf lineSize
  omega

theorem toNat_stopInWords (addr len : UInt64) :
    (stopInWords addr len).toNat = rangeEnd addr.toNat len.toNat := by
  have haddr := addr.toNat_lt
  have hlen := len.toNat_lt
  have hsum := UInt64.toNat_add addr len
  unfold stopInWords rangeEnd lastAddress
  split
  · rename_i hover
    have hless := UInt64.lt_iff_toNat_lt.mp hover
    show 0xFFFFFFFFFFFFFFFF = _
    omega
  · rename_i hfits
    have hleast := mt UInt64.lt_iff_toNat_lt.mpr hfits
    omega

theorem toNat_countInWords (span : UInt64) :
    (countInWords span).toNat = (span.toNat + (lineSize - 1)) / lineSize := by
  have hlt := span.toNat_lt
  have hdiv : (span / 64).toNat = span.toNat / 64 := UInt64.toNat_div _ _
  have hmod : (span % 64).toNat = span.toNat % 64 := UInt64.toNat_mod _ _
  unfold countInWords lineSize
  by_cases hexact : span % 64 = 0
  · rw [hexact] at hmod
    rw [if_pos hexact, UInt64.add_zero, hdiv]
    have hzero : span.toNat % 64 = 0 := hmod.symm
    omega
  · have hrest : span.toNat % 64 ≠ 0 := fun h => hexact (UInt64.toNat_inj.mp (hmod.trans h))
    rw [if_neg hexact, UInt64.toNat_add, hdiv]
    show (span.toNat / 64 + 1) % 2 ^ 64 = _
    omega

/-- A walk whose words are all in range is one in numbers. The step after its last word may wrap
around, but it is not made use of. -/
theorem map_toNat_walk {count : Nat} {line : UInt64}
    (h : ∀ i < count, line.toNat + lineSize * i < 2 ^ 64) :
    (walk count line).map UInt64.toNat = List.range' line.toNat count lineSize := by
  induction count generalizing line with
  | zero => rfl
  | succ count ih =>
    rw [walk, List.map_cons, List.range'_succ]
    cases count with
    | zero => rfl
    | succ count =>
      have hnext : (line + 64).toNat = line.toNat + lineSize := by
        rw [UInt64.toNat_add]
        exact Nat.mod_eq_of_lt (h 1 (by omega))
      have hrest (i : Nat) (hi : i < count + 1) : (line + 64).toNat + lineSize * i < 2 ^ 64 := by
        have hword := h (i + 1) (by omega)
        rw [Nat.mul_add_one] at hword
        omega
      rw [ih hrest, hnext]

/-- No step leaves the range of a word. -/
theorem linesInWords_eq (addr len : UInt64) :
    (linesInWords addr len).map UInt64.toNat = lines addr.toNat len.toNat := by
  have hstart : lineOf addr.toNat ≤ rangeEnd addr.toNat len.toNat := by
    have haddr := addr.toNat_lt
    unfold lineOf lineSize rangeEnd lastAddress
    omega
  have hspan : (stopInWords addr len - (addr &&& ~~~(63 : UInt64))).toNat =
      rangeEnd addr.toNat len.toNat - lineOf addr.toNat := by
    rw [UInt64.toNat_sub_of_le, toNat_mask, toNat_stopInWords]
    rwa [UInt64.le_iff_toNat_le, toNat_mask, toNat_stopInWords]
  have hcount : (countInWords (stopInWords addr len - (addr &&& ~~~(63 : UInt64)))).toNat =
      lineCount addr.toNat len.toNat := by
    rw [toNat_countInWords, hspan, lineCount]
  rw [linesInWords, hcount, map_toNat_walk, toNat_mask, lines_eq_range']
  intro i hi
  rw [toNat_mask]
  exact (lt_lineCount.mp hi).trans_le ((Nat.min_le_right _ _).trans (by decide))

/-! ### What the lines of a range cover and what they touch -/

/-- The lines of a range are aligned and stand side by side, each once, and each byte of the range
lies in exactly one of them. A range that goes past the top of the address space has its bytes up to
the last one. The arithmetic of 64-bit words comes to the same lines. -/
theorem lines_cover (addr len : UInt64) :
    (∀ line ∈ lines addr.toNat len.toNat, lineSize ∣ line) ∧
    (lines addr.toNat len.toNat).IsChain (fun line next => next = line + lineSize) ∧
    (lines addr.toNat len.toNat).Nodup ∧
    (∀ b : UInt64, InRange addr.toNat len.toNat b.toNat →
      ∃! line, line ∈ lines addr.toNat len.toNat ∧ Holds line b.toNat) ∧
    (linesInWords addr len).map UInt64.toNat = lines addr.toNat len.toNat := by
  refine ⟨fun line hline => (mem_lines.mp hline).1, lines_isChain _ _, lines_nodup _ _,
    fun b hb => ?_, linesInWords_eq addr len⟩
  refine ⟨lineOf b.toNat, ⟨lineOf_mem_lines (le_lastAddress b) hb, holds_lineOf _⟩, ?_⟩
  rintro line ⟨hline, hholds⟩
  exact eq_lineOf (mem_lines.mp hline).1 hholds

/-- A range that starts inside a line and goes past the top of the address space. -/
theorem lines_cover_top :
    lines 0xFFFFFFFFFFFFFFBF 100 = [0xFFFFFFFFFFFFFF80, 0xFFFFFFFFFFFFFFC0] ∧
    InRange 0xFFFFFFFFFFFFFFBF 100 0xFFFFFFFFFFFFFFFF ∧
    ∃! line, line ∈ lines 0xFFFFFFFFFFFFFFBF 100 ∧ Holds line 0xFFFFFFFFFFFFFFFF := by
  have hlast : InRange 0xFFFFFFFFFFFFFFBF 100 0xFFFFFFFFFFFFFFFF := ⟨by decide, by decide⟩
  obtain ⟨-, -, -, hcover, -⟩ := lines_cover 0xFFFFFFFFFFFFFFBF 100
  exact ⟨by decide, hlast, hcover 0xFFFFFFFFFFFFFFFF hlast⟩

/-- Every line of a range holds a byte of the range, unless the range is empty and inside a line: it
has this line, although it has no byte. -/
theorem lines_touch (addr len : UInt64) :
    ((∀ line ∈ lines addr.toNat len.toNat,
        ∃ b : UInt64, InRange addr.toNat len.toNat b.toNat ∧ Holds line b.toNat) ↔
      (len = 0 → lineSize ∣ addr.toNat)) ∧
    lines addr.toNat 0 = if lineSize ∣ addr.toNat then [] else [lineOf addr.toNat] := by
  have hempty := lines_empty (le_lastAddress addr)
  refine ⟨⟨fun htouch hlen => ?_, fun haligned line hline => ?_⟩, hempty⟩
  · by_contra hinside
    rw [hlen] at htouch
    obtain ⟨b, ⟨hfirst, hlast⟩, -⟩ := htouch (lineOf addr.toNat) (by
      show _ ∈ lines addr.toNat 0
      rw [hempty, if_neg hinside]
      exact List.mem_singleton_self _)
    exact absurd hfirst (Nat.not_le.mpr hlast)
  · have hlen : 0 < len.toNat := by
      refine Nat.pos_of_ne_zero fun hzero => ?_
      rw [hzero, hempty, if_pos (haligned (UInt64.toNat_inj.mp hzero))] at hline
      nomatch hline
    obtain ⟨b, hb, hrange, hholds⟩ := exists_touched (le_lastAddress addr) hlen hline
    have hword : (UInt64.ofNat b).toNat = b := UInt64.toNat_ofNat_of_lt' (Nat.lt_succ_of_le hb)
    exact ⟨UInt64.ofNat b, by rwa [hword], by rwa [hword]⟩

/-- A range of one byte at the end of a line and the whole of the next one. -/
theorem lines_touch_partial :
    ((65 : UInt64) = 0 → lineSize ∣ (63 : UInt64).toNat) ∧ lines 63 65 = [0, 64] ∧
    ∀ line ∈ lines 63 65, ∃ b : UInt64, InRange 63 65 b.toNat ∧ Holds line b.toNat := by
  have hsome : (65 : UInt64) = 0 → lineSize ∣ (63 : UInt64).toNat := fun h => absurd h (by decide)
  exact ⟨hsome, by decide, (lines_touch 63 65).1.mpr hsome⟩

/-- The empty range at the fourth byte of a line has no byte, but the line. -/
theorem lines_empty_inside : lines 4 0 = [0] ∧ ∀ b, ¬InRange 4 0 b := by
  refine ⟨by decide, fun b hb => ?_⟩
  exact absurd hb.1 (Nat.not_le.mpr hb.2)

end Peripherals.Cache
