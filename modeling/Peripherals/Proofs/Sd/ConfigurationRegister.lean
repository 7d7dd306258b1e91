import Mathlib.Data.Nat.Bitwise
import Mathlib.Data.Nat.Digits.Defs
import Peripherals.Proofs.Sd.Course

/-! The configuration register of a card. The card sends its most significant byte first, and the
data port has the byte that comes first in the lowest place of a word. What is recorded of the
register has every field where the register has it. -/

namespace Peripherals.Sd

variable {register register' : UInt64} {first second first' second' : UInt32} {s s' : Scr}
  {width n i k : Nat}

/-! Bytes in descending order. -/

/-- The last `width` bytes of a number, the most significant first. -/
def descending : (width n : Nat) → List UInt8
  | 0, _ => []
  | width + 1, n => UInt8.ofNat (n / 256 ^ width) :: descending width n

/-- The number that bytes stand for, the most significant first. -/
def ofDescending (bytes : List UInt8) : Nat := Nat.ofDigits 256 (bytes.map UInt8.toNat).reverse

theorem length_descending (width n : Nat) : (descending width n).length = width := by
  induction width with
  | zero => rfl
  | succ width ih => rw [descending, List.length_cons, ih]

theorem ofDescending_descending (width n : Nat) :
    ofDescending (descending width n) = n % 256 ^ width := by
  induction width with
  | zero => exact (Nat.mod_one n).symm
  | succ width ih =>
    have hlength : ((descending width n).map UInt8.toNat).reverse.length = width := by
      rw [List.length_reverse, List.length_map, length_descending]
    rw [ofDescending] at ih ⊢
    rw [descending, List.map_cons, List.reverse_cons, Nat.ofDigits_append, ih, hlength,
      Nat.ofDigits_singleton, UInt8.toNat_ofNat']
    exact (Nat.mod_pow_succ (b := 256)).symm

theorem ofDescending_inj {bytes bytes' : List UInt8} (hlength : bytes.length = bytes'.length) :
    ofDescending bytes = ofDescending bytes' ↔ bytes = bytes' := by
  refine ⟨fun h => ?_, fun h => h ▸ rfl⟩
  have hdigit (l : List UInt8) : ∀ n ∈ (l.map UInt8.toNat).reverse, n < 256 := by
    intro n hn
    obtain ⟨b, -, rfl⟩ := List.mem_map.mp (List.mem_reverse.mp hn)
    exact b.toNat_lt
  have hdigits := Nat.ofDigits_inj_of_len_eq (by decide) (by simp [hlength]) (hdigit bytes)
    (hdigit bytes') h
  rw [List.reverse_inj] at hdigits
  exact List.map_injective_iff.mpr (fun _ _ => UInt8.toNat_inj.mp) hdigits

theorem getElem?_descending (hi : i < width) :
    (descending width n)[i]? = some (UInt8.ofNat (n / 256 ^ (width - 1 - i))) := by
  induction width generalizing i with
  | zero => omega
  | succ width ih =>
    cases i with
    | zero => rfl
    | succ i =>
      have hplace : width + 1 - 1 - (i + 1) = width - 1 - i := by omega
      rw [descending, List.getElem?_cons_succ, ih (by omega), hplace]

/-! The words of the register. -/

/-- The words carry the register: one after another they have its bytes in the order in which it is
sent, the first byte of each in the lowest place. -/
def Carries (register : UInt64) (words : List UInt32) : Prop :=
  words.flatMap Word.bytes = descending 8 register.toNat

instance (register : UInt64) (words : List UInt32) : Decidable (Carries register words) :=
  inferInstanceAs (Decidable (_ = _))

theorem exists_carries (register : UInt64) : ∃ first second, Carries register [first, second] := by
  have hlength := length_descending 8 register.toNat
  match hbytes : descending 8 register.toNat, hlength with
  | [b0, b1, b2, b3, b4, b5, b6, b7], _ =>
    refine ⟨Word.ofBytes b0 b1 b2 b3, Word.ofBytes b4 b5 b6 b7, ?_⟩
    simp [Carries, hbytes, Word.bytes_ofBytes]

theorem Carries.raw (h : Carries register [first, second]) :
    (Scr.ofPort first second).raw.toList = descending 8 register.toNat := h

/-! The fields of the register. Each is the lower half of a byte, or one bit of it. -/

/-- What is recorded of a configuration register has every field where the register has it. -/
structure Scr.Reads (s : Scr) (register : UInt64) : Prop where
  raw : ofDescending s.raw.toList = register.toNat
  spec : s.spec.toNat = (register.toBitVec.extractLsb 59 56).toNat
  busWidths : s.busWidths.toNat = (register.toBitVec.extractLsb 51 48).toNat
  supportsWideBus : s.supportsWideBus = register.toBitVec[50]
  spec3 : s.spec3 = register.toBitVec[47]
  spec4 : s.spec4 = register.toBitVec[42]

theorem toNat_raw (h : s.raw.toList = descending 8 register.toNat) (hi : i < 8) :
    s.raw[i].toNat = register.toNat / 2 ^ (8 * (7 - i)) % 2 ^ 8 := by
  have hbyte : s.raw.toList[i]? = some (UInt8.ofNat (register.toNat / 256 ^ (7 - i))) := by
    rw [h]
    exact getElem?_descending hi
  have hpow : 256 ^ (7 - i) = 2 ^ (8 * (7 - i)) := (Nat.pow_mul 2 8 (7 - i)).symm
  rw [Vector.getElem?_toList, Vector.getElem?_eq_getElem hi] at hbyte
  rw [Option.some.inj hbyte, UInt8.toNat_ofNat', hpow]

theorem toNat_extractLsb (register : UInt64) (low : Nat) :
    (register.toBitVec.extractLsb (low + 3) low).toNat = register.toNat / 2 ^ low % 2 ^ 4 := by
  have hwidth : low + 3 - low + 1 = 4 := by omega
  rw [BitVec.extractLsb_toNat, hwidth, Nat.shiftRight_eq_div_pow]
  rfl

theorem lowerHalf_raw (h : s.raw.toList = descending 8 register.toNat) (hi : i < 8) :
    (s.raw[i] &&& 0x0F).toNat =
      (register.toBitVec.extractLsb (8 * (7 - i) + 3) (8 * (7 - i))).toNat := by
  have hmask : (0x0F : UInt8).toNat = 2 ^ 4 - 1 := rfl
  rw [UInt8.toNat_and, hmask, Nat.and_two_pow_sub_one_eq_mod, toNat_raw h hi, toNat_extractLsb,
    Nat.mod_mod_of_dvd _ (by decide)]

theorem and_bit_ne_zero {b mask : UInt8} (hmask : mask.toNat = 2 ^ k) :
    (b &&& mask != 0) = b.toNat.testBit k := by
  have hand : (b &&& mask).toNat = (b.toNat.testBit k).toNat * 2 ^ k := by
    rw [UInt8.toNat_and, hmask, Nat.and_two_pow]
  apply Bool.eq_iff_iff.mpr
  rw [bne_iff_ne, Ne, ← UInt8.toNat_inj, hand]
  cases b.toNat.testBit k with
  | false => simp
  | true => simp

theorem bit_raw (h : s.raw.toList = descending 8 register.toNat) (hi : i < 8) (hk : k < 8)
    {mask : UInt8} (hmask : mask.toNat = 2 ^ k) :
    (s.raw[i] &&& mask != 0) = register.toBitVec.getLsbD (8 * (7 - i) + k) := by
  rw [and_bit_ne_zero hmask, toNat_raw h hi, Nat.testBit_mod_two_pow, Nat.testBit_div_two_pow,
    decide_eq_true hk, Bool.true_and, Nat.add_comm]
  rfl

theorem reads_of_raw (h : s.raw.toList = descending 8 register.toNat) : s.Reads register where
  raw := by
    rw [h, ofDescending_descending]
    exact Nat.mod_eq_of_lt register.toNat_lt
  spec := lowerHalf_raw h (by decide)
  busWidths := lowerHalf_raw h (by decide)
  supportsWideBus := bit_raw (k := 2) h (by decide) (by decide) rfl
  spec3 := bit_raw (k := 7) h (by decide) (by decide) rfl
  spec4 := bit_raw (k := 2) h (by decide) (by decide) rfl

theorem Scr.Reads.unique (h : s.Reads register) (h' : s.Reads register') : register = register' :=
  UInt64.toNat_inj.mp (h.raw.symm.trans h'.raw)

theorem Scr.Reads.eq (h : s.Reads register) (h' : s'.Reads register) : s = s' := by
  have hlength : s.raw.toList.length = s'.raw.toList.length := by
    rw [Vector.length_toList, Vector.length_toList]
  have hraw := (ofDescending_inj hlength).mp (h.raw.trans h'.raw.symm)
  exact congrArg Scr.mk (Vector.toList_inj.mp hraw)

theorem ofPort_inj :
    Scr.ofPort first second = Scr.ofPort first' second' ↔ first = first' ∧ second = second' := by
  refine ⟨fun h => ?_, fun h => h.1 ▸ h.2 ▸ rfl⟩
  have hbytes : Word.bytes first ++ Word.bytes second = Word.bytes first' ++ Word.bytes second' :=
    congrArg (·.raw.toList) h
  have hwords := congrArg (fun bs => Word.arrayOfBytes 2 bs.toArray) hbytes
  simpa [Word.arrayOfBytes_bytes] using hwords

/-- Every register arrives as some two words. What is made of these has the fields of the register,
and is made of no other register. Where a request for the register succeeds, this is what it records
exactly if it has ended with these words. -/
theorem configuration_in_order (register : UInt64) :
    (∃ first second, Carries register [first, second]) ∧
    ∀ first second, Carries register [first, second] →
      (Scr.ofPort first second).Reads register ∧
      (∀ register' first' second', Carries register' [first', second'] →
        (Scr.ofPort first second = Scr.ofPort first' second' ↔ register = register')) ∧
      ∀ d t d', Acts readScr d t (.ok ()) d' →
        (d'.card.scr.Reads register ↔ scrTraffic first second <:+ traffic t) := by
  refine ⟨exists_carries register, fun first second h => ?_⟩
  have hreads : (Scr.ofPort first second).Reads register := reads_of_raw h.raw
  refine ⟨hreads, fun register' first' second' h' => ?_, fun d t d' hread => ?_⟩
  · have hreads' : (Scr.ofPort first' second').Reads register' := reads_of_raw h'.raw
    constructor
    · intro heq
      rw [heq] at hreads
      exact hreads.unique hreads'
    · rintro rfl
      exact hreads.eq hreads'
  · obtain ⟨first', second', hends', hscr⟩ := readScr_records hread
    rw [hscr]
    constructor
    · intro hrecorded
      obtain ⟨rfl, rfl⟩ := ofPort_inj.mp (hreads.eq hrecorded)
      exact hends'
    · intro hends
      -- Of one history there is only one end of this length.
      have hsame := (List.suffix_of_suffix_length_le hends hends' (Nat.le_refl 3)).eq_of_length rfl
      obtain ⟨rfl, rfl⟩ : first = first' ∧ second = second' := by simpa [scrTraffic] using hsame
      exact hreads

/-- A slot with a card of version 3 that has four data lines. -/
def wideSlot : Device port UInt32
  | .read .data, w => some (if w == Command.sendScr.word.bits then 0x00803502 else 0, 0)
  | o, w => promptCard [] 0 o w

theorem configuration_in_order_wide :
    Carries 0x0235800000000000 [0x00803502, 0] ∧
      (Scr.ofPort 0x00803502 0).Reads 0x0235800000000000 ∧
      ∃ t d', Acts readScr {} t (.ok ()) d' ∧ scrTraffic 0x00803502 0 <:+ traffic t ∧
        d'.card.scr.Reads 0x0235800000000000 := by
  have hcarries : Carries 0x0235800000000000 [0x00803502, 0] := by decide
  obtain ⟨hreads, -, hrecords⟩ :=
    (configuration_in_order 0x0235800000000000).2 0x00803502 0 hcarries
  obtain ⟨t, r, d', hrun, hends⟩ : ∃ t r d', Acts readScr {} t r d' ∧
      (r.toBool && (scrTraffic 0x00803502 0).isSuffixOf (traffic t)) = true :=
    exists_runs (P := fun t (r : Except Error Unit) _ => r.toBool &&
        (scrTraffic 0x00803502 0).isSuffixOf (traffic t))
      (by decide +kernel : ((Prog.run wideSlot (StateT.run _ _) 0).any _) = true)
  obtain ⟨hok, hsuffix⟩ := Bool.and_eq_true_iff.mp hends
  have hlast := List.isSuffixOf_iff_suffix.mp hsuffix
  cases r with
  | error => nomatch hok
  | ok => exact ⟨hcarries, hreads, t, d', hrun, hlast, (hrecords _ _ _ hrun).mpr hlast⟩

end Peripherals.Sd
