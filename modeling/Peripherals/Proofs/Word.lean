import Mathlib.Algebra.Group.Nat.Defs
import Peripherals.Word

/-! Words, their bits and the bytes under them: reading words out of bytes and storing words over
bytes are inverse to each other, byte by byte. A joined word is its two halves as digits. -/

namespace Peripherals.Word

theorem and_or (m a b : UInt32) : m &&& (a ||| b) = m &&& a ||| m &&& b :=
  UInt32.toBitVec_inj.mp BitVec.and_or_distrib_left

theorem or_and (a b m : UInt32) : (a ||| b) &&& m = a &&& m ||| b &&& m :=
  UInt32.toBitVec_inj.mp BitVec.and_or_distrib_right

theorem or_and_self (m n : UInt32) : (m ||| n) &&& m = m := by
  apply UInt32.toBitVec_inj.mp
  ext i
  simpa using Or.inl

/-- A word of four bytes has these bytes, the least significant first. -/
theorem byte_ofBytes (b0 b1 b2 b3 : UInt8) {k : Nat} (hk : k < 4) :
    byte (ofBytes b0 b1 b2 b3) k = [b0, b1, b2, b3][k] := by
  rw [← UInt8.toBitVec_inj]
  apply BitVec.eq_of_getElem_eq
  intro i hi
  obtain rfl | rfl | rfl | rfl : k = 0 ∨ k = 1 ∨ k = 2 ∨ k = 3 := by omega
  all_goals simp [byte, ofBytes, ← BitVec.getLsbD_eq_getElem]
  all_goals grind

theorem getLsbD_byte (w : UInt32) {k : Nat} (hk : k < 4) (i : Nat) :
    (byte w k).toBitVec.getLsbD i = (decide (i < 8) && w.toBitVec.getLsbD (8 * k + i)) := by
  have hplace : 8 * k % 32 = 8 * k := Nat.mod_eq_of_lt (by omega)
  simp [byte, hplace]

/-- A word is that of its bytes. -/
theorem ofBytes_byte (w : UInt32) : ofBytes (byte w 0) (byte w 1) (byte w 2) (byte w 3) = w := by
  rw [← UInt32.toBitVec_inj]
  apply BitVec.eq_of_getElem_eq
  intro i hi
  simp [ofBytes, ← BitVec.getLsbD_eq_getElem, getLsbD_byte]
  grind

theorem bytes_ofBytes (b0 b1 b2 b3 : UInt8) : bytes (ofBytes b0 b1 b2 b3) = [b0, b1, b2, b3] := by
  simp [bytes, byte_ofBytes]

/-- The words of an array of bytes have these bytes. -/
theorem byte_arrayOfBytes {count : Nat} (bs : Array UInt8) {j : Nat} (hj : j < 4 * count) :
    (arrayOfBytes count bs)[j / 4]?.map (byte · (j % 4)) = some (bs[j]?.getD 0) := by
  have hword : j / 4 < count := by omega
  have hplace : 4 * (j / 4) + j % 4 = j := Nat.div_add_mod j 4
  rw [arrayOfBytes, Array.getElem?_ofFn, dif_pos hword, Option.map_some,
    byte_ofBytes _ _ _ _ (Nat.mod_lt j (by decide))]
  obtain hk | hk | hk | hk : j % 4 = 0 ∨ j % 4 = 1 ∨ j % 4 = 2 ∨ j % 4 = 3 := by omega
  all_goals
    simp only [hk, Nat.add_zero] at hplace
    simp [hk, hplace]

/-- Two words are read back from their bytes. -/
theorem arrayOfBytes_bytes (a b : UInt32) :
    arrayOfBytes 2 (bytes a ++ bytes b).toArray = #[a, b] := by
  have hwords : arrayOfBytes 2 (bytes a ++ bytes b).toArray =
      #[ofBytes (byte a 0) (byte a 1) (byte a 2) (byte a 3),
        ofBytes (byte b 0) (byte b 1) (byte b 2) (byte b 3)] := rfl
  rw [hwords, ofBytes_byte, ofBytes_byte]

theorem toNat_one_shiftLeft {n : Nat} (hn : n < 32) :
    ((1 : UInt32) <<< UInt32.ofNat n).toNat = 2 ^ n := by
  have hshift : (UInt32.ofNat n).toNat % 32 = n := by
    rw [UInt32.toNat_ofNat']
    omega
  have hlt : 2 ^ n < 2 ^ 32 := Nat.pow_lt_pow_right (by decide) hn
  rw [UInt32.toNat_shiftLeft, hshift, UInt32.toNat_one, Nat.one_shiftLeft, Nat.mod_eq_of_lt hlt]

theorem toNat_join (high low : UInt32) :
    (join high low).toNat = high.toNat * 2 ^ 32 + low.toNat := by
  have hhigh := high.toNat_lt
  have hshift : (high.toUInt64 <<< 32).toNat = high.toNat <<< 32 := by
    rw [UInt64.toNat_shiftLeft]
    show high.toNat <<< 32 % 2 ^ 64 = _
    rw [Nat.shiftLeft_eq]
    omega
  rw [join, UInt64.toNat_or, hshift]
  show high.toNat <<< 32 ||| low.toNat = _
  rw [← Nat.shiftLeft_add_eq_or_of_lt low.toNat_lt, Nat.shiftLeft_eq]

end Peripherals.Word
