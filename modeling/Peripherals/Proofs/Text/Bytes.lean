import Mathlib.Data.List.TakeWhile
import Peripherals.Text.Bounded

/-! The bytes of text. A character is one byte or more, and the zero byte stands for the zero
character alone, so text without that character ends at the first zero byte after it. -/

namespace Peripherals.Text

variable {s : String} {c : Char} {capacity : Nat}

theorem toList_loop (bs : ByteArray) (i : Nat) (before : List UInt8) :
    ByteArray.toList.loop bs i before = before.reverse ++ bs.data.toList.drop i := by
  induction hleft : bs.size - i generalizing i before with
  | zero =>
    have hend : ¬i < bs.size := by omega
    rw [ByteArray.toList.loop, if_neg hend, List.drop_of_length_le (Nat.le_of_not_lt hend),
      List.append_nil]
  | succ left ih =>
    have hlt : i < bs.size := by omega
    have hbyte : bs.get! i = bs.data.toList[i] := getElem!_pos bs.data i hlt
    rw [ByteArray.toList.loop, if_pos hlt, ih _ _ (by omega), List.reverse_cons,
      List.append_assoc, hbyte, List.singleton_append, ← List.drop_eq_getElem_cons]

theorem toList_eq_data (bs : ByteArray) : bs.toList = bs.data.toList :=
  toList_loop bs 0 []

theorem toUTF8_eq_flatMap (s : String) :
    s.toUTF8.toList = s.toList.flatMap String.utf8EncodeChar := by
  rw [toList_eq_data, String.toUTF8_eq_toByteArray, ← String.utf8Encode_toList, List.utf8Encode,
    List.data_toByteArray]

theorem toUTF8_append (s s' : String) :
    (s ++ s').toUTF8.toList = s.toUTF8.toList ++ s'.toUTF8.toList := by
  simp only [toUTF8_eq_flatMap, String.toList_append, List.flatMap_append]

theorem toUTF8_join (pieces : List String) :
    (String.join pieces).toUTF8.toList = pieces.flatMap fun s => s.toUTF8.toList := by
  simp only [toUTF8_eq_flatMap, String.toList_join, List.flatMap_assoc]

theorem length_toUTF8 (s : String) : s.toUTF8.toList.length = s.utf8ByteSize := by
  rw [toList_eq_data]
  rfl

theorem utf8ByteSize_of_ascii (h : ∀ c ∈ s.toList, c.utf8Size = 1) : s.utf8ByteSize = s.length := by
  have hsizes : s.toList.map (fun c => (String.utf8EncodeChar c).length) =
      s.toList.map fun _ => 1 :=
    List.map_congr_left fun c hc => (String.length_utf8EncodeChar c).trans (h c hc)
  rw [← length_toUTF8, toUTF8_eq_flatMap, List.length_flatMap, hsizes, List.map_const',
    List.sum_replicate_nat, Nat.mul_one, String.length_toList]

theorem fromUTF8?_toUTF8 (s : String) : String.fromUTF8? ⟨s.toUTF8.toList.toArray⟩ = some s := by
  have hbytes : (⟨s.toUTF8.toList.toArray⟩ : ByteArray) = s.toByteArray := by
    rw [toList_eq_data, Array.toArray_toList]
    rfl
  rw [hbytes, String.fromUTF8?, dif_pos s.isValidUTF8]
  rfl

theorem toUTF8_inj {s s' : String} : s.toUTF8.toList = s'.toUTF8.toList ↔ s = s' := by
  refine ⟨fun h => ?_, fun h => h ▸ rfl⟩
  have hread := fromUTF8?_toUTF8 s
  rw [h, fromUTF8?_toUTF8] at hread
  exact (Option.some.inj hread).symm

/-- Past the first 128 characters, every byte of a character is at least 128. -/
theorem zero_mem_utf8EncodeChar : (0 : UInt8) ∈ String.utf8EncodeChar c ↔ c = '\x00' := by
  have hchar : c = '\x00' ↔ c.val.toNat = 0 := by
    rw [← Char.toNat_inj]
    rfl
  have hbyte (n : Nat) : 0 = UInt8.ofNat n ↔ n % 256 = 0 := by
    rw [← UInt8.toNat_inj, UInt8.toNat_ofNat', eq_comm]
    rfl
  rw [hchar, String.utf8EncodeChar]
  split_ifs with hone htwo hthree
  all_goals
    simp only [List.mem_cons, List.not_mem_nil, or_false, hbyte]
    omega

theorem zero_mem_toUTF8 : (0 : UInt8) ∈ s.toUTF8.toList ↔ '\x00' ∈ s.toList := by
  simp only [toUTF8_eq_flatMap, List.mem_flatMap, zero_mem_utf8EncodeChar, exists_eq_right]

/-- Bytes with a zero byte after them end at the first zero byte if there is none among them. -/
theorem takeWhile_terminated (bytes : List UInt8) :
    (bytes ++ [0]).takeWhile (· != 0) = bytes ↔ 0 ∉ bytes := by
  constructor
  · intro h hzero
    rw [← h] at hzero
    exact absurd (List.mem_takeWhile_imp hzero) (by decide)
  · intro h
    rw [List.takeWhile_append_of_pos fun b hb => bne_iff_ne.mpr (ne_of_mem_of_not_mem hb h)]
    simp

/-! ### Text within a capacity -/

theorem foldlM_push? {text : String} (pieces : List String) (htext : text.utf8ByteSize ≤ capacity) :
    pieces.foldlM (push? capacity) text =
      if (text ++ String.join pieces).utf8ByteSize ≤ capacity then
        some (text ++ String.join pieces)
      else none := by
  induction pieces generalizing text with
  | nil => rw [List.foldlM_nil, String.join_nil, String.append_empty, if_pos htext]; rfl
  | cons piece pieces ih =>
    have hsize := String.utf8ByteSize_append (s := text ++ piece) (t := String.join pieces)
    rw [List.foldlM_cons, push?, ← String.utf8ByteSize_append, String.join_cons,
      ← String.append_assoc]
    by_cases hpiece : (text ++ piece).utf8ByteSize ≤ capacity
    · rw [if_pos hpiece]
      exact ih hpiece
    · rw [if_neg hpiece, if_neg (by omega)]
      rfl

theorem concat?_eq (capacity : Nat) (pieces : List String) :
    concat? capacity pieces =
      if (String.join pieces).utf8ByteSize ≤ capacity then some (String.join pieces) else none := by
  rw [concat?, foldlM_push? pieces (Nat.zero_le _), String.empty_append]

end Peripherals.Text
