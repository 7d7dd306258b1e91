import Mathlib.Data.Nat.Bitwise
import Peripherals.Proofs.Word
import Peripherals.Sd.Card
import Peripherals.Sd.Command

/-! The fields of the words that pass between driver, controller and card. Each is told by a few
bits of its word. -/

namespace Peripherals.Sd

section Bits

variable {word m n a b bits : UInt32}

theorem and_of_and_or (hdisjoint : n &&& m = 0) (ha : a &&& m = a) (hb : b &&& n = b)
    (h : word &&& (m ||| n) = a ||| b) : word &&& m = a := by
  have hnone : b &&& m = 0 := by rw [← hb, UInt32.and_assoc, hdisjoint, UInt32.and_zero]
  rw [← Word.or_and_self m n, ← UInt32.and_assoc, h, Word.or_and, ha, hnone, UInt32.or_zero]

theorem and_or_eq_iff (hdisjoint : n &&& m = 0) (ha : a &&& m = a) (hb : b &&& n = b) :
    word &&& (m ||| n) = a ||| b ↔ word &&& m = a ∧ word &&& n = b := by
  constructor
  · intro h
    refine ⟨and_of_and_or hdisjoint ha hb h, ?_⟩
    rw [UInt32.or_comm m, UInt32.or_comm a] at h
    exact and_of_and_or (by rwa [UInt32.and_comm]) hb ha h
  · rintro ⟨rfl, rfl⟩
    exact Word.and_or word m n

/-- Of a single bit, a word has nothing or the whole. -/
theorem and_bit {i : Nat} (hbits : bits.toNat = 2 ^ i) :
    word &&& bits = 0 ∨ word &&& bits = bits := by
  have hand : (word &&& bits).toNat = (word.toNat.testBit i).toNat * 2 ^ i := by
    rw [UInt32.toNat_and, hbits, Nat.and_two_pow]
  cases hbit : word.toNat.testBit i with
  | false =>
    refine .inl (UInt32.toNat_inj.mp ?_)
    rw [hand, hbit]
    simp
  | true =>
    refine .inr (UInt32.toNat_inj.mp ?_)
    rw [hand, hbit, hbits]
    simp

/-- Whether a single bit is set. -/
theorem hasBits_bit {i : Nat} (hbits : bits.toNat = 2 ^ i) :
    hasBits word bits = true ↔ word &&& bits = bits := by
  have hne : bits ≠ 0 := by
    rintro rfl
    exact Nat.two_pow_pos i |>.ne hbits
  rw [hasBits, bne_iff_ne]
  have hcases : word &&& bits = 0 ∨ word &&& bits = bits := and_bit hbits
  rcases hcases with h | h
  · exact iff_of_false (fun hsome => hsome h) fun hall => hne (hall.symm.trans h)
  · exact iff_of_true (h.trans_ne hne) h

theorem hasBits_eq_false : hasBits word bits = false ↔ word &&& bits = 0 := by
  rw [hasBits, bne_eq_false_iff_eq]

theorem hasBits_and (w m b : UInt32) : hasBits (w &&& m) b = hasBits w (m &&& b) := by
  rw [hasBits, hasBits, UInt32.and_assoc]

theorem hasBits_or (w m b : UInt32) : hasBits (w ||| m) b = (hasBits w b || hasBits m b) := by
  simp only [hasBits, Word.or_and, bne, UInt32.or_eq_zero_iff, Bool.beq_eq_decide_eq]
  by_cases hw : w &&& b = 0 <;> by_cases hm : m &&& b = 0 <;> simp [hw, hm]

theorem hasBits_mask_or (w m n : UInt32) :
    hasBits w (m ||| n) = (hasBits w m || hasBits w n) := by
  rw [hasBits, UInt32.and_comm, ← hasBits, hasBits_or, hasBits, hasBits, UInt32.and_comm m,
    UInt32.and_comm n, ← hasBits, ← hasBits]

end Bits

/-! ### What a card tells -/

/-- A state that is known has the code that it is known by. -/
theorem CardState.ofCode_eq_iff {code : Nat} {state : CardState} (hknown : state ≠ .unknown) :
    CardState.ofCode code = state ↔ code = state.code := by
  unfold CardState.ofCode
  split
  all_goals cases state <;> simp_all [CardState.code]

namespace CardStatus

variable (s : CardStatus)

theorem state_eq_iff {state : CardState} (hknown : state ≠ .unknown) :
    s.state = state ↔ ((s.raw >>> 9) &&& 0xF).toNat = state.code :=
  CardState.ofCode_eq_iff hknown

theorem state_eq_standby : s.state = .standby ↔ (s.raw >>> 9) &&& 0xF = 3 := by
  rw [← UInt32.toNat_inj]
  exact s.state_eq_iff (by decide)

theorem state_eq_transfer : s.state = .transfer ↔ (s.raw >>> 9) &&& 0xF = 4 := by
  rw [← UInt32.toNat_inj]
  exact s.state_eq_iff (by decide)

end CardStatus

/-- The bits 15, 14 and 13 tell of errors, and bit 8 that the card is ready. -/
theorem AddressResponse.isUsable_iff (r : AddressResponse) :
    r.isUsable = true ↔ r.raw &&& 0xE100 = 0x0100 := by
  have herrors : (r.crcError || r.illegalCommand || r.generalError) = hasBits r.raw 0xE000 := by
    rw [AddressResponse.crcError, AddressResponse.illegalCommand, AddressResponse.generalError,
      ← hasBits_mask_or, ← hasBits_mask_or]
    rfl
  have hready : r.readyForData = true ↔ r.raw &&& 0x0100 = 0x0100 := hasBits_bit (i := 8) rfl
  have hsplit : r.raw &&& (0xE000 ||| 0x0100) = 0 ||| 0x0100 ↔
      r.raw &&& 0xE000 = 0 ∧ r.raw &&& 0x0100 = 0x0100 := and_or_eq_iff rfl rfl rfl
  rw [isUsable, ← Bool.not_or, ← Bool.not_or, herrors, Bool.and_eq_true, Bool.not_eq_true',
    hasBits_eq_false, hready]
  exact hsplit.symm

/-! ### What a command word asks for -/

/-- The bits 16 and 17 of a command word tell the shape of the response. -/
theorem CommandWord.response_iff (w : CommandWord) :
    (w.response = .none ↔ (w.bits >>> 16) &&& 0x3 = 0) ∧
      (w.response = .long ↔ (w.bits >>> 16) &&& 0x3 = 1) ∧
      (w.response = .short ↔ (w.bits >>> 16) &&& 0x3 = 2) ∧
      (w.response = .shortBusy ↔ (w.bits >>> 16) &&& 0x3 = 3) := by
  have hfield : (w.bits >>> 16) &&& (0x3 : UInt32) =
      (w.bits &&& CommandField.responseMask) >>> 16 := by
    rw [UInt32.shiftRight_and]
    rfl
  have hbits : w.bits &&& CommandField.responseMask =
      (w.bits &&& 0x00010000) ||| (w.bits &&& 0x00020000) := by
    rw [← Word.and_or]
    rfl
  have hlong : w.bits &&& 0x00010000 = 0 ∨ w.bits &&& 0x00010000 = 0x00010000 :=
    and_bit (i := 16) rfl
  have hshort : w.bits &&& 0x00020000 = 0 ∨ w.bits &&& 0x00020000 = 0x00020000 :=
    and_bit (i := 17) rfl
  rw [hfield, response, hbits]
  rcases hlong with hlong | hlong <;> rcases hshort with hshort | hshort <;> rw [hlong, hshort] <;>
    decide

end Peripherals.Sd
