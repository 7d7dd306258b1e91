import Mathlib.Algebra.Group.Nat.Defs
import Mathlib.Data.List.Basic
import Peripherals.Text.Hex

/-! Reading hexadecimal text. A number is read back from its digits where they are enough for it,
and eight digits are enough for a word. -/

namespace Peripherals.Text

variable {width n : Nat} {c : Char}

/-- The lower-case digits, in ascending order. -/
def digits : List Char :=
  ['0', '1', '2', '3', '4', '5', '6', '7', '8', '9', 'a', 'b', 'c', 'd', 'e', 'f']

/-- The number that `text` stands for, if it consists of lower-case digits. -/
def readHex? (text : List Char) : Option Nat :=
  text.foldlM (fun n c => (digits.idxOf? c).map (16 * n + ·)) 0

theorem idxOf?_hexDigit (h : n < 16) : digits.idxOf? (hexDigit n) = some n := by
  have hall : ∀ i : Fin 16, digits.idxOf? (hexDigit i) = some i.val := by decide
  exact hall ⟨n, h⟩

theorem hexDigit_mem (h : n < 16) : hexDigit n ∈ digits := by
  have hall : ∀ i : Fin 16, hexDigit i ∈ digits := by decide
  exact hall ⟨n, h⟩

theorem utf8Size_of_mem_digits (h : c ∈ digits) : c.utf8Size = 1 := by
  have hall : digits.all (·.utf8Size == 1) = true := rfl
  exact beq_iff_eq.mp (List.all_eq_true.mp hall c h)

theorem length_hexChars (width n : Nat) : (hexChars width n).length = width := by
  induction width generalizing n with
  | zero => rfl
  | succ width ih => rw [hexChars, List.length_append, ih, List.length_singleton]

theorem mem_digits_of_mem_hexChars (h : c ∈ hexChars width n) : c ∈ digits := by
  induction width generalizing n with
  | zero => cases h
  | succ width ih =>
    rw [hexChars, List.mem_append, List.mem_singleton] at h
    rcases h with h | rfl
    · exact ih h
    · exact hexDigit_mem (Nat.mod_lt n (by decide))

theorem readHex?_hexChars (h : n < 16 ^ width) : readHex? (hexChars width n) = some n := by
  induction width generalizing n with
  | zero =>
    obtain rfl : n = 0 := Nat.lt_one_iff.mp h
    rfl
  | succ width ih =>
    have hhigh : n / 16 < 16 ^ width := Nat.div_lt_of_lt_mul (by rwa [Nat.mul_comm, ← Nat.pow_succ])
    have hread := ih hhigh
    rw [readHex?] at hread ⊢
    rw [hexChars, List.foldlM_append, hread, Option.bind_eq_bind, Option.bind_some,
      List.foldlM_cons, idxOf?_hexDigit (Nat.mod_lt n (by decide)), Option.map_some,
      Nat.div_add_mod]
    rfl

theorem hexWidth_le (h : n < 16 ^ (width + 1)) : hexWidth n ≤ width + 1 := by
  rw [hexWidth]
  rcases Nat.eq_zero_or_pos n with rfl | hpos
  · simp
  · have hpow : n < 2 ^ (4 * (width + 1)) := by rwa [Nat.pow_mul]
    have hlog := (Nat.log2_lt (by omega)).mpr hpow
    omega

/-- A word is never written in more than eight digits. -/
theorem hexAtLeast_word (w : UInt32) : hexAtLeast 8 w.toNat = hexFixed 8 w.toNat := by
  have hlt : w.toNat < 16 ^ (7 + 1) := w.toNat_lt
  rw [hexAtLeast, Nat.max_eq_left (hexWidth_le hlt)]

end Peripherals.Text
