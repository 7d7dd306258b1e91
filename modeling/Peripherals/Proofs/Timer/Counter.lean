import Mathlib.Order.Monotone.Basic
import Peripherals.Proofs.Attempts
import Peripherals.Proofs.Run
import Peripherals.Proofs.Word
import Peripherals.Timer.SystemTimer

/-! The counter of the timer while it runs. It is 64 bits wide and read in two halves, and it moves
on between any two reads, so that a program sees a sequence of values that never falls. A reading of
the whole counter is a value that the counter had, whenever its low half wraps around. -/

namespace Peripherals.Timer

variable {ticks : Nat → Nat} {start n : Nat}

/-- The timer while its counter runs: the read number `i` finds it at `ticks i`. -/
def running (ticks : Nat → Nat) : Device port Nat
  | .read .counterLow, i => some (UInt32.ofNat (ticks i), i + 1)
  | .read .counterHigh, i => some (UInt32.ofNat (ticks i / 2 ^ 32), i + 1)
  | _, _ => none

/-- The round of reads that starts with the read number `i` finds the same high half before and
after the low half. -/
def Settled (ticks : Nat → Nat) (i : Nat) : Prop := ticks (i + 2) / 2 ^ 32 = ticks i / 2 ^ 32

instance : DecidablePred (Settled ticks) := fun _ => inferInstanceAs (Decidable (_ = _))

/-! ### One round -/

theorem high_inj {a b : Nat} (ha : a < 2 ^ 64) (hb : b < 2 ^ 64) :
    UInt32.ofNat (a / 2 ^ 32) = UInt32.ofNat (b / 2 ^ 32) ↔ a / 2 ^ 32 = b / 2 ^ 32 := by
  rw [← UInt32.toNat_inj, UInt32.toNat_ofNat', UInt32.toNat_ofNat']
  omega

theorem join_halves {a b : Nat} (hb : b < 2 ^ 64) (hhigh : a / 2 ^ 32 = b / 2 ^ 32) :
    Word.join (UInt32.ofNat (a / 2 ^ 32)) (UInt32.ofNat b) = UInt64.ofNat b := by
  rw [← UInt64.toNat_inj, Word.toNat_join, UInt32.toNat_ofNat', UInt32.toNat_ofNat',
    UInt64.toNat_ofNat']
  omega

/-- A round ends the loop with the value at its low half where it is settled, and changes nothing
otherwise. -/
theorem run_counter_succ (hmono : Monotone ticks) (hbound : ∀ i, ticks i < 2 ^ 64)
    (patience i : Nat) :
    (counter (patience + 1)).run (running ticks) i =
      if Settled ticks i then some (UInt64.ofNat (ticks (i + 1)), i + 3)
      else (counter patience).run (running ticks) (i + 3) := by
  have hreads : (counter (patience + 1)).run (running ticks) i =
      (if UInt32.ofNat (ticks (i + 2) / 2 ^ 32) = UInt32.ofNat (ticks i / 2 ^ 32)
        then .pure (Word.join (UInt32.ofNat (ticks i / 2 ^ 32)) (UInt32.ofNat (ticks (i + 1))))
        else counter patience : Prog port UInt64).run (running ticks) (i + 3) := rfl
  rw [hreads]
  by_cases hsettled : Settled ticks i
  · -- The low half is read between the two reads of the high half, so it belongs to them.
    have hlow : ticks i / 2 ^ 32 ≤ ticks (i + 1) / 2 ^ 32 :=
      Nat.div_le_div_right (hmono (Nat.le_succ i))
    have hagain : ticks (i + 1) / 2 ^ 32 ≤ ticks (i + 2) / 2 ^ 32 :=
      Nat.div_le_div_right (hmono (Nat.le_succ (i + 1)))
    have hsame : ticks i / 2 ^ 32 = ticks (i + 1) / 2 ^ 32 :=
      le_antisymm hlow (hagain.trans hsettled.le)
    rw [if_pos hsettled, if_pos ((high_inj (hbound _) (hbound _)).mpr hsettled),
      join_halves (hbound _) hsame]
    rfl
  · rw [if_neg hsettled, if_neg (mt (high_inj (hbound _) (hbound _)).mp hsettled)]

/-! ### The loop -/

/-- Every round that is not settled has seen the high half rise. -/
theorem le_high_of_unsettled (hmono : Monotone ticks)
    (hbefore : ∀ k < n, ¬Settled ticks (start + 3 * k)) : n ≤ ticks (start + 3 * n) / 2 ^ 32 := by
  induction n with
  | zero => exact Nat.zero_le _
  | succ n ih =>
    have hn : n ≤ ticks (start + 3 * n) / 2 ^ 32 := ih fun k hk => hbefore k (by omega)
    have hwithin : ticks (start + 3 * n) / 2 ^ 32 ≤ ticks (start + 3 * n + 2) / 2 ^ 32 :=
      Nat.div_le_div_right (hmono (by omega))
    have hrises : ticks (start + 3 * n + 2) / 2 ^ 32 ≠ ticks (start + 3 * n) / 2 ^ 32 :=
      hbefore n (Nat.lt_succ_self n)
    have hnext : ticks (start + 3 * n + 2) / 2 ^ 32 ≤ ticks (start + 3 * (n + 1)) / 2 ^ 32 :=
      Nat.div_le_div_right (hmono (by omega))
    omega

/-- The high half can rise only so often, so some round is settled. -/
theorem exists_first_settled (hmono : Monotone ticks) (hbound : ∀ i, ticks i < 2 ^ 64)
    (start : Nat) : ∃ n < 2 ^ 32, Settled ticks (start + 3 * n) ∧
      ∀ k < n, ¬Settled ticks (start + 3 * k) := by
  have hexists : ∃ n, Settled ticks (start + 3 * n) := by
    by_contra hnever
    have hhigh : 2 ^ 32 ≤ ticks (start + 3 * 2 ^ 32) / 2 ^ 32 :=
      le_high_of_unsettled hmono fun k _ hk => hnever ⟨k, hk⟩
    have hlt := hbound (start + 3 * 2 ^ 32)
    omega
  have hbefore : ∀ k < Nat.find hexists, ¬Settled ticks (start + 3 * k) :=
    fun k hk => Nat.find_min hexists hk
  have hhigh := le_high_of_unsettled hmono hbefore
  have hlt := hbound (start + 3 * Nat.find hexists)
  exact ⟨Nat.find hexists, by omega, Nat.find_spec hexists, hbefore⟩

theorem counter_attempts (hmono : Monotone ticks) (hbound : ∀ i, ticks i < 2 ^ 64) (start : Nat) :
    Attempts (fun k => Settled ticks (start + 3 * k))
      (fun k => some (UInt64.ofNat (ticks (start + 3 * k + 1)), start + 3 * k + 3))
      (fun _ => none)
      fun patience k => (counter patience).run (running ticks) (start + 3 * k) where
  exhausted _ := rfl
  attempt patience k := run_counter_succ hmono hbound patience (start + 3 * k)

/-- A reading of the whole counter is never torn. The loop always ends, with the first round in
which the high half is the same at both reads, and gives the counter as it was when the low half was
read in that round. -/
theorem counter_untorn (hmono : Monotone ticks) (hbound : ∀ i, ticks i < 2 ^ 64) (start : Nat) :
    ∃ rounds < 2 ^ 32, ∃ value : UInt64,
      (∀ k < rounds, ¬Settled ticks (start + 3 * k)) ∧ Settled ticks (start + 3 * rounds) ∧
      value.toNat = ticks (start + 3 * rounds + 1) ∧
      ticks (start + 3 * rounds) ≤ value.toNat ∧
      value.toNat ≤ ticks (start + 3 * rounds + 2) ∧
      ∀ patience, (counter patience).run (running ticks) start =
        if rounds < patience then some (value, start + 3 * rounds + 3) else none := by
  obtain ⟨rounds, hlt, hsettled, hbefore⟩ := exists_first_settled hmono hbound start
  have hvalue : (UInt64.ofNat (ticks (start + 3 * rounds + 1))).toNat =
      ticks (start + 3 * rounds + 1) := UInt64.toNat_ofNat_of_lt' (hbound _)
  refine ⟨rounds, hlt, _, hbefore, hsettled, hvalue, ?_, ?_,
    (counter_attempts hmono hbound start).eq_of_first hsettled hbefore⟩
  · rw [hvalue]
    exact hmono (Nat.le_succ _)
  · rw [hvalue]
    exact hmono (Nat.le_succ _)

/-- The low half wraps around within the first round. -/
theorem counter_untorn_wrapping :
    (counter 2).run (running fun i => 0xFFFFFFFE + min i 5) 0 = some (0x100000002, 6) := by
  have hmono : Monotone fun i => 0xFFFFFFFE + min i 5 := fun i j hij => by
    show 0xFFFFFFFE + min i 5 ≤ 0xFFFFFFFE + min j 5
    omega
  have hbound (i : Nat) : 0xFFFFFFFE + min i 5 < 2 ^ 64 := by omega
  obtain ⟨rounds, -, value, hbefore, hsettled, hvalue, -, -, hrun⟩ :=
    counter_untorn hmono hbound 0
  have hfirst : rounds ≠ 0 := by
    rintro rfl
    exact absurd hsettled (by decide)
  have hsecond : ¬1 < rounds := fun h => hbefore 1 h (by decide)
  obtain rfl : rounds = 1 := by omega
  have hread : value = 0x100000002 := UInt64.toNat_inj.mp hvalue
  rw [hrun, if_pos (by decide), hread]

end Peripherals.Timer
