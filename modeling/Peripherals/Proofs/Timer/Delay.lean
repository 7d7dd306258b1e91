import Peripherals.Proofs.Timer.Counter

/-! Delays on a counter that runs on by itself. The clock shows the lowest 32 bits of the counter,
so the distance of two readings is what has passed between them up to whole turns of the clock. A
delay is never cut short by a turn, and not drawn out by one either as long as the clock is polled
often enough. -/

namespace Peripherals.Clock

variable {ticks : Nat → Nat} {first i n last : Nat} {span us : UInt32}

/-- A clock whose counter runs: the read number `i` finds it after `ticks i` ticks in all. -/
def running (ticks : Nat → Nat) : Device port Nat
  | .now, i => some (UInt32.ofNat (ticks i), i + 1)

theorem toNat_ofNat_sub_ofNat {a b : Nat} (h : a ≤ b) :
    (UInt32.ofNat b - UInt32.ofNat a).toNat = (b - a) % 2 ^ 32 := by
  rw [UInt32.toNat_sub, UInt32.toNat_ofNat', UInt32.toNat_ofNat']
  omega

/-! ### Polling -/

theorem run_awaitTicks_succ (hle : first ≤ ticks i) (patience : Nat) :
    (awaitTicks (UInt32.ofNat first) span (patience + 1)).run (running ticks) i =
      if span.toNat ≤ (ticks i - first) % 2 ^ 32 then some ((), i + 1)
      else (awaitTicks (UInt32.ofNat first) span patience).run (running ticks) (i + 1) := by
  have hread : (awaitTicks (UInt32.ofNat first) span (patience + 1)).run (running ticks) i =
      (if UInt32.ofNat (ticks i) - UInt32.ofNat first < span
        then awaitTicks (UInt32.ofNat first) span patience
        else .pure () : Prog port Unit).run (running ticks) (i + 1) := rfl
  rw [hread]
  simp only [UInt32.lt_iff_toNat_lt, toNat_ofNat_sub_ofNat hle, ← Nat.not_le, ite_not]
  split <;> rfl

/-- Polling ends at the first poll at which the clock shows that enough has passed since `first`. -/
theorem awaitTicks_attempts (hmono : Monotone ticks) (hle : first ≤ ticks i) :
    Attempts (fun k => span.toNat ≤ (ticks (i + k) - first) % 2 ^ 32)
      (fun k => some ((), i + k + 1)) (fun _ => none)
      fun patience k =>
        (awaitTicks (UInt32.ofNat first) span patience).run (running ticks) (i + k) where
  exhausted _ := rfl
  attempt patience k := run_awaitTicks_succ (hle.trans (hmono (Nat.le_add_right i k))) patience

/-! ### Delays -/

/-- How many ticks of one microsecond a delay lasts. -/
def delayTicks (us : UInt32) : Nat := min (us.toNat + 1) (2 ^ 32 - 1)

theorem toNat_ticksFor_one (us : UInt32) : (ticksFor 1 us).toNat = delayTicks us := by
  have hlt := us.toNat_lt
  rw [ticksFor, UInt32.toNat_ofNat', delayTicks, lastWord, show (1 : UInt32).toNat = 1 from rfl,
    Nat.mul_one]
  omega

theorem delayTicks_pos (us : UInt32) : 0 < delayTicks us := by
  unfold delayTicks
  omega

theorem delayTicks_lt (us : UInt32) : delayTicks us < 2 ^ 32 := by
  unfold delayTicks
  omega

theorem run_delayUs_of_ne_zero (hus : us ≠ 0) (rate : UInt32) (patience start : Nat) :
    (delayUs rate patience us).run (running ticks) start =
      (awaitTicks (UInt32.ofNat (ticks start)) (ticksFor rate us) patience).run (running ticks)
        (start + 1) := by
  rw [delayUs, if_neg hus]
  rfl

/-- A delay is not cut short: a turn of the clock only makes it look shorter than it is. -/
theorem delayUs_returns (hmono : Monotone ticks) (hus : us ≠ 0) {patience start : Nat}
    (h : (delayUs 1 patience us).run (running ticks) start = some ((), last)) :
    ∃ n, 1 ≤ n ∧ last = start + n + 1 ∧ ticks start + delayTicks us ≤ ticks (start + n) := by
  rw [run_delayUs_of_ne_zero hus] at h
  obtain ⟨-, hnone⟩ | ⟨n, -, hshown, -, hsome⟩ :=
    (awaitTicks_attempts hmono (hmono (Nat.le_add_right start 1))).cases patience
  · nomatch h.symm.trans hnone
  · obtain ⟨-, rfl⟩ := Prod.mk.inj (Option.some.inj (h.symm.trans hsome))
    rw [toNat_ticksFor_one, show start + 1 + n = start + (n + 1) by omega] at hshown
    have hpassed : delayTicks us ≤ ticks (start + (n + 1)) - ticks start :=
      hshown.trans (Nat.mod_le _ _)
    have hpos := delayTicks_pos us
    exact ⟨n + 1, Nat.le_add_left 1 n, by omega, by omega⟩

/-- A delay ends at the first poll at which it has lasted long enough, unless the clock has made a
whole turn by then. -/
theorem run_delayUs (hmono : Monotone ticks) (hus : us ≠ 0) {start : Nat}
    (hfar : ticks start + delayTicks us ≤ ticks (start + n))
    (hbefore : ∀ k < n, ticks (start + k) < ticks start + delayTicks us)
    (hturn : ticks (start + n) < ticks start + 2 ^ 32) (patience : Nat) :
    (delayUs 1 patience us).run (running ticks) start =
      if n ≤ patience then some ((), start + n + 1) else none := by
  have hpos := delayTicks_pos us
  have hlt := delayTicks_lt us
  obtain ⟨n, rfl⟩ : ∃ m, n = m + 1 := by
    refine Nat.exists_eq_add_one_of_ne_zero ?_
    rintro rfl
    rw [Nat.add_zero] at hfar
    omega
  have hpoll (k : Nat) : start + 1 + k = start + (k + 1) := by omega
  have hshown : (ticksFor 1 us).toNat ≤ (ticks (start + 1 + n) - ticks start) % 2 ^ 32 := by
    rw [toNat_ticksFor_one, hpoll, Nat.mod_eq_of_lt (by omega)]
    omega
  have hunshown : ∀ k < n,
      ¬(ticksFor 1 us).toNat ≤ (ticks (start + 1 + k) - ticks start) % 2 ^ 32 := by
    intro k hk
    have hearly := hbefore (k + 1) (by omega)
    rw [toNat_ticksFor_one, hpoll, Nat.mod_eq_of_lt (by omega)]
    omega
  have hended := (awaitTicks_attempts hmono (hmono (Nat.le_add_right start 1))).eq_of_first
    hshown hunshown patience
  rw [hpoll n] at hended
  exact (run_delayUs_of_ne_zero hus 1 patience start).trans hended

/-- Where the clock is polled often enough, it does not make a whole turn unseen. -/
theorem lt_turn_of_polled {start : Nat}
    (hpolled : ∀ k < n, ticks (start + k + 1) ≤ ticks (start + k) + (2 ^ 32 - delayTicks us))
    (hbefore : ∀ k < n, ticks (start + k) < ticks start + delayTicks us) :
    ticks (start + n) < ticks start + 2 ^ 32 := by
  cases n with
  | zero =>
    rw [Nat.add_zero]
    omega
  | succ n =>
    have hlast := hpolled n (Nat.lt_succ_self n)
    have hearly := hbefore n (Nat.lt_succ_self n)
    have hlt := delayTicks_lt us
    rw [← Nat.add_assoc]
    omega

end Peripherals.Clock

namespace Peripherals.Timer

open Clock (delayTicks)

variable {ticks : Nat → Nat}

/-- A delay of the timer is a delay on the low half of its counter. -/
theorem run_delayUs (ticks : Nat → Nat) (patience : Nat) (us : UInt32) (i : Nat) :
    (delayUs patience us).run (running ticks) i =
      (Clock.delayUs ticksPerUs patience us).run (Clock.running ticks) i := by
  have hanswers : (fun o => (asClock o).run (running ticks)) = Clock.running ticks := by
    funext o i
    cases o
    rfl
  rw [delayUs, Prog.run_translate, hanswers]

/-- A delay on a clock of one tick a microsecond lasts for one tick more than its microseconds, or
for the largest distance that such a clock can show. It never ends before so many ticks have passed
since the first reading. Where the counter moves on by no more than the rest of a turn from one
reading to the next, it ends at the very first poll by which they have passed, wherever the clock
wraps around. A delay of nothing does not read the clock. The delays of the timer are delays on such
a clock. -/
theorem delayUs_lasts (hmono : Monotone ticks) (us : UInt32) (start patience : Nat) :
    (∀ rate, Clock.delayUs rate patience 0 = .pure ()) ∧
    (us ≠ 0 →
      (∀ last, (Clock.delayUs ticksPerUs patience us).run (Clock.running ticks) start =
          some ((), last) →
        ∃ n, 1 ≤ n ∧ last = start + n + 1 ∧ ticks start + delayTicks us ≤ ticks (start + n)) ∧
      ∀ n, (∀ k < n, ticks (start + k + 1) ≤ ticks (start + k) + (2 ^ 32 - delayTicks us)) →
        ticks start + delayTicks us ≤ ticks (start + n) →
        (∀ k < n, ticks (start + k) < ticks start + delayTicks us) →
        (Clock.delayUs ticksPerUs patience us).run (Clock.running ticks) start =
          if n ≤ patience then some ((), start + n + 1) else none) ∧
    (delayUs patience us).run (running ticks) start =
      (Clock.delayUs ticksPerUs patience us).run (Clock.running ticks) start := by
  refine ⟨fun rate => rfl, fun hus => ⟨fun last h => Clock.delayUs_returns hmono hus h, ?_⟩,
    run_delayUs ticks patience us start⟩
  intro n hpolled hfar hbefore
  exact Clock.run_delayUs hmono hus hfar hbefore (Clock.lt_turn_of_polled hpolled hbefore) patience

/-- Ten microseconds across the wrap of the clock. -/
theorem delayUs_lasts_wrapping :
    (delayUs 11 10).run (running fun i => 0xFFFFFFFC + i) 0 = some ((), 12) := by
  have hmono : Monotone fun i => 0xFFFFFFFC + i := fun i j hij => by
    show 0xFFFFFFFC + i ≤ 0xFFFFFFFC + j
    omega
  obtain ⟨-, hlasts, htimer⟩ := delayUs_lasts hmono 10 0 11
  have hspan : delayTicks 10 = 11 := by decide
  rw [htimer, (hlasts (by decide)).2 11]
  · rfl
  · intro k _
    rw [hspan]
    omega
  · decide
  · intro k hk
    rw [hspan]
    omega

end Peripherals.Timer
