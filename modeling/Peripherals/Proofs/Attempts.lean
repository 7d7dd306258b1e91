import Mathlib.Data.Nat.Find

/-! Loops that make one attempt after another, up to a bound, and stop with the first that
succeeds. -/

namespace Peripherals

variable {β : Type} {succeeds : Nat → Prop} [DecidablePred succeeds] {done givenUp : Nat → β}
  {loop : Nat → Nat → β} {k n bound : Nat}

/-- `loop n k` is what comes of a loop that may make `n` attempts from the attempt number `k` on. It
comes to `done k` where this attempt succeeds, and to `givenUp k` where it may not be made. -/
structure Attempts (succeeds : Nat → Prop) [DecidablePred succeeds] (done givenUp : Nat → β)
    (loop : Nat → Nat → β) : Prop where
  exhausted : ∀ k, loop 0 k = givenUp k
  attempt : ∀ n k, loop (n + 1) k = if succeeds k then done k else loop n (k + 1)

namespace Attempts

variable (h : Attempts succeeds done givenUp loop)

include h

theorem skip (hfails : ∀ j < n, ¬succeeds (k + j)) : loop (n + bound) k = loop bound (k + n) := by
  induction n generalizing k with
  | zero => rw [Nat.zero_add, Nat.add_zero]
  | succ n ih =>
    have hfirst : ¬succeeds k := hfails 0 (Nat.succ_pos n)
    have hshift (j : Nat) : k + 1 + j = k + (j + 1) := by omega
    rw [Nat.add_right_comm, h.attempt, if_neg hfirst, ih, hshift]
    intro j hj
    rw [hshift]
    exact hfails (j + 1) (Nat.succ_lt_succ hj)

theorem eq_givenUp (hfails : ∀ j < bound, ¬succeeds j) : loop bound 0 = givenUp bound := by
  have hskip : loop (bound + 0) 0 = loop 0 (0 + bound) :=
    h.skip fun j hj => by
      rw [Nat.zero_add]
      exact hfails j hj
  rw [Nat.add_zero, Nat.zero_add] at hskip
  rw [hskip, h.exhausted]

/-- The first attempt that succeeds ends the loop, where so many attempts may be made. -/
theorem eq_of_first (hfirst : succeeds n) (hfails : ∀ j < n, ¬succeeds j) (bound : Nat) :
    loop bound 0 = if n < bound then done n else givenUp bound := by
  split
  case isTrue hlt =>
    obtain ⟨more, rfl⟩ := Nat.exists_eq_add_of_lt hlt
    have hskip : loop (n + (more + 1)) 0 = loop (more + 1) (0 + n) :=
      h.skip fun j hj => by
        rw [Nat.zero_add]
        exact hfails j hj
    rw [Nat.add_assoc, hskip, Nat.zero_add, h.attempt, if_pos hfirst]
  case isFalse hle =>
    exact h.eq_givenUp fun j hj => hfails j (by omega)

theorem cases (bound : Nat) :
    (∀ j < bound, ¬succeeds j) ∧ loop bound 0 = givenUp bound ∨
      ∃ n < bound, succeeds n ∧ (∀ j < n, ¬succeeds j) ∧ loop bound 0 = done n := by
  by_cases hexists : ∃ n, n < bound ∧ succeeds n
  · obtain ⟨hlt, hfirst⟩ := Nat.find_spec hexists
    have hfails : ∀ j < Nat.find hexists, ¬succeeds j :=
      fun j hj hj' => Nat.find_min hexists hj ⟨Nat.lt_trans hj hlt, hj'⟩
    refine .inr ⟨_, hlt, hfirst, hfails, ?_⟩
    rw [h.eq_of_first hfirst hfails, if_pos hlt]
  · have hfails : ∀ j < bound, ¬succeeds j := fun j hj hj' => hexists ⟨j, hj, hj'⟩
    exact .inl ⟨hfails, h.eq_givenUp hfails⟩

end Attempts

end Peripherals
