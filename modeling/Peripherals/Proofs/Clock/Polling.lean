import Peripherals.Clock.Delay
import Peripherals.Proofs.Attempts
import Peripherals.Proofs.Run

/-! Polling a condition for a bounded time. How a delay is made and what a sample costs is left to
whoever polls, so polling is looked at as a program with these two requests, of which every other
use is an interpretation. -/

namespace Peripherals.Clock

/-- The requests of polling. -/
inductive PollOp where
  | delay (us : UInt32)
  /-- Whether the condition holds now. -/
  | sample
  deriving DecidableEq, Repr

abbrev PollOp.Reply : PollOp → Type
  | .delay _ => Unit
  | .sample => Bool

abbrev pollPort : Signature := ⟨PollOp, PollOp.Reply⟩

def requestDelay (us : UInt32) : Prog pollPort Unit := Prog.request (S := pollPort) (.delay us)

def requestSample : Prog pollPort Bool := Prog.request (S := pollPort) .sample

/-- Makes a request of polling by a delay and a condition. -/
def answerPoll {m : Type → Type} (delay : UInt32 → m Unit) (condition : m Bool) :
    (o : PollOp) → m o.Reply
  | .delay us => delay us
  | .sample => condition

theorem pollRounds_eq_interpret {m : Type → Type} [Monad m] (stuck : ∀ β, m β)
    (delay : UInt32 → m Unit) (condition : m Bool) (rounds : Nat) :
    pollRounds delay condition rounds =
      (pollRounds requestDelay requestSample rounds).interpret stuck
        (answerPoll delay condition) := by
  induction rounds with
  | zero => rfl
  | succ rounds ih =>
    rw [pollRounds, ih]
    refine bind_congr fun _ => bind_congr fun holds => ?_
    cases holds with
    | true | false => rfl

/-! ### A sequence of samples -/

/-- How often the condition has been sampled, and the microseconds of delay that have been asked
for. -/
structure Polled where
  samples : Nat := 0
  delayed : Nat := 0
  deriving DecidableEq, Repr

/-- A condition whose sample number `k` gives `holds k`. -/
def sampled (holds : Nat → Bool) : Device pollPort Polled
  | .delay us, s => some ((), { s with delayed := s.delayed + us.toNat })
  | .sample, s => some (holds (s.samples + 1), { s with samples := s.samples + 1 })

/-- A round takes a microsecond where the condition holds and a millisecond where it does not. -/
theorem run_pollRounds_succ (holds : Nat → Bool) (samples delayed rounds : Nat) :
    (pollRounds requestDelay requestSample (rounds + 1)).run (sampled holds) ⟨samples, delayed⟩ =
      if holds (samples + 1) then some (.ok (), ⟨samples + 1, delayed + 1⟩)
      else (pollRounds requestDelay requestSample rounds).run (sampled holds)
        ⟨samples + 1, delayed + 1000⟩ := by
  have hsample :
      (pollRounds requestDelay requestSample (rounds + 1)).run (sampled holds) ⟨samples, delayed⟩ =
      (if holds (samples + 1) then .pure (.ok ())
        else requestDelay 999 >>= fun _ => pollRounds requestDelay requestSample rounds :
          Prog pollPort (Except DeviceError Unit)).run (sampled holds)
        ⟨samples + 1, delayed + 1⟩ := rfl
  rw [hsample]
  split <;> rfl

theorem pollRounds_attempts (holds : Nat → Bool) :
    Attempts (fun k => holds (k + 1) = true)
      (fun k => some (.ok (), ⟨k + 1, 1000 * k + 1⟩))
      (fun k => some (.error .timeout, ⟨k, 1000 * k⟩))
      fun rounds k =>
        (pollRounds requestDelay requestSample rounds).run (sampled holds) ⟨k, 1000 * k⟩ where
  exhausted _ := rfl
  attempt rounds k := run_pollRounds_succ holds k (1000 * k) rounds

/-! ### Polling with a timeout -/

/-- How often polling samples its condition before it gives up. -/
def sampleLimit (timeout : UInt32) : Nat := timeout.toNat / 1000 + 1

/-- Polling ends with the first sample at which the condition holds, one microsecond into the
millisecond of that sample, or gives up after its last sample at the end of a millisecond, later
than its timeout by a millisecond at most. Whatever the delays and the condition are made of, there
is nothing else to polling. -/
theorem waitFor_bounded (timeout : UInt32) (holds : Nat → Bool) :
    (∀ (m : Type → Type) [Monad m] (stuck : ∀ β, m β) (delay : UInt32 → m Unit)
      (condition : m Bool), waitFor delay timeout condition =
        (waitFor requestDelay timeout requestSample).interpret stuck
          (answerPoll delay condition)) ∧
    (∀ k, 1 ≤ k → k ≤ sampleLimit timeout → holds k = true →
      (∀ j, 1 ≤ j → j < k → holds j = false) →
      (waitFor requestDelay timeout requestSample).run (sampled holds) {} =
        some (.ok (), ⟨k, 1000 * (k - 1) + 1⟩)) ∧
    ((∀ k, 1 ≤ k → k ≤ sampleLimit timeout → holds k = false) →
      (waitFor requestDelay timeout requestSample).run (sampled holds) {} =
        some (.error .timeout, ⟨sampleLimit timeout, 1000 * sampleLimit timeout⟩)) ∧
    timeout.toNat < 1000 * sampleLimit timeout ∧
    1000 * sampleLimit timeout ≤ timeout.toNat + 1000 := by
  refine ⟨fun m _ stuck delay condition => pollRounds_eq_interpret stuck delay condition _,
    ?_, ?_, ?_, ?_⟩
  · intro k hpos hle hholds hbefore
    obtain ⟨n, rfl⟩ : ∃ n, k = n + 1 := Nat.exists_eq_add_one_of_ne_zero (by omega)
    have hfails : ∀ j < n, ¬holds (j + 1) = true := fun j hj => by
      rw [hbefore (j + 1) (Nat.le_add_left 1 j) (Nat.succ_lt_succ hj)]
      exact Bool.false_ne_true
    exact ((pollRounds_attempts holds).eq_of_first hholds hfails _).trans (if_pos hle)
  · intro hnever
    refine (pollRounds_attempts holds).eq_givenUp fun j hj => ?_
    rw [hnever (j + 1) (Nat.le_add_left 1 j) hj]
    exact Bool.false_ne_true
  · unfold sampleLimit
    omega
  · unfold sampleLimit
    omega

/-- Ten milliseconds, for a condition that holds at its fourth sample and for one that never
holds. -/
theorem waitFor_bounded_late :
    (waitFor requestDelay 10000 requestSample).run (sampled (· == 4)) {} =
      some (.ok (), ⟨4, 3001⟩) ∧
    (waitFor requestDelay 10000 requestSample).run (sampled fun _ => false) {} =
      some (.error .timeout, ⟨11, 11000⟩) := by
  refine ⟨(waitFor_bounded 10000 (· == 4)).2.1 4 (by decide) (by decide) rfl ?_,
    (waitFor_bounded 10000 fun _ => false).2.2.1 fun _ _ _ => rfl⟩
  intro j _ hj
  exact beq_eq_false_iff_ne.mpr (Nat.ne_of_lt hj)

end Peripherals.Clock
