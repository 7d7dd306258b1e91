import Mathlib.Dynamics.PeriodicPts.Defs
import Peripherals.Clock.Tick

/-! The rate of the slower tick. The pattern is back where it was after four turns, so what is due
on an interrupt depends on its number modulo four alone, whatever the count of ticks shows. -/

namespace Peripherals.Clock.SystemTick

variable {m : Type → Type} [Monad m]

/-- What is called while interrupts are serviced. -/
inductive Call where
  | hook
  | acknowledge
  deriving DecidableEq, Repr

def Call.perform (hook acknowledge : m Unit) : Call → m Unit
  | .hook => hook
  | .acknowledge => acknowledge

/-- The calls for the interrupt number `k`, where the first is number 1. -/
def callsOn (k : Nat) : List Call :=
  if k % 4 = 2 then [.hook, .acknowledge] else [.acknowledge]

/-- The calls for `n` interrupts from the number `first` on. -/
def callsFrom (first n : Nat) : List Call := (List.range' first n).flatMap callsOn

/-- Services `n` interrupts, one after the other. -/
def serviceAll (hook : Option (m Unit)) (acknowledge : m Unit) :
    (n : Nat) → SystemTick → m SystemTick
  | 0, t => pure t
  | n + 1, t => do
    let t ← t.service hook acknowledge
    serviceAll hook acknowledge n t

/-! ### The state after some ticks -/

theorem ticks_advance_iterate (n : Nat) (t : SystemTick) :
    (advance^[n] t).ticks = t.ticks + UInt32.ofNat n := by
  induction n with
  | zero => simp
  | succ n ih =>
    rw [Function.iterate_succ_apply', advance, ih, UInt32.ofNat_add, ← UInt32.add_assoc]
    rfl

theorem pattern_advance_iterate (n : Nat) (t : SystemTick) :
    (advance^[n] t).pattern = turn^[n] t.pattern := by
  induction n with
  | zero => rfl
  | succ n ih => rw [Function.iterate_succ_apply', advance, ih, Function.iterate_succ_apply']

theorem turn_periodic : Function.IsPeriodicPt turn 4 ({} : SystemTick).pattern := by
  decide

/-- The work is due on every fourth tick, and the second tick is the first of these. -/
theorem isDue_advance_iterate (n : Nat) : (advance^[n] {}).isDue = decide (n % 4 = 2) := by
  rw [isDue, pattern_advance_iterate, ← turn_periodic.iterate_mod_apply n]
  obtain hn | hn | hn | hn : n % 4 = 0 ∨ n % 4 = 1 ∨ n % 4 = 2 ∨ n % 4 = 3 := by omega
  all_goals rw [hn]; decide

/-! ### The calls -/

theorem callsFrom_succ (first n : Nat) :
    callsFrom first (n + 1) = callsOn first ++ callsFrom (first + 1) n := by
  rw [callsFrom, List.range'_succ, List.flatMap_cons]
  rfl

theorem count_hook_callsOn (k : Nat) : (callsOn k).count .hook = if k % 4 = 2 then 1 else 0 := by
  unfold callsOn
  split <;> rfl

theorem count_acknowledge_callsOn (k : Nat) : (callsOn k).count .acknowledge = 1 := by
  unfold callsOn
  split <;> rfl

theorem count_hook_callsFrom (first n : Nat) :
    (callsFrom first n).count .hook = (first + n + 1) / 4 - (first + 1) / 4 := by
  induction n generalizing first with
  | zero => simp [callsFrom]
  | succ n ih =>
    rw [callsFrom_succ, List.count_append, count_hook_callsOn, ih]
    split <;> omega

theorem count_acknowledge_callsFrom (first n : Nat) :
    (callsFrom first n).count .acknowledge = n := by
  induction n generalizing first with
  | zero => rfl
  | succ n ih =>
    rw [callsFrom_succ, List.count_append, count_acknowledge_callsOn, ih, Nat.add_comm]

/-! ### Servicing -/

variable [LawfulMonad m] (hook acknowledge : m Unit)

theorem service_eq_calls (k : Nat) :
    (advance^[k] {}).service (some hook) acknowledge = (do
      forM (callsOn (k + 1)) (Call.perform hook acknowledge)
      pure (advance^[k + 1] {})) := by
  have hnext : advance (advance^[k] {}) = advance^[k + 1] {} :=
    (Function.iterate_succ_apply' advance k {}).symm
  rw [service, hnext, isDue_advance_iterate, callsOn]
  by_cases hdue : (k + 1) % 4 = 2
  · simp [hdue, Call.perform]
  · simp [hdue, Call.perform]

theorem serviceAll_eq_calls (n k : Nat) :
    serviceAll (some hook) acknowledge n (advance^[k] {}) = (do
      forM (callsFrom (k + 1) n) (Call.perform hook acknowledge)
      pure (advance^[k + n] {})) := by
  induction n generalizing k with
  | zero => simp [serviceAll, callsFrom]
  | succ n ih =>
    rw [serviceAll, service_eq_calls, callsFrom_succ, List.forM_append]
    simp only [bind_assoc, pure_bind, ih]
    rw [show k + 1 + n = k + (n + 1) by omega]

/-- The slower tick comes once in any four interrupts. Servicing `n` of them, from the start, counts
them modulo the range of the counter and is nothing but the calls for each in turn: the hook on
every fourth, from the second on, and the acknowledgement on all, after the hook. -/
theorem subTick_rate (n : Nat) : ∃ t : SystemTick,
    serviceAll (some hook) acknowledge n {} = (do
      forM (callsFrom 1 n) (Call.perform hook acknowledge)
      pure t) ∧
    t.ticks.toNat = n % 2 ^ 32 ∧
    (callsFrom 1 n).count .hook = (n + 2) / 4 ∧
    (callsFrom 1 n).count .acknowledge = n ∧
    ∀ first, (callsFrom first 4).count .hook = 1 := by
  refine ⟨advance^[n] {}, ?_, ?_, ?_, count_acknowledge_callsFrom 1 n, fun first => ?_⟩
  · have hcalls := serviceAll_eq_calls hook acknowledge n 0
    rwa [Nat.zero_add, Nat.zero_add] at hcalls
  · rw [ticks_advance_iterate, UInt32.zero_add, UInt32.toNat_ofNat']
  · rw [count_hook_callsFrom]
    omega
  · rw [count_hook_callsFrom]
    omega

/-- Six interrupts, where each call is written down. -/
theorem subTick_rate_six :
    ((serviceAll (some (modify (· ++ [Call.hook]))) (modify (· ++ [Call.acknowledge])) 6 {} :
      StateM (List Call) SystemTick).run []).2 =
        [.acknowledge, .hook, .acknowledge, .acknowledge, .acknowledge, .acknowledge, .hook,
          .acknowledge] := by
  obtain ⟨t, hcalls, -⟩ := subTick_rate (m := StateM (List Call)) (modify (· ++ [Call.hook]))
    (modify (· ++ [Call.acknowledge])) 6
  rw [hcalls]
  rfl

end Peripherals.Clock.SystemTick
