import Mathlib.Data.UInt
import Mathlib.Tactic.Ring
import Peripherals.Proofs.Cell
import Peripherals.Proofs.Total
import Peripherals.Timer.SystemTimer

/-! The deadlines of the periodic tick. A tick that is acknowledged in time is followed by the next
one after exactly one interval, so a run of them does not drift, and a tick that is acknowledged too
late is followed by the next one within an interval. -/

namespace Peripherals.Timer

open scoped UInt32.CommRing

variable {hz : UInt32} {t : SystemTimer} {interval deadline now : UInt32}
  {h : List (Exchange port)}

/-! ### One tick -/

/-- How long the deadline has passed, on a counter that wraps around. -/
def latency (deadline now : UInt32) : Nat := (now - deadline).toNat

def nextDeadline (interval deadline now : UInt32) : UInt32 :=
  if isAhead (deadline + interval) now then deadline + interval else now + interval

/-- The requests of an acknowledgement that finds `deadline` and `now` and leaves `next`. -/
def acknowledgement (deadline now next : UInt32) : List (Exchange port) :=
  [⟨.read (.compare tickChannel), deadline⟩, ⟨.read .counterLow, now⟩,
    ⟨.write (.compare tickChannel) next, ()⟩, ⟨.write .control tickMatch, ()⟩]

theorem isAhead_iff : isAhead deadline now = true ↔
    1 ≤ (deadline - now).toNat ∧ (deadline - now).toNat < 2 ^ 31 := by
  have hzero : deadline - now = 0 ↔ (deadline - now).toNat = 0 := UInt32.toNat_inj.symm
  simp only [isAhead, Bool.and_eq_true, bne_iff_ne, ne_eq, hzero, decide_eq_true_iff,
    UInt32.lt_iff_toNat_lt]
  show _ ∧ _ < 2147483648 ↔ _
  omega

theorem nextDeadline_eq (hpos : 1 ≤ interval.toNat) (hle : interval.toNat ≤ 1000000)
    (hlate : latency deadline now ≤ 2 ^ 31) :
    nextDeadline interval deadline now =
      if latency deadline now < interval.toNat then deadline + interval else now + interval := by
  have hdistance : (deadline + interval - now).toNat =
      (interval.toNat + (2 ^ 32 - latency deadline now)) % 2 ^ 32 := by
    rw [show deadline + interval - now = interval - (now - deadline) by ring, UInt32.toNat_sub,
      Nat.add_comm]
    rfl
  unfold nextDeadline
  refine if_congr ?_ rfl rfl
  rw [isAhead_iff, hdistance]
  omega

theorem nextDeadline_ahead (hpos : 1 ≤ interval.toNat) (hle : interval.toNat ≤ 1000000)
    (hlate : latency deadline now ≤ 2 ^ 31) :
    1 ≤ (nextDeadline interval deadline now - now).toNat ∧
      (nextDeadline interval deadline now - now).toNat ≤ interval.toNat := by
  rw [nextDeadline_eq hpos hle hlate]
  split
  case isTrue hlt =>
    rw [show deadline + interval - now = interval - (now - deadline) by ring,
      UInt32.toNat_sub_of_le]
    · change 1 ≤ interval.toNat - latency deadline now ∧ interval.toNat - latency deadline now ≤ _
      omega
    · rw [UInt32.le_iff_toNat_le]
      exact hlt.le
  case isFalse =>
    rw [add_sub_cancel_left]
    exact ⟨hpos, le_rfl⟩

theorem startPeriodic_interval (hstart : (startPeriodic hz).Ends h (.ok t)) :
    1 ≤ t.interval.toNat ∧ t.interval.toNat ≤ 1000000 := by
  unfold startPeriodic at hstart
  split at hstart
  case isTrue =>
    nomatch (Prog.ends_pure.mp hstart).2
  case isFalse hrate =>
    obtain ⟨_, _, ⟨⟩, rfl, -, h1⟩ := Prog.ends_bind.mp hstart
    obtain ⟨_, _, start, rfl, -, h2⟩ := Prog.ends_bind.mp h1
    obtain ⟨_, _, ⟨⟩, rfl, -, h3⟩ := Prog.ends_bind.mp h2
    obtain ⟨_, _, ⟨⟩, rfl, -, h4⟩ := Prog.ends_bind.mp h3
    obtain ⟨-, ht⟩ := Prog.ends_pure.mp h4
    obtain rfl := Except.ok.inj ht
    have hpos : 0 < hz.toNat := Nat.pos_of_ne_zero fun h0 => hrate (.inl (UInt32.toNat_inj.mp h0))
    have hle : hz.toNat ≤ 1000000 := Nat.le_of_not_lt fun hlt => hrate (.inr hlt)
    show 1 ≤ (counterHz / hz).toNat ∧ (counterHz / hz).toNat ≤ 1000000
    rw [UInt32.toNat_div]
    exact ⟨(Nat.one_le_div_iff hpos).mpr hle, Nat.div_le_self _ _⟩

theorem acknowledgeTick_ends {u : Unit} : (acknowledgeTick t).Ends h u ↔
    ∃ deadline now, h = acknowledgement deadline now (nextDeadline t.interval deadline now) := by
  constructor
  · intro hends
    obtain ⟨_, _, (deadline : UInt32), rfl, h1, h2⟩ := Prog.ends_bind.mp hends
    obtain ⟨_, _, (now : UInt32), rfl, h3, h4⟩ := Prog.ends_bind.mp h2
    obtain ⟨_, _, ⟨⟩, rfl, h5, h6⟩ := Prog.ends_bind.mp h4
    obtain rfl := Prog.ends_request.mp h1
    obtain rfl := Prog.ends_request.mp h3
    obtain rfl := Prog.ends_request.mp h5
    obtain rfl := Prog.ends_request.mp h6
    exact ⟨deadline, now, rfl⟩
  · rintro ⟨deadline, now, rfl⟩
    exact .op (.op (.op (.op (.pure _))))

/-! ### Runs of ticks -/

/-- Acknowledges one tick after another. -/
def acknowledgeTicks (t : SystemTimer) : Nat → Prog port Unit
  | 0 => pure ()
  | n + 1 => do
    acknowledgeTick t
    acknowledgeTicks t n

def Register.cell (r : Register) : Cell port where
  read?
    | ⟨.read r', v⟩ => if r' = r then some v else none
    | _ => none
  write?
    | ⟨.write r' v, _⟩ => if r' = r then some v else none
    | _ => none

/-- The deadlines and the counter values of a run, where each deadline is found as it was left. -/
theorem acknowledgeTicks_ends {n : Nat} {u : Unit} {first : UInt32}
    (hends : (acknowledgeTicks t n).Ends h u)
    (hback : (Register.compare tickChannel).cell.ReadsBack first h) :
    ∃ deadline now : Nat → UInt32, deadline 0 = first ∧
      (∀ i < n, deadline (i + 1) = nextDeadline t.interval (deadline i) (now i)) ∧
      h = (List.range n).flatMap fun i =>
        acknowledgement (deadline i) (now i) (deadline (i + 1)) := by
  induction n generalizing first h with
  | zero =>
    obtain ⟨rfl, -⟩ := Prog.ends_pure.mp hends
    exact ⟨fun _ => first, fun _ => 0, rfl, by simp, rfl⟩
  | succ n ih =>
    obtain ⟨_, _, ⟨⟩, rfl, h1, h2⟩ := Prog.ends_bind.mp hends
    obtain ⟨found, now, rfl⟩ := acknowledgeTick_ends.mp h1
    obtain ⟨hfound, hrest⟩ := Cell.readsBack_append.mp hback
    obtain rfl : found = first := hfound.1
    obtain ⟨deadlines, nows, hfirst, hnext, rfl⟩ := ih h2 hrest
    have hleft : deadlines 0 = nextDeadline t.interval found now := hfirst
    refine ⟨fun | 0 => found | i + 1 => deadlines i, fun | 0 => now | i + 1 => nows i, rfl, ?_, ?_⟩
    · intro i hi
      cases i with
      | zero => exact hleft
      | succ i => exact hnext i (by omega)
    · rw [List.range_succ_eq_map, List.flatMap_cons, List.flatMap_map, ← hleft]

theorem acknowledgeTicks_ensures (t : SystemTimer) (n : Nat) :
    (acknowledgeTicks t n).Ensures (fun _ => True) fun _ => True := by
  induction n with
  | zero => exact .pure trivial
  | succ n ih =>
    exact .op trivial fun _ => .op trivial fun _ => .op trivial fun _ => .op trivial fun _ => ih

/-- As long as every tick is acknowledged in time, the deadlines are whole intervals apart. -/
theorem deadline_of_onTime {deadline : Nat → UInt32} {k m : Nat} (hkm : k ≤ m)
    (hstep : ∀ i, k ≤ i → i < m → deadline (i + 1) = deadline i + interval) :
    deadline m = deadline k + UInt32.ofNat (m - k) * interval := by
  induction m, hkm using Nat.le_induction with
  | base => simp
  | succ m hkm ih =>
    rw [hstep m hkm (by omega), ih fun i hk hi => hstep i hk (by omega), Nat.succ_sub hkm,
      ← Nat.add_one, UInt32.ofNat_add]
    show _ = _ + (_ + 1) * interval
    ring

/-- The tick runs at the rate at which it was started. An acknowledgement reads the deadline and the
counter, and sets the next deadline to one interval after the last, or after the present where that
one has passed as well; either way it lies ahead by an interval at most. So ticks that are
acknowledged in time do not drift, and after one that is not they go on from the counter. -/
theorem ticks_keep_time {start : List (Exchange port)}
    (hstart : (startPeriodic hz).Ends start (.ok t)) :
    1 ≤ t.interval.toNat ∧ t.interval.toNat ≤ 1000000 ∧
    ∀ n, (acknowledgeTicks t n).Ensures (fun _ => True) (fun _ => True) ∧
    ∀ h first, (acknowledgeTicks t n).Ends h () →
      (Register.compare tickChannel).cell.ReadsBack first h →
      ∃ deadline now : Nat → UInt32, deadline 0 = first ∧
        (h = (List.range n).flatMap fun i =>
          acknowledgement (deadline i) (now i) (deadline (i + 1))) ∧
        (∀ i < n, latency (deadline i) (now i) ≤ 2 ^ 31 →
          deadline (i + 1) = (if latency (deadline i) (now i) < t.interval.toNat
            then deadline i + t.interval else now i + t.interval) ∧
          1 ≤ (deadline (i + 1) - now i).toNat ∧
          (deadline (i + 1) - now i).toNat ≤ t.interval.toNat) ∧
        (∀ k m, k ≤ m → m ≤ n →
          (∀ i, k ≤ i → i < m → latency (deadline i) (now i) < t.interval.toNat) →
          deadline m = deadline k + UInt32.ofNat (m - k) * t.interval) ∧
        ∀ k m, k < m → m ≤ n → t.interval.toNat ≤ latency (deadline k) (now k) →
          latency (deadline k) (now k) ≤ 2 ^ 31 →
          (∀ i, k < i → i < m → latency (deadline i) (now i) < t.interval.toNat) →
          deadline m = now k + UInt32.ofNat (m - k) * t.interval := by
  obtain ⟨hpos, hle⟩ := startPeriodic_interval hstart
  refine ⟨hpos, hle, fun n => ⟨acknowledgeTicks_ensures t n, fun h first hends hback => ?_⟩⟩
  obtain ⟨deadline, now, hfirst, hnext, rfl⟩ := acknowledgeTicks_ends hends hback
  have hrule : ∀ i < n, latency (deadline i) (now i) ≤ 2 ^ 31 →
      deadline (i + 1) = if latency (deadline i) (now i) < t.interval.toNat
        then deadline i + t.interval else now i + t.interval := by
    intro i hi hlate
    rw [hnext i hi, nextDeadline_eq hpos hle hlate]
  have honTime : ∀ k m, k ≤ m → m ≤ n →
      (∀ i, k ≤ i → i < m → latency (deadline i) (now i) < t.interval.toNat) →
      deadline m = deadline k + UInt32.ofNat (m - k) * t.interval := by
    intro k m hkm hmn htimely
    refine deadline_of_onTime hkm fun i hk hi => ?_
    have hlt := htimely i hk hi
    rw [hrule i (by omega) (by omega), if_pos hlt]
  refine ⟨deadline, now, hfirst, rfl, fun i hi hlate => ⟨hrule i hi hlate, ?_⟩, honTime, ?_⟩
  · rw [hnext i hi]
    exact nextDeadline_ahead hpos hle hlate
  · intro k m hkm hmn hmissed hlate htimely
    -- The missed tick sets the first of the deadlines that are counted from here.
    have hrebased : deadline (k + 1) = now k + t.interval := by
      rw [hrule k (by omega) hlate, if_neg (by omega)]
    rw [honTime (k + 1) m hkm hmn htimely, hrebased, show m - k = m - (k + 1) + 1 by omega,
      UInt32.ofNat_add]
    show _ = _ + (_ + 1) * t.interval
    ring

/-- At 200 Hz, a tick in time whose deadline lies past the wrap of the counter, then a late one. -/
theorem ticks_keep_time_late : ∃ deadline now : Nat → UInt32,
    deadline 0 = 0xFFFFFC17 ∧ deadline 1 = 0xFFFFFC17 + 5000 ∧ now 1 = 20999 ∧
      deadline 2 = 20999 + 5000 := by
  have hstart : (startPeriodic 200).Ends
      [⟨.write .counterLow preload, ()⟩, ⟨.read .counterLow, preload⟩,
        ⟨.write (.compare tickChannel) (preload + 5000), ()⟩, ⟨.note (.armed 200 5000), ()⟩]
      (.ok ⟨5000⟩) := .op (.op (.op (.op (.pure _))))
  have hfirst : (acknowledgeTick ⟨5000⟩).Ends (acknowledgement 0xFFFFFC17 0xFFFFFC7B 3999) () :=
    acknowledgeTick_ends.mpr ⟨_, _, rfl⟩
  have hsecond : (acknowledgeTick ⟨5000⟩).Ends (acknowledgement 3999 20999 25999) () :=
    acknowledgeTick_ends.mpr ⟨_, _, rfl⟩
  have hends : (acknowledgeTicks ⟨5000⟩ 2).Ends
      (acknowledgement 0xFFFFFC17 0xFFFFFC7B 3999 ++ acknowledgement 3999 20999 25999) () := by
    refine Prog.ends_bind.mpr ⟨_, _, (), rfl, hfirst, ?_⟩
    exact Prog.ends_bind.mpr ⟨_, [], (), rfl, hsecond, .pure _⟩
  have hback : (Register.compare tickChannel).cell.ReadsBack 0xFFFFFC17
      (acknowledgement 0xFFFFFC17 0xFFFFFC7B 3999 ++ acknowledgement 3999 20999 25999) := by
    simp [acknowledgement, Cell.ReadsBack, Register.cell]
  obtain ⟨-, -, hruns⟩ := ticks_keep_time hstart
  obtain ⟨deadline, now, hzero, hhistory, -, honTime, hrebased⟩ := (hruns 2).2 _ _ hends hback
  have hsampled : now 0 = 0xFFFFFC7B ∧ deadline 1 = 3999 ∧ now 1 = 20999 := by
    simp [List.range_succ, acknowledgement] at hhistory
    grind
  obtain ⟨hnow0, hdeadline1, hnow1⟩ := hsampled
  refine ⟨deadline, now, hzero, ?_, hnow1, ?_⟩
  · rw [honTime 0 1 (by omega) (by omega), hzero]
    · decide
    · intro i _ hi
      obtain rfl : i = 0 := by omega
      rw [hzero, hnow0]
      decide
  · rw [hrebased 1 2 (by omega) (by omega), hnow1]
    · decide
    · rw [hdeadline1, hnow1]
      decide
    · rw [hdeadline1, hnow1]
      decide
    · intro i h1 h2
      omega

end Peripherals.Timer
