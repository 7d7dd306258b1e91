import Peripherals.Proofs.Sd.Issue
import Peripherals.Sd.DataMode

/-! What the gate in front of an access does first. A card without an address is enumerated again,
from a reset of the controller on; any other is asked for its status, after a sweep. -/

namespace Peripherals.Sd

open RegisterBlock (read write)

/-- Whatever `x` does, it does what `P` says first. -/
def Begins {α : Type} (P : History → Prop) (x : Action α) : Prop :=
  ∀ ⦃d t r d'⦄, Acts x d t r d' → ∃ t1 t2, t = t1 ++ t2 ∧ P t1

section Begins

variable {α β : Type} {P : History → Prop}

theorem Begins.bind {x : Action α} {f : α → Action β} (hx : Begins P x) : Begins P (x >>= f) := by
  intro d t r d' h
  rcases acts_bind.mp h with ⟨e, -, h1⟩ | ⟨t1, t2, a, d1, rfl, h1, -⟩
  · exact hx h1
  · obtain ⟨t3, t4, rfl, ht⟩ := hx h1
    exact ⟨t3, t4 ++ t2, by simp, ht⟩

theorem Begins.observe {x : Action α} (hx : Begins P x) : Begins P (observe x) := by
  intro d t r d' h
  rw [← bind_pure (Sd.observe x), acts_observe_bind] at h
  obtain ⟨t1, t2, a, d1, rfl, h1, -⟩ := h
  obtain ⟨t3, t4, rfl, ht⟩ := hx h1
  exact ⟨t3, t4 ++ t2, by simp, ht⟩

end Begins

variable {config : Config} {d d' : Driver} {t : History}

/-- The requests for a reset of the whole controller, with its clocks off. -/
def ResetsHost (t : History) : Prop :=
  ∃ v, t = [readOf .control1 v, writeOf .control1
    ((v ||| Control1.resetHost) &&& ~~~(Control1.cardClock ||| Control1.internalClock))]

/-- The requests of a sweep: the interrupt status is read, and a removal that it shows is noticed.
-/
def Sweeps (t : History) : Prop :=
  ∃ v t', t = readOf .interrupt v :: t' ∧
    (hasBits v Interrupt.cardRemoval = true → noteOf .removed ∈ t')

theorem cardReset_begins : Begins ResetsHost (cardReset config) := by
  have hcontroller : Begins ResetsHost resetController := by
    intro d t r d' h
    obtain ⟨v, _, rfl, h1⟩ := acts_read_bind.mp h
    obtain ⟨t1, rfl, -⟩ := acts_write_bind.mp h1
    exact ⟨_, t1, rfl, v, rfl⟩
  exact hcontroller.bind.bind.bind

theorem sweep_sweeps {r : Except Error Unit} (h : Acts sweep d t r d') : Sweeps t := by
  obtain ⟨-, v, _, before, noted, served, after, d1, rfl, -, -, -, hn, -⟩ := sweep_acts h
  refine ⟨v, _, rfl, fun hbit => ?_⟩
  obtain ⟨-, ⟨-, rfl, -⟩ | ⟨hnone, -⟩⟩ := noticeRemoval_acts hn
  · simp
  · simp [(hasBits_named rfl).trans hbit] at hnone

theorem queryStatus_begins : Begins Sweeps queryStatus := by
  have hsweep : Begins Sweeps sweep :=
    fun _ t _ _ h => ⟨t, [], t.append_nil.symm, sweep_sweeps h⟩
  have hissue {argument timeout : UInt32} :
      Begins Sweeps (issueCommand .sendStatus argument timeout) :=
    fun _ _ _ _ h => hsweep.bind ((refuseInvalid_passes rfl (by simp [Transfer.size])).mp h)
  exact fun _ _ _ _ h => hissue.observe.bind (acts_get_bind.mp h)

/-- What the gate does first for a card with the address `rca`. -/
structure OpensGate (rca : UInt16) (t : History) : Prop where
  unaddressed : rca = 0 → ResetsHost t
  addressed : rca ≠ 0 → Sweeps t

theorem ensureDataMode_begins {r : Except Error Unit} (h : Acts (ensureDataMode config) d t r d') :
    ∃ t1 t2, t = t1 ++ t2 ∧ OpensGate d.card.rca t1 := by
  have h1 := acts_get_bind.mp h
  by_cases hzero : d.card.rca = 0
  · rw [if_pos hzero] at h1
    obtain ⟨t1, t2, rfl, hreset⟩ := cardReset_begins.bind h1
    exact ⟨t1, t2, rfl, fun _ => hreset, fun h => absurd hzero h⟩
  · rw [if_neg hzero] at h1
    obtain ⟨t1, t2, rfl, hquery⟩ := queryStatus_begins.bind h1
    exact ⟨t1, t2, rfl, fun h => absurd h hzero, fun _ => hquery⟩

end Peripherals.Sd
