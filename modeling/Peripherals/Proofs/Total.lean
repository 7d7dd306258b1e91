import Peripherals.Proofs.Run

/-! Programs that end: whatever they are answered, and on one machine. -/

namespace Peripherals.Prog

variable {S : Signature} {α β σ : Type} {P : S.Op → Prop} {Q : α → Prop} {p : Prog S α}

/-- Whatever it is answered, the program makes only requests of `P` and ends with a result of `Q`.
-/
inductive Ensures (P : S.Op → Prop) (Q : α → Prop) : Prog S α → Prop
  | pure {a : α} : Q a → Ensures P Q (.pure a)
  | op {o : S.Op} {next : S.Reply o → Prog S α} :
    P o → (∀ r, Ensures P Q (next r)) → Ensures P Q (.op o next)

namespace Ensures

theorem mono {Q' : α → Prop} (h : p.Ensures P Q) (hQ : ∀ a, Q a → Q' a) : p.Ensures P Q' := by
  induction h with
  | pure ha => exact .pure (hQ _ ha)
  | op ho _ ih => exact .op ho ih

theorem request_bind {o : S.Op} {k : S.Reply o → Prog S α} (h : P o)
    (hk : ∀ r, (k r).Ensures P Q) : (request o >>= k).Ensures P Q := .op h hk

/-- The second part of a sequence starts with a result with which the first part can end. -/
theorem bind {k : α → Prog S β} {R : β → Prop} (h : p.Ensures P Q)
    (hk : ∀ t a, p.Ends t a → Q a → (k a).Ensures P R) : (p >>= k).Ensures P R := by
  induction h with
  | pure ha => exact hk [] _ (.pure _) ha
  | @op o next ho _ ih =>
    refine .op ho fun r => ih r fun t a he ha => ?_
    exact hk (⟨o, r⟩ :: t) a (.op he) ha

theorem ends {t : List (Exchange S)} {a : α} (h : p.Ensures P Q) (he : p.Ends t a) :
    (∀ e ∈ t, P e.request) ∧ Q a := by
  induction h generalizing t with
  | pure ha =>
    obtain ⟨rfl, rfl⟩ := ends_pure.mp he
    exact ⟨by simp, ha⟩
  | op ho _ ih =>
    obtain ⟨r, t', rfl, he'⟩ := ends_op.mp he
    obtain ⟨hrest, ha⟩ := ih r he'
    exact ⟨List.forall_mem_cons.mpr ⟨ho, hrest⟩, ha⟩

/-- On a machine that answers every request the program ends. -/
theorem run_isSome {device : Device S σ} (h : p.Ensures P Q)
    (hanswers : ∀ o s, (device o s).isSome) (s : σ) : (p.run device s).isSome := by
  induction h generalizing s with
  | pure => rfl
  | @op o next _ _ ih =>
    obtain ⟨⟨r, s'⟩, hd⟩ := Option.isSome_iff_exists.mp (hanswers o s)
    rw [run, hd]
    exact ih r s'

end Ensures

/-- On `device` the program ends from `s`, with a result and in a state of `R`. -/
def Reaches (device : Device S σ) (p : Prog S α) (s : σ) (R : α → σ → Prop) : Prop :=
  ∃ a s', p.run device s = some (a, s') ∧ R a s'

namespace Reaches

variable {device : Device S σ} {s : σ} {R : α → σ → Prop}

theorem pure {a : α} (h : R a s) : (Prog.pure a : Prog S α).Reaches device s R := ⟨a, s, rfl, h⟩

theorem request {o : S.Op} {r : S.Reply o} {s' : σ} {R : S.Reply o → σ → Prop}
    (hanswer : device o s = some (r, s')) (h : R r s') : (request o).Reaches device s R :=
  ⟨r, s', (run_request ..).trans hanswer, h⟩

theorem bind {k : α → Prog S β} {Q : β → σ → Prop} (h : p.Reaches device s R)
    (hk : ∀ a s', R a s' → (k a).Reaches device s' Q) : (p >>= k).Reaches device s Q := by
  obtain ⟨a, s', hrun, hR⟩ := h
  obtain ⟨b, s'', hrun', hQ⟩ := hk a s' hR
  exact ⟨b, s'', run_bind_eq_some.mpr ⟨a, s', hrun, hrun'⟩, hQ⟩

end Reaches

end Peripherals.Prog
