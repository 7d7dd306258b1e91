import Peripherals.Proofs.Run

/-! The requests of a program, whether it ends or not. -/

namespace Peripherals.Prog

variable {S : Signature} {α β σ : Type}

/-- The requests that `p` makes of `device` from a state, each with the state that it is made in, as
far as the device answers them. -/
def visits (device : Device S σ) : Prog S α → σ → List (S.Op × σ)
  | .pure _, _ => []
  | .op o next, s =>
    (o, s) ::
      match device o s with
      | some (r, s) => (next r).visits device s
      | none => []
  | .wedged, _ => []

theorem visits_request (device : Device S σ) (o : S.Op) (s : σ) :
    (request o).visits device s = [(o, s)] := by
  cases hd : device o s with
  | none => simp [request, visits, hd]
  | some answer => simp [request, visits, hd]

theorem visits_bind (device : Device S σ) (p : Prog S α) (k : α → Prog S β) (s : σ) :
    (p >>= k).visits device s =
      p.visits device s ++ (p.run device s).elim [] fun r => (k r.1).visits device r.2 := by
  induction p generalizing s with
  | pure => rfl
  | op o next ih =>
    cases hd : device o s with
    | none => simp [visits, run, hd]
    | some answer => simp [visits, run, hd, ih]
  | wedged => rfl

theorem mem_visits_bind {device : Device S σ} {p : Prog S α} {k : α → Prog S β} {s : σ}
    {v : S.Op × σ} : v ∈ (p >>= k).visits device s ↔ v ∈ p.visits device s ∨
      ∃ a s', p.run device s = some (a, s') ∧ v ∈ (k a).visits device s' := by
  rw [visits_bind, List.mem_append]
  refine or_congr Iff.rfl ?_
  cases p.run device s with
  | none => simp
  | some r =>
    obtain ⟨a, s'⟩ := r
    simp [and_assoc]

/-- Whatever it is answered, and as far as it comes, the program makes only requests of `P`. -/
inductive Within (P : S.Op → Prop) : Prog S α → Prop
  | pure (a : α) : Within P (.pure a)
  | op {o : S.Op} {next : S.Reply o → Prog S α} :
    P o → (∀ r, Within P (next r)) → Within P (.op o next)
  | wedged : Within P .wedged

namespace Within

variable {P : S.Op → Prop} {p : Prog S α}

theorem request {o : S.Op} (h : P o) : (request o).Within P := .op h .pure

theorem bind {k : α → Prog S β} (h : p.Within P) (hk : ∀ a, (k a).Within P) :
    (p >>= k).Within P := by
  induction h with
  | pure a => exact hk a
  | op ho _ ih => exact .op ho ih
  | wedged => exact .wedged

theorem visits {device : Device S σ} {s : σ} (h : p.Within P) :
    ∀ v ∈ p.visits device s, P v.1 := by
  induction h generalizing s with
  | pure => simp [Prog.visits]
  | @op o next ho _ ih =>
    rw [Prog.visits, List.forall_mem_cons]
    refine ⟨ho, ?_⟩
    cases device o s with
    | none => simp
    | some answer => exact ih answer.1
  | wedged => simp [Prog.visits]

end Within

end Peripherals.Prog
