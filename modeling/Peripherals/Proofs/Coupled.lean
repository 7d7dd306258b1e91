import Peripherals.Proofs.Run

/-! Two programs side by side, which make the same requests as long as they are answered alike. -/

namespace Peripherals.Prog

variable {S : Signature} {α β γ δ σ : Type} {Q : α → β → Prop} {p : Prog S α} {q : Prog S β}

/-- The programs make the same requests, and where these are answered alike they end with results
that `Q` relates. -/
inductive Coupled (Q : α → β → Prop) : Prog S α → Prog S β → Prop
  | pure {a : α} {b : β} : Q a b → Coupled Q (.pure a) (.pure b)
  | op {o : S.Op} {next : S.Reply o → Prog S α} {next' : S.Reply o → Prog S β} :
    (∀ r, Coupled Q (next r) (next' r)) → Coupled Q (.op o next) (.op o next')
  | wedged : Coupled Q .wedged .wedged

namespace Coupled

theorem mono {Q' : α → β → Prop} (h : Coupled Q p q) (hQ : ∀ a b, Q a b → Q' a b) :
    Coupled Q' p q := by
  induction h with
  | pure hab => exact .pure (hQ _ _ hab)
  | op _ ih => exact .op ih
  | wedged => exact .wedged

theorem bind {Q' : γ → δ → Prop} {f : α → Prog S γ} {g : β → Prog S δ} (h : Coupled Q p q)
    (hfg : ∀ a b, Q a b → Coupled Q' (f a) (g b)) : Coupled Q' (p >>= f) (q >>= g) := by
  induction h with
  | pure hab => exact hfg _ _ hab
  | op _ ih => exact .op ih
  | wedged => exact .wedged

/-- A machine cannot tell the programs apart. -/
theorem requests_eq (h : Coupled Q p q) (device : Device S σ) (s : σ) :
    p.requests device s = q.requests device s := by
  induction h generalizing s with
  | pure => rfl
  | @op o _ _ _ ih =>
    cases hd : device o s with
    | none => simp [requests, hd]
    | some answer => simp [requests, hd, ih]
  | wedged => rfl

theorem run (h : Coupled Q p q) (device : Device S σ) (s : σ) :
    p.run device s = none ∧ q.run device s = none ∨
      ∃ a b s', p.run device s = some (a, s') ∧ q.run device s = some (b, s') ∧ Q a b := by
  induction h generalizing s with
  | pure hab => exact .inr ⟨_, _, s, rfl, rfl, hab⟩
  | @op o _ _ _ ih =>
    cases hd : device o s with
    | none => exact .inl (by simp [Prog.run, hd])
    | some answer =>
      simp only [Prog.run, hd]
      exact ih answer.1 answer.2
  | wedged => exact .inl ⟨rfl, rfl⟩

end Coupled

end Peripherals.Prog
