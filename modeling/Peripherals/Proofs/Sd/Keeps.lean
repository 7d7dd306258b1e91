import Peripherals.Proofs.Sd.Runs

/-! Relations that every way through a step keeps. Such a relation holds between the driver before
the step, the requests that it makes and the driver after it. Where it composes, what the parts of
a step keep, the whole step keeps. -/

namespace Peripherals.Sd

open RegisterBlock (read write setBits clearBits)

/-- A relation composes: it holds where nothing happens, and of a sequence where it holds of both
parts. -/
structure Composes (R : Driver → History → Driver → Prop) : Prop where
  refl (d : Driver) : R d [] d
  trans {d d1 d2 : Driver} {t1 t2 : History} : R d t1 d1 → R d1 t2 d2 → R d (t1 ++ t2) d2

/-- Every way through `x` keeps `R`. -/
def Keeps (R : Driver → History → Driver → Prop) {α : Type} (x : Step α) : Prop :=
  ∀ ⦃d t a d'⦄, Runs x d t a d' → R d t d'

variable {R : Driver → History → Driver → Prop} {α β : Type}

namespace Keeps

theorem acts {x : Action α} {d d' : Driver} {t : History} {r : Except Error α}
    (h : Keeps R x.run) (hx : Acts x d t r d') : R d t d' :=
  h hx

theorem get {f : Driver → Action β} (hf : ∀ d, Keeps R (f d).run) :
    Keeps R (MonadState.get >>= f).run :=
  fun d _ _ _ hx => hf d (acts_get_bind.mp hx)

theorem lift {x : Step α} (hx : Keeps R x) : Keeps R (ExceptT.lift x : Action α).run := by
  rw [ExceptT.run_lift]
  intro d t r d' hr
  obtain ⟨a, -, ha⟩ := runs_map.mp hr
  exact hx ha

theorem observe {x : Action α} (hx : Keeps R x.run) : Keeps R (Sd.observe x).run :=
  lift hx

theorem modify {f : Driver → Driver} (hf : ∀ d, R d [] (f d)) :
    Keeps R (modify f : Action Unit).run := by
  intro d t r d' hx
  obtain ⟨rfl, -, rfl⟩ := acts_modify.mp hx
  exact hf d

theorem perform {o : Op} (ho : ∀ d v, R d [⟨o, v⟩] d) : Keeps R (Sd.perform o).run := by
  refine lift fun d t v d' hx => ?_
  obtain ⟨rfl, rfl⟩ := runs_request.mp hx
  exact ho d' v

theorem ite {c : Prop} [Decidable c] {x y : Action α} (hx : Keeps R x.run)
    (hy : Keeps R y.run) : Keeps R (if c then x else y).run := by
  split
  · exact hx
  · exact hy

end Keeps

namespace Composes

theorem pureStep (h : Composes R) (a : α) : Keeps R (pure a : Step α) := by
  intro d t b d' hx
  obtain ⟨rfl, -, rfl⟩ := runs_pure.mp hx
  exact h.refl d'

theorem bindStep (h : Composes R) {x : Step α} {f : α → Step β} (hx : Keeps R x)
    (hf : ∀ a, Keeps R (f a)) : Keeps R (x >>= f) := by
  intro d t b d' hxf
  obtain ⟨t1, t2, a, d1, rfl, h1, h2⟩ := runs_bind.mp hxf
  exact h.trans (hx h1) (hf a h2)

theorem pure (h : Composes R) (a : α) : Keeps R (Pure.pure a : Action α).run := h.pureStep _

theorem throw (h : Composes R) (e : Error) : Keeps R (MonadExcept.throw e : Action α).run :=
  h.pureStep _

theorem orFault (h : Composes R) (o : Option α) : Keeps R (Sd.orFault o).run := by
  intro d t r d' hx
  obtain ⟨rfl, -, rfl⟩ := acts_orFault.mp hx
  exact h.refl d'

theorem bind (h : Composes R) {x : Action α} {f : α → Action β} (hx : Keeps R x.run)
    (hf : ∀ a, Keeps R (f a).run) : Keeps R (x >>= f).run := by
  intro d t r d' hxf
  rcases acts_bind.mp hxf with ⟨e, -, h1⟩ | ⟨t1, t2, a, d1, rfl, h1, h2⟩
  · exact hx h1
  · exact h.trans (hx h1) (hf a h2)

end Composes

theorem composes_all (P : Exchange port → Prop) : Composes fun _ t _ => ∀ e ∈ t, P e where
  refl _ := by simp
  trans h1 h2 e he := (List.mem_append.mp he).elim (h1 e) (h2 e)

/-- Every error with which `x` fails is one of `E`. -/
def FailsOnly (E : Error → Prop) (x : Action α) : Prop :=
  ∀ ⦃d t e d'⦄, Acts x d t (.error e) d' → E e

/-- The step never fails. -/
abbrev Succeeds (x : Action α) : Prop := FailsOnly (fun _ => False) x

namespace FailsOnly

variable {E : Error → Prop}

theorem mono {E' : Error → Prop} {x : Action α} (h : FailsOnly E' x) (hE : ∀ e, E' e → E e) :
    FailsOnly E x :=
  fun _ _ _ _ hx => hE _ (h hx)

theorem never {x : Action α} (h : Succeeds x) : FailsOnly E x :=
  h.mono fun _ hf => hf.elim

theorem pure {a : α} : FailsOnly E (Pure.pure a) :=
  fun _ _ _ _ hx => absurd hx not_acts_pure_error

theorem throw {e : Error} (he : E e) : FailsOnly E (MonadExcept.throw e : Action α) := by
  intro d t e' d' hx
  obtain ⟨-, h1, -⟩ := acts_throw.mp hx
  rwa [Except.error.inj h1]

theorem lift {x : Step α} : FailsOnly E (ExceptT.lift x) := by
  intro d t e d' hx
  obtain ⟨a, ha, -⟩ := runs_map.mp hx
  nomatch ha

theorem perform {o : Op} : FailsOnly E (Sd.perform o) := lift

theorem orFault {o : Option α} : FailsOnly E (Sd.orFault o) := by
  intro d t e d' hx
  obtain ⟨-, ⟨a, -, hok⟩, -⟩ := acts_orFault.mp hx
  nomatch hok

theorem observe {x : Action α} : FailsOnly E (Sd.observe x) := lift

theorem modify {f : Driver → Driver} : FailsOnly E (modify f : Action Unit) := by
  intro d t e d' hx
  obtain ⟨-, h1, -⟩ := acts_modify.mp hx
  nomatch h1

theorem get {f : Driver → Action β} (hf : ∀ d, FailsOnly E (f d)) :
    FailsOnly E (MonadState.get >>= f) :=
  fun d _ _ _ hx => hf d (acts_get_bind.mp hx)

theorem bind {x : Action α} {f : α → Action β} (hx : FailsOnly E x)
    (hf : ∀ a, FailsOnly E (f a)) : FailsOnly E (x >>= f) := by
  intro d t e d' hxf
  rcases acts_bind_error.mp hxf with h1 | ⟨t1, t2, a, d1, -, -, h2⟩
  · exact hx h1
  · exact hf a h2

theorem ite {c : Prop} [Decidable c] {x y : Action α} (hx : FailsOnly E x)
    (hy : FailsOnly E y) : FailsOnly E (if c then x else y) := by
  split
  · exact hx
  · exact hy

end FailsOnly

/-- A sequence goes on after a part that never fails. -/
theorem Succeeds.acts_bind {x : Action α} {f : α → Action β} {r : Except Error β} {d d' : Driver}
    {t : History} (hx : Succeeds x) (h : Acts (x >>= f) d t r d') :
    ∃ t1 t2 a d1, t = t1 ++ t2 ∧ Acts x d t1 (.ok a) d1 ∧ Acts (f a) d1 t2 r d' :=
  (Sd.acts_bind.mp h).resolve_left fun ⟨_, _, hfails⟩ => hx hfails

end Peripherals.Sd
