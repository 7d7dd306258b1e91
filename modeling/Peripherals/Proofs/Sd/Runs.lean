import Peripherals.Proofs.Run
import Peripherals.Sd.Driver

/-! The ways in which a step of the SD driver can end, and how they are made up of the ways in which
its parts can end. -/

namespace Peripherals.Sd

open RegisterBlock (read write)

/-- Requests of the driver with their answers, in the order in which they were made. -/
abbrev History := List (Exchange port)

/-- The read of the register `r` that was answered with `value`. -/
@[match_pattern] abbrev readOf (r : Register) (value : UInt32) : Exchange port := ⟨.read r, value⟩

/-- The write of `value` to the register `r`. -/
@[match_pattern] abbrev writeOf (r : Register) (value : UInt32) : Exchange port :=
  ⟨.write r value, ()⟩

/-- The report of `n`. -/
@[match_pattern] abbrev noteOf (n : Note) : Exchange port := ⟨.note n, ()⟩

/-- The step `x` can take the driver from `d` to `d'` and give `a`, with the requests of `t`. -/
def Runs {α : Type} (x : Step α) (d : Driver) (t : History) (a : α) (d' : Driver) : Prop :=
  (x.run d).Ends t (a, d')

variable {α β : Type} {d d' : Driver} {t : History}

/-! Steps that cannot fail. -/

section Step

theorem runs_pure {a b : α} : Runs (pure a) d t b d' ↔ t = [] ∧ b = a ∧ d' = d := by
  show (Prog.pure (a, d)).Ends t (b, d') ↔ _
  rw [Prog.ends_pure, Prod.mk.injEq]

theorem runs_bind {x : Step α} {f : α → Step β} {b : β} :
    Runs (x >>= f) d t b d' ↔
      ∃ t1 t2 a d1, t = t1 ++ t2 ∧ Runs x d t1 a d1 ∧ Runs (f a) d1 t2 b d' := by
  show ((x.run d) >>= fun r => (f r.1).run r.2).Ends t (b, d') ↔ _
  rw [Prog.ends_bind]
  constructor
  · rintro ⟨t1, t2, ⟨a, d1⟩, ht, h1, h2⟩
    exact ⟨t1, t2, a, d1, ht, h1, h2⟩
  · rintro ⟨t1, t2, a, d1, ht, h1, h2⟩
    exact ⟨t1, t2, (a, d1), ht, h1, h2⟩

theorem runs_map {x : Step α} {f : α → β} {b : β} :
    Runs (f <$> x) d t b d' ↔ ∃ a, b = f a ∧ Runs x d t a d' := by
  rw [← bind_pure_comp, runs_bind]
  simp only [runs_pure]
  constructor
  · rintro ⟨t1, _, a, d1, rfl, h, rfl, rfl, rfl⟩
    rw [List.append_nil]
    exact ⟨a, rfl, h⟩
  · rintro ⟨a, rfl, h⟩
    exact ⟨t, [], a, d', t.append_nil.symm, h, rfl, rfl, rfl⟩

theorem runs_modify {f : Driver → Driver} {u : Unit} :
    Runs (modify f) d t u d' ↔ t = [] ∧ d' = f d := by
  show (Prog.pure ((), f d)).Ends t (u, d') ↔ _
  simp [Prog.ends_pure]

theorem runs_request {o : Op} {r : o.Reply} :
    Runs (StateT.lift (Prog.request (S := port) o)) d t r d' ↔ t = [⟨o, r⟩] ∧ d' = d := by
  show (Prog.request (S := port) o >>= fun r => Prog.pure (r, d)).Ends t (r, d') ↔ _
  rw [Prog.ends_bind]
  constructor
  · rintro ⟨t1, t2, r', rfl, h1, h2⟩
    obtain rfl := Prog.ends_request.mp h1
    obtain ⟨rfl, h⟩ := Prog.ends_pure.mp h2
    obtain ⟨rfl, rfl⟩ := Prod.mk.inj h
    exact ⟨rfl, rfl⟩
  · rintro ⟨rfl, rfl⟩
    exact ⟨[⟨o, r⟩], [], r, rfl, Prog.ends_request.mpr rfl, .pure _⟩

theorem runs_say {n : Note} {u : Unit} : Runs (say n) d t u d' ↔ t = [noteOf n] ∧ d' = d :=
  runs_request (o := .note n)

theorem runs_get_bind {f : Driver → Step β} {b : β} :
    Runs (get >>= f) d t b d' ↔ Runs (f d) d t b d' :=
  Iff.rfl

theorem runs_set_bind {s : Driver} {f : PUnit → Step β} {b : β} :
    Runs (set s >>= f) d t b d' ↔ Runs (f ()) s t b d' :=
  Iff.rfl

theorem runs_modify_bind {g : Driver → Driver} {f : Unit → Step β} {b : β} :
    Runs (modify g >>= f) d t b d' ↔ Runs (f ()) (g d) t b d' :=
  Iff.rfl

theorem runs_say_bind {n : Note} {f : Unit → Step β} {b : β} :
    Runs (say n >>= f) d t b d' ↔ ∃ t', t = noteOf n :: t' ∧ Runs (f ()) d t' b d' := by
  rw [runs_bind]
  constructor
  · rintro ⟨_, t', _, _, rfl, h1, h2⟩
    obtain ⟨rfl, rfl⟩ := runs_say.mp h1
    exact ⟨t', rfl, h2⟩
  · rintro ⟨t', rfl, h⟩
    exact ⟨[noteOf n], t', (), d, rfl, runs_say.mpr ⟨rfl, rfl⟩, h⟩

end Step

/-- The step `x`, which can fail, can take the driver from `d` to `d'` and end with `r`, with the
requests of `t`. -/
def Acts {α : Type} (x : Action α) (d : Driver) (t : History) (r : Except Error α) (d' : Driver) :
    Prop :=
  Runs x.run d t r d'

/-! Steps that can fail. A sequence ends with the failure of its first part, or goes on after it. -/

section Action

variable {r : Except Error β}

@[simp] theorem acts_pure {a : α} {r : Except Error α} :
    Acts (pure a) d t r d' ↔ t = [] ∧ r = .ok a ∧ d' = d :=
  runs_pure

@[simp] theorem acts_throw {e : Error} {r : Except Error α} :
    Acts (throw e) d t r d' ↔ t = [] ∧ r = .error e ∧ d' = d :=
  runs_pure

theorem acts_bind {x : Action α} {f : α → Action β} :
    Acts (x >>= f) d t r d' ↔
      (∃ e, r = .error e ∧ Acts x d t (.error e) d') ∨
      ∃ t1 t2 a d1, t = t1 ++ t2 ∧ Acts x d t1 (.ok a) d1 ∧ Acts (f a) d1 t2 r d' := by
  rw [Acts, ExceptT.run_bind, runs_bind]
  constructor
  · rintro ⟨t1, t2, (e | a), d1, rfl, h1, h2⟩
    · obtain ⟨rfl, rfl, rfl⟩ := runs_pure.mp h2
      rw [List.append_nil]
      exact .inl ⟨e, rfl, h1⟩
    · exact .inr ⟨t1, t2, a, d1, rfl, h1, h2⟩
  · rintro (⟨e, rfl, h⟩ | ⟨t1, t2, a, d1, rfl, h1, h2⟩)
    · exact ⟨t, [], .error e, d', t.append_nil.symm, h, runs_pure.mpr ⟨rfl, rfl, rfl⟩⟩
    · exact ⟨t1, t2, .ok a, d1, rfl, h1, h2⟩

theorem acts_bind_ok {x : Action α} {f : α → Action β} {b : β} :
    Acts (x >>= f) d t (.ok b) d' ↔
      ∃ t1 t2 a d1, t = t1 ++ t2 ∧ Acts x d t1 (.ok a) d1 ∧ Acts (f a) d1 t2 (.ok b) d' := by
  simp [acts_bind]

theorem acts_bind_error {x : Action α} {f : α → Action β} {e : Error} :
    Acts (x >>= f) d t (.error e) d' ↔
      Acts x d t (.error e) d' ∨
      ∃ t1 t2 a d1, t = t1 ++ t2 ∧ Acts x d t1 (.ok a) d1 ∧ Acts (f a) d1 t2 (.error e) d' := by
  simp [acts_bind]

theorem not_acts_pure_error {a : α} {e : Error} : ¬Acts (pure a) d t (.error e) d' := by
  simp

/-- A step that never fails, as the first part of a sequence. -/
theorem acts_lift_bind {x : Step α} {f : α → Action β} :
    Acts (ExceptT.lift x >>= f) d t r d' ↔
      ∃ t1 t2 a d1, t = t1 ++ t2 ∧ Runs x d t1 a d1 ∧ Acts (f a) d1 t2 r d' := by
  rw [Acts, ExceptT.run_bind_lift, runs_bind]
  rfl

@[simp] theorem acts_pure_bind {a : α} {f : α → Action β} :
    Acts (pure a >>= f) d t r d' ↔ Acts (f a) d t r d' :=
  Iff.rfl

@[simp] theorem acts_get_bind {f : Driver → Action β} :
    Acts (get >>= f) d t r d' ↔ Acts (f d) d t r d' :=
  Iff.rfl

@[simp] theorem acts_modify_bind {g : Driver → Driver} {f : Unit → Action β} :
    Acts (modify g >>= f) d t r d' ↔ Acts (f ()) (g d) t r d' :=
  Iff.rfl

@[simp] theorem acts_modify {g : Driver → Driver} {r : Except Error Unit} :
    Acts (modify g) d t r d' ↔ t = [] ∧ r = .ok () ∧ d' = g d := by
  show (Prog.pure (Except.ok (), g d)).Ends t (r, d') ↔ _
  rw [Prog.ends_pure, Prod.mk.injEq]

theorem acts_perform_bind {o : Op} {f : o.Reply → Action β} :
    Acts (perform o >>= f) d t r d' ↔ ∃ v t', t = ⟨o, v⟩ :: t' ∧ Acts (f v) d t' r d' := by
  rw [perform, acts_lift_bind]
  constructor
  · rintro ⟨_, t2, v, _, rfl, h1, h2⟩
    obtain ⟨rfl, rfl⟩ := runs_request.mp h1
    exact ⟨v, t2, rfl, h2⟩
  · rintro ⟨v, t', rfl, h⟩
    exact ⟨[⟨o, v⟩], t', v, d, rfl, runs_request.mpr ⟨rfl, rfl⟩, h⟩

@[simp] theorem acts_read_bind {reg : Register} {f : UInt32 → Action β} :
    Acts (read reg >>= f) d t r d' ↔ ∃ v t', t = readOf reg v :: t' ∧ Acts (f v) d t' r d' :=
  acts_perform_bind (o := .read reg)

@[simp] theorem acts_write_bind {reg : Register} {v : UInt32} {f : Unit → Action β} :
    Acts (write reg v >>= f) d t r d' ↔
      ∃ t', t = writeOf reg v :: t' ∧ Acts (f ()) d t' r d' :=
  (acts_perform_bind (o := .write reg v)).trans
    ⟨fun ⟨_, t', ht, h⟩ => ⟨t', ht, h⟩, fun ⟨t', ht, h⟩ => ⟨(), t', ht, h⟩⟩

@[simp] theorem acts_report_bind {n : Note} {f : Unit → Action β} :
    Acts (report n >>= f) d t r d' ↔ ∃ t', t = noteOf n :: t' ∧ Acts (f ()) d t' r d' :=
  (acts_perform_bind (o := .note n)).trans
    ⟨fun ⟨_, t', ht, h⟩ => ⟨t', ht, h⟩, fun ⟨t', ht, h⟩ => ⟨(), t', ht, h⟩⟩

@[simp] theorem acts_write {reg : Register} {v : UInt32} {r : Except Error Unit} :
    Acts (write reg v) d t r d' ↔ t = [writeOf reg v] ∧ r = .ok () ∧ d' = d := by
  rw [← bind_pure (write reg v : Action Unit), acts_write_bind]
  simp only [acts_pure]
  exact ⟨fun ⟨_, ht, hn, h⟩ => ⟨hn ▸ ht, h⟩, fun ⟨ht, h⟩ => ⟨[], ht, rfl, h⟩⟩

@[simp] theorem acts_report {n : Note} {r : Except Error Unit} :
    Acts (report n) d t r d' ↔ t = [noteOf n] ∧ r = .ok () ∧ d' = d := by
  rw [← bind_pure (report n), acts_report_bind]
  simp only [acts_pure]
  exact ⟨fun ⟨_, ht, hn, h⟩ => ⟨hn ▸ ht, h⟩, fun ⟨ht, h⟩ => ⟨[], ht, rfl, h⟩⟩

@[simp] theorem acts_orFault {o : Option α} {r : Except Error α} :
    Acts (orFault o) d t r d' ↔ t = [] ∧ (∃ a, o = some a ∧ r = .ok a) ∧ d' = d := by
  cases o with
  | some a => simp [orFault]
  | none =>
    have hstuck : ¬Acts (orFault none) d t r d' := nofun
    simp [hstuck]

@[simp] theorem acts_orFault_bind {o : Option α} {f : α → Action β} :
    Acts (orFault o >>= f) d t r d' ↔ ∃ a, o = some a ∧ Acts (f a) d t r d' := by
  cases o with
  | some a => simp [orFault]
  | none => simp [acts_bind]

/-- An observed step always goes on, with its result. -/
@[simp] theorem acts_observe_bind {x : Action α} {f : Except Error α → Action β} :
    Acts (observe x >>= f) d t r d' ↔
      ∃ t1 t2 a d1, t = t1 ++ t2 ∧ Acts x d t1 a d1 ∧ Acts (f a) d1 t2 r d' :=
  acts_lift_bind

@[simp] theorem acts_ite {c : Prop} [Decidable c] {x y : Action β} :
    Acts (if c then x else y) d t r d' ↔ if c then Acts x d t r d' else Acts y d t r d' := by
  split <;> rfl

end Action

end Peripherals.Sd
