import Peripherals.Program

/-! The ways in which a program can end. A machine may answer a request as it likes, so a way is a
list of requests with their answers, and what holds of every way holds on every machine. -/

namespace Peripherals

/-- A request with the answer to it. -/
structure Exchange (S : Signature) where
  request : S.Op
  answer : S.Reply request

namespace Prog

variable {S : Signature} {α β σ : Type}

/-- `p.Ends t a`: the program `p` can make the requests of `t`, with their answers, and end with
`a`. -/
inductive Ends : Prog S α → List (Exchange S) → α → Prop
  | pure (a : α) : Ends (.pure a) [] a
  | op {o : S.Op} {next : S.Reply o → Prog S α} {r : S.Reply o} {t : List (Exchange S)} {a : α} :
    Ends (next r) t a → Ends (.op o next) (⟨o, r⟩ :: t) a

theorem ends_pure {a b : α} {t : List (Exchange S)} :
    (Prog.pure a : Prog S α).Ends t b ↔ t = [] ∧ b = a := by
  constructor
  · rintro ⟨⟩
    exact ⟨rfl, rfl⟩
  · rintro ⟨rfl, rfl⟩
    exact .pure b

theorem ends_op {o : S.Op} {next : S.Reply o → Prog S α} {t : List (Exchange S)} {a : α} :
    (Prog.op o next).Ends t a ↔ ∃ r t', t = ⟨o, r⟩ :: t' ∧ (next r).Ends t' a := by
  constructor
  · rintro (_ | h)
    exact ⟨_, _, rfl, h⟩
  · rintro ⟨r, t', rfl, h⟩
    exact .op h

theorem not_ends_wedged {t : List (Exchange S)} {a : α} : ¬(Prog.wedged : Prog S α).Ends t a := by
  rintro ⟨⟩

/-- A sequence ends as its second part does, after a way in which its first part can end. -/
theorem ends_bind {p : Prog S α} {k : α → Prog S β} {t : List (Exchange S)} {b : β} :
    (p >>= k).Ends t b ↔ ∃ t1 t2 a, t = t1 ++ t2 ∧ p.Ends t1 a ∧ (k a).Ends t2 b := by
  induction p generalizing t with
  | pure a =>
    simp only [pure_bind, ends_pure]
    constructor
    · exact fun h => ⟨[], t, a, rfl, ⟨rfl, rfl⟩, h⟩
    · rintro ⟨_, t2, _, rfl, ⟨rfl, rfl⟩, h⟩
      exact h
  | op o next ih =>
    simp only [op_bind, ends_op, ih]
    constructor
    · rintro ⟨r, _, rfl, t1, t2, a, rfl, h1, h2⟩
      exact ⟨⟨o, r⟩ :: t1, t2, a, rfl, ⟨r, t1, rfl, h1⟩, h2⟩
    · rintro ⟨_, t2, a, rfl, ⟨r, t1, rfl, h1⟩, h2⟩
      exact ⟨r, t1 ++ t2, rfl, t1, t2, a, rfl, h1, h2⟩
  | wedged => simp [not_ends_wedged]

theorem ends_request {o : S.Op} {t : List (Exchange S)} {r : S.Reply o} :
    (request o).Ends t r ↔ t = [⟨o, r⟩] := by
  simp only [request, ends_op, ends_pure]
  constructor
  · rintro ⟨r', _, rfl, rfl, rfl⟩
    rfl
  · rintro rfl
    exact ⟨r, [], rfl, rfl, rfl⟩

theorem ends_request_bind {o : S.Op} {k : S.Reply o → Prog S α} {t : List (Exchange S)} {a : α} :
    (request o >>= k).Ends t a ↔ ∃ r t', t = ⟨o, r⟩ :: t' ∧ (k r).Ends t' a :=
  ends_op

/-- The answers decide the way: two ways that begin alike are one. -/
theorem Ends.unique {p : Prog S α} {t1 t2 t3 t4 : List (Exchange S)} {a b : α} (h1 : p.Ends t1 a)
    (h3 : p.Ends t3 b) (heq : t1 ++ t2 = t3 ++ t4) : t1 = t3 ∧ t2 = t4 ∧ a = b := by
  induction h1 generalizing t3 with
  | pure a =>
    obtain ⟨rfl, rfl⟩ := ends_pure.mp h3
    exact ⟨rfl, heq, rfl⟩
  | op _ ih =>
    obtain ⟨r, t5, rfl, h5⟩ := ends_op.mp h3
    obtain ⟨hfirst, hrest⟩ := List.cons.inj heq
    cases hfirst
    obtain ⟨rfl, rfl, rfl⟩ := ih h5 hrest
    exact ⟨rfl, rfl, rfl⟩

/-- The requests that `p` makes of `device` from a state, as far as it answers them. -/
def requests (device : Device S σ) : Prog S α → σ → List (Exchange S)
  | .pure _, _ => []
  | .op o next, s =>
    match device o s with
    | some (r, s) => ⟨o, r⟩ :: (next r).requests device s
    | none => []
  | .wedged, _ => []

/-- What a program does on a device is one of the ways in which it can end. -/
theorem ends_of_run {device : Device S σ} {p : Prog S α} {s s' : σ} {a : α}
    (h : p.run device s = some (a, s')) : p.Ends (p.requests device s) a := by
  induction p generalizing s with
  | pure b =>
    obtain ⟨rfl, rfl⟩ : b = a ∧ s = s' := by simpa [run] using h
    exact .pure b
  | op o next ih =>
    cases hd : device o s with
    | none => simp [run, hd] at h
    | some answer =>
      simp only [run, hd] at h
      simp only [requests, hd]
      exact .op (ih _ h)
  | wedged => simp [run] at h

/-- From the state `s` on the device gives the answers of `t`, and it is in the state `s'` after
them. -/
inductive Gives (device : Device S σ) : List (Exchange S) → σ → σ → Prop
  | nil (s : σ) : Gives device [] s s
  | cons {o : S.Op} {r : S.Reply o} {t : List (Exchange S)} {s s1 s' : σ} :
    device o s = some (r, s1) → Gives device t s1 s' → Gives device (⟨o, r⟩ :: t) s s'

theorem Gives.append {device : Device S σ} {t1 t2 : List (Exchange S)} {s s1 s' : σ}
    (h1 : Gives device t1 s s1) (h2 : Gives device t2 s1 s') : Gives device (t1 ++ t2) s s' := by
  induction h1 with
  | nil => exact h2
  | cons hanswer _ ih => exact .cons hanswer (ih h2)

/-- A device that gives the answers of a way makes the program end in this way. -/
theorem Ends.run {device : Device S σ} {p : Prog S α} {t : List (Exchange S)} {a : α} {s s' : σ}
    (h : p.Ends t a) (hgives : Gives device t s s') : p.run device s = some (a, s') := by
  induction h generalizing s with
  | pure a =>
    cases hgives
    rfl
  | op _ ih =>
    cases hgives with
    | cons hanswer hrest =>
      rw [Prog.run, hanswer]
      exact ih hrest

theorem run_request (device : Device S σ) (o : S.Op) (s : σ) :
    (request o).run device s = device o s := by
  cases hd : device o s with
  | none => simp [request, run, hd]
  | some answer => simp [request, run, hd]

/-- A sequence runs its second part from the state in which its first part leaves the device. -/
theorem run_bind (device : Device S σ) (p : Prog S α) (k : α → Prog S β) (s : σ) :
    (p >>= k).run device s = (p.run device s).bind fun r => (k r.1).run device r.2 := by
  induction p generalizing s with
  | pure => rfl
  | op o next ih =>
    cases hd : device o s with
    | none => simp [run, hd]
    | some answer => simp [run, hd, ih]
  | wedged => rfl

/-- The requests of a sequence are those of its first part and then, where that ends, those of the
second. -/
theorem requests_bind (device : Device S σ) (p : Prog S α) (k : α → Prog S β) (s : σ) :
    (p >>= k).requests device s =
      p.requests device s ++ (p.run device s).elim [] fun r => (k r.1).requests device r.2 := by
  induction p generalizing s with
  | pure => rfl
  | op o next ih =>
    cases hd : device o s with
    | none => simp [requests, run, hd]
    | some answer => simp [requests, run, hd, ih]
  | wedged => rfl

theorem run_bind_eq_some {device : Device S σ} {p : Prog S α} {k : α → Prog S β} {s s' : σ}
    {b : β} : (p >>= k).run device s = some (b, s') ↔
      ∃ a s1, p.run device s = some (a, s1) ∧ (k a).run device s1 = some (b, s') := by
  rw [run_bind, Option.bind_eq_some_iff, Prod.exists]

/-- A translated program runs as the program itself does where the translation answers it. -/
theorem run_translate {T : Signature} (h : (o : S.Op) → Prog T (S.Reply o)) (device : Device T σ)
    (p : Prog S α) (s : σ) :
    (p.translate h).run device s = p.run (fun o => (h o).run device) s := by
  induction p generalizing s with
  | pure => rfl
  | op o next ih =>
    show (h o >>= fun r => (next r).translate h).run device s = _
    rw [run_bind, run]
    cases (h o).run device s with
    | none => rfl
    | some answer => exact ih answer.1 answer.2
  | wedged => rfl

end Prog

end Peripherals
