import Peripherals.Proofs.Total
import Peripherals.Proofs.Visits

/-! The ways in which a program can begin. A program that waits for something that never comes does
not end, and still has made requests; what holds of every beginning holds of these too. -/

namespace Peripherals.Prog

variable {S : Signature} {α β σ : Type} {p : Prog S α} {t : List (Exchange S)}

/-- `p.Begins t`: the program `p` can make the requests of `t`, with their answers, and then it may
make more. -/
inductive Begins : Prog S α → List (Exchange S) → Prop
  | nil (p : Prog S α) : Begins p []
  | op {o : S.Op} {next : S.Reply o → Prog S α} {r : S.Reply o} {t : List (Exchange S)} :
    Begins (next r) t → Begins (.op o next) (⟨o, r⟩ :: t)

theorem begins_pure {a : α} : (Prog.pure a : Prog S α).Begins t ↔ t = [] := by
  constructor
  · rintro ⟨⟩
    rfl
  · rintro rfl
    exact .nil _

theorem begins_wedged : (Prog.wedged : Prog S α).Begins t ↔ t = [] := by
  constructor
  · rintro ⟨⟩
    rfl
  · rintro rfl
    exact .nil _

theorem begins_op {o : S.Op} {next : S.Reply o → Prog S α} :
    (Prog.op o next).Begins t ↔ t = [] ∨ ∃ r t', t = ⟨o, r⟩ :: t' ∧ (next r).Begins t' := by
  constructor
  · rintro (_ | h)
    · exact .inl rfl
    · exact .inr ⟨_, _, rfl, h⟩
  · rintro (rfl | ⟨r, t', rfl, h⟩)
    · exact .nil _
    · exact .op h

theorem begins_request_bind {o : S.Op} {k : S.Reply o → Prog S α} :
    (request o >>= k).Begins t ↔ t = [] ∨ ∃ r t', t = ⟨o, r⟩ :: t' ∧ (k r).Begins t' :=
  begins_op

/-- A sequence is still in its first part, or its second part has begun. -/
theorem begins_bind {k : α → Prog S β} :
    (p >>= k).Begins t ↔ p.Begins t ∨ ∃ t1 t2 a, t = t1 ++ t2 ∧ p.Ends t1 a ∧ (k a).Begins t2 := by
  induction p generalizing t with
  | pure a =>
    simp only [pure_bind, begins_pure, ends_pure]
    constructor
    · exact fun h => .inr ⟨[], t, a, rfl, ⟨rfl, rfl⟩, h⟩
    · rintro (rfl | ⟨_, t2, _, rfl, ⟨rfl, rfl⟩, h⟩)
      · exact .nil _
      · exact h
  | op o next ih =>
    simp only [op_bind, begins_op, ih, ends_op]
    constructor
    · rintro (rfl | ⟨r, _, rfl, h | ⟨t1, t2, a, rfl, h1, h2⟩⟩)
      · exact .inl (.inl rfl)
      · exact .inl (.inr ⟨r, _, rfl, h⟩)
      · exact .inr ⟨⟨o, r⟩ :: t1, t2, a, rfl, ⟨r, t1, rfl, h1⟩, h2⟩
    · rintro ((rfl | ⟨r, t', rfl, h⟩) | ⟨_, t2, a, rfl, ⟨r, t1, rfl, h1⟩, h2⟩)
      · exact .inl rfl
      · exact .inr ⟨r, t', rfl, .inl h⟩
      · exact .inr ⟨r, t1 ++ t2, rfl, .inr ⟨t1, t2, a, rfl, h1, h2⟩⟩
  | wedged => simp [begins_wedged, not_ends_wedged]

theorem Ends.begins {a : α} (h : p.Ends t a) : p.Begins t := by
  induction h with
  | pure => exact .nil _
  | op _ ih => exact .op ih

/-- What a program does on a device is one of the ways in which it can begin. -/
theorem begins_requests (device : Device S σ) (p : Prog S α) (s : σ) :
    p.Begins (p.requests device s) := by
  induction p generalizing s with
  | pure => exact .nil _
  | op o next ih =>
    cases hd : device o s with
    | none =>
      simp only [requests, hd]
      exact .nil _
    | some answer =>
      simp only [requests, hd]
      exact .op (ih _ _)
  | wedged => exact .nil _

theorem Within.begins {P : S.Op → Prop} (h : p.Within P) (hb : p.Begins t) :
    ∀ e ∈ t, P e.request := by
  induction h generalizing t with
  | pure =>
    obtain rfl := begins_pure.mp hb
    simp
  | op ho _ ih =>
    obtain rfl | ⟨r, t', rfl, hb'⟩ := begins_op.mp hb
    · simp
    · exact List.forall_mem_cons.mpr ⟨ho, ih r hb'⟩
  | wedged =>
    obtain rfl := begins_wedged.mp hb
    simp

/-- A program that ends whatever it is answered can end however it has begun. -/
theorem Ensures.exists_ends {P : S.Op → Prop} {Q : α → Prop} (h : p.Ensures P Q)
    (hanswer : ∀ o, Nonempty (S.Reply o)) (hb : p.Begins t) : ∃ rest a, p.Ends (t ++ rest) a := by
  induction h generalizing t with
  | @pure a _ =>
    obtain rfl := begins_pure.mp hb
    exact ⟨[], a, .pure a⟩
  | @op o next _ _ ih =>
    obtain rfl | ⟨r, t', rfl, hb'⟩ := begins_op.mp hb
    · obtain ⟨r⟩ := hanswer o
      obtain ⟨rest, a, hends⟩ := ih r (.nil _)
      exact ⟨_, a, .op hends⟩
    · obtain ⟨rest, a, hends⟩ := ih r hb'
      exact ⟨rest, a, .op hends⟩

end Peripherals.Prog
