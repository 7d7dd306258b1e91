/-! Programs that drive hardware. A program is a tree of requests to the machine it runs on: it
has ended, or it makes a request and goes on with the answer, or it never ends. The machine is not
part of a program, so a statement about every machine is a statement about every choice of
answers. -/

namespace Peripherals

/-- The requests that a program can make and the type of the answer to each. -/
structure Signature where
  Op : Type
  Reply : Op → Type

/-- A program over the requests of `S` with result type `α`. -/
inductive Prog (S : Signature) (α : Type) where
  /-- The program has ended. -/
  | pure (result : α)
  /-- The program makes the request `o` and goes on with the answer. -/
  | op (o : S.Op) (next : S.Reply o → Prog S α)
  /-- The program never ends: it has polled for longer than it was allowed to, or it has stopped at
  a fault. -/
  | wedged

namespace Prog

variable {S T : Signature} {α β : Type}

/-- The program `p`, followed by `k` on its result. -/
def bind : Prog S α → (α → Prog S β) → Prog S β
  | .pure a, k => k a
  | .op o next, k => .op o fun r => (next r).bind k
  | .wedged, _ => .wedged

instance : Monad (Prog S) where
  pure := Prog.pure
  bind := Prog.bind

@[simp] theorem pure_eq (a : α) : (Pure.pure a : Prog S α) = .pure a := rfl

@[simp] theorem pure_bind (a : α) (k : α → Prog S β) : (Prog.pure a >>= k) = k a := rfl

@[simp] theorem op_bind (o : S.Op) (next : S.Reply o → Prog S α) (k : α → Prog S β) :
    (Prog.op o next >>= k) = .op o fun r => next r >>= k := rfl

@[simp] theorem wedged_bind (k : α → Prog S β) : ((.wedged : Prog S α) >>= k) = .wedged := rfl

theorem bind_pure (p : Prog S α) : (p >>= Prog.pure) = p := by
  induction p with
  | pure => rfl
  | op o next ih => exact congrArg (Prog.op o) (funext ih)
  | wedged => rfl

theorem bind_assoc {γ : Type} (p : Prog S α) (f : α → Prog S β) (g : β → Prog S γ) :
    (p >>= f) >>= g = p >>= fun a => f a >>= g := by
  induction p with
  | pure => rfl
  | op o next ih => exact congrArg (Prog.op o) (funext ih)
  | wedged => rfl

instance : LawfulMonad (Prog S) :=
  LawfulMonad.mk' _ bind_pure (fun _ _ => rfl) bind_assoc

def request (o : S.Op) : Prog S (S.Reply o) := .op o .pure

/-- The program `p` in the monad `m`, where `h o` carries out a request `o`, and `stuck` stands for
a wait that never ends. -/
def interpret {m : Type → Type} [Monad m] (stuck : ∀ β, m β) (h : (o : S.Op) → m (S.Reply o)) :
    Prog S α → m α
  | .pure a => Pure.pure a
  | .op o next => h o >>= fun r => (next r).interpret stuck h
  | .wedged => stuck α

/-- The program over `T` that carries out each request `o` of `p` by the program `h o`. -/
def translate (h : (o : S.Op) → Prog T (S.Reply o)) (p : Prog S α) : Prog T α :=
  p.interpret (fun _ => .wedged) h

end Prog

/-- A machine with states `σ` that answers the requests of `S`. `none` stands for an answer that
never comes. -/
abbrev Device (S : Signature) (σ : Type) := (o : S.Op) → σ → Option (S.Reply o × σ)

/-- The result of `p` on `device` from a state, with the state that it leaves behind. -/
def Prog.run {S : Signature} {α σ : Type} (device : Device S σ) : Prog S α → σ → Option (α × σ)
  | .pure a, s => some (a, s)
  | .op o next, s =>
    match device o s with
    | some (r, s) => (next r).run device s
    | none => none
  | .wedged, _ => none

end Peripherals
