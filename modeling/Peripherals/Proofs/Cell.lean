import Peripherals.Proofs.Run

/-! Words of a machine that read back as they were last written. The machine answers as it likes
elsewhere, so the assumption is one about the way in which a program ends. -/

namespace Peripherals

/-- Where a word is read and written: the exchanges that do so, with the word. -/
structure Cell (S : Signature) where
  read? : Exchange S → Option UInt32
  write? : Exchange S → Option UInt32

namespace Cell

variable {S : Signature} {c : Cell S} {e : Exchange S} {t t1 t2 : List (Exchange S)}
  {value : UInt32}

/-- The word after the exchanges of `t`, where it was `value` before them. -/
def after (c : Cell S) (value : UInt32) : List (Exchange S) → UInt32
  | [] => value
  | e :: t => c.after ((c.write? e).getD value) t

/-- Every read gives the word as it was last written, or `value` before the first write. -/
def ReadsBack (c : Cell S) (value : UInt32) : List (Exchange S) → Prop
  | [] => True
  | e :: t => (c.read? e).getD value = value ∧ c.ReadsBack ((c.write? e).getD value) t

instance ReadsBack.decidable (c : Cell S) :
    (value : UInt32) → (t : List (Exchange S)) → Decidable (c.ReadsBack value t)
  | _, [] => .isTrue trivial
  | value, e :: t =>
    have := decidable c ((c.write? e).getD value) t
    inferInstanceAs (Decidable (_ ∧ _))

theorem after_append : c.after value (t1 ++ t2) = c.after (c.after value t1) t2 := by
  induction t1 generalizing value with
  | nil => rfl
  | cons e t ih => exact ih

theorem after_eq (h : ∀ e ∈ t, c.write? e = none) : c.after value t = value := by
  induction t with
  | nil => rfl
  | cons e t ih =>
    rw [List.forall_mem_cons] at h
    rw [after, h.1]
    exact ih h.2

theorem readsBack_append :
    c.ReadsBack value (t1 ++ t2) ↔ c.ReadsBack value t1 ∧ c.ReadsBack (c.after value t1) t2 := by
  induction t1 generalizing value with
  | nil => simp [ReadsBack, after]
  | cons e t ih => simp [ReadsBack, after, ih, and_assoc]

end Cell

end Peripherals
