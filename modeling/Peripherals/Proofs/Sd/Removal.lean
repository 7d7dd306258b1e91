import Peripherals.Proofs.Sd.Gate
import Peripherals.Proofs.Sd.Operation

/-! What becomes of a card's removal. The interrupt status holds it until it is cleared. A sweep
records it before it clears it, and an enumeration clears it unseen. -/

namespace Peripherals.Sd

open RegisterBlock (read write)

variable {config : Config} {d d' : Driver} {t : History}

/-- Whether the request clears a pending removal: it acknowledges it, or resets the whole
controller. -/
def clearsRemoval : Exchange port → Bool
  | writeOf .interrupt v => hasBits v Interrupt.cardRemoval
  | writeOf .control1 v => hasBits v Control1.resetHost
  | _ => false

/-- Whether the request clears everything that is pending, whatever it is. -/
def clearsAll : Exchange port → Bool
  | writeOf .interrupt v => v == 0xFFFFFFFF
  | writeOf .control1 v => hasBits v Control1.resetHost
  | _ => false

/-- Whether the request, if it samples the interrupt status, shows a removal exactly where one is
pending. -/
def showsRemoval (pending : Bool) : Exchange port → Bool
  | readOf .interrupt v => hasBits v Interrupt.cardRemoval == pending
  | _ => true

/-- What a history can show of a controller that has a removal pending before it, or not. A card can
be removed at any time, and what is pending shows in every sample until it is cleared. -/
inductive Latch : (pending : Bool) → History → Prop
  | nil (p : Bool) : Latch p []
  | removed {p : Bool} {t : History} : Latch true t → Latch p t
  | cleared {p : Bool} {e : Exchange port} {t : History} :
    clearsRemoval e = true → Latch false t → Latch p (e :: t)
  | kept {p : Bool} {e : Exchange port} {t : History} :
    clearsRemoval e = false → showsRemoval p e = true → Latch p t → Latch p (e :: t)

section Latch

variable {p : Bool} {v : UInt32} {e : Exchange port} {l : History}

theorem Latch.tail (h : Latch p l) (hp : p = true) (hl : l = e :: t)
    (he : clearsRemoval e = false) : Latch true t := by
  induction h with
  | nil => nomatch hl
  | removed _ ih => exact ih rfl hl
  | cleared hc =>
    obtain ⟨rfl, -⟩ := List.cons.inj hl
    simp [hc] at he
  | kept _ _ h =>
    obtain ⟨-, rfl⟩ := List.cons.inj hl
    rwa [← hp]

theorem Latch.stays {t' : History} (h : Latch true (t ++ t'))
    (ht : ∀ e ∈ t, clearsRemoval e = false) : Latch true t' := by
  induction t with
  | nil => exact h
  | cons e t ih =>
    rw [List.forall_mem_cons] at ht
    exact ih (h.tail rfl rfl ht.1) ht.2

theorem Latch.shows (h : Latch p l) (hp : p = true) (hl : l = readOf .interrupt v :: t) :
    hasBits v Interrupt.cardRemoval = true := by
  induction h with
  | nil => nomatch hl
  | removed _ ih => exact ih rfl hl
  | cleared hc =>
    obtain ⟨rfl, -⟩ := List.cons.inj hl
    nomatch hc
  | kept _ hshows =>
    obtain ⟨rfl, -⟩ := List.cons.inj hl
    rw [eq_of_beq hshows, hp]

/-- A history in which every sample shows the same can be that of a controller on which it is so. -/
theorem latch_of_all (h : t.all (showsRemoval p) = true) : Latch p t := by
  induction t with
  | nil => exact .nil p
  | cons e t ih =>
    rw [List.all_cons, Bool.and_eq_true] at h
    cases hc : clearsRemoval e with
    | false => exact .kept hc h.1 (ih h.2)
    | true =>
      refine .cleared hc ?_
      cases p with
      | false => exact ih h.2
      | true => exact .removed (ih h.2)

end Latch

/-! What every step records. -/

section Record

/-- A change of the medium is recorded exactly where it was before or a removal is noticed, and a
removal that is cleared is recorded, unless everything is cleared. -/
structure RecordsRemoval (d : Driver) (t : History) (d' : Driver) : Prop where
  changed : d'.mediaChanged = true ↔ d.mediaChanged = true ∨ noteOf .removed ∈ t
  cleared : ∀ e ∈ t, clearsRemoval e = true → clearsAll e = false → d'.mediaChanged = true

theorem Quiet.clearsAll {e : Exchange port} (he : Quiet e) (hc : clearsRemoval e = true) :
    clearsAll e = true := by
  obtain ⟨r | ⟨r, v⟩ | _ | _ | _ | _, _⟩ := e
  case write =>
    cases r with
    | interrupt => exact absurd hc (Bool.eq_false_iff.mp he)
    | control1 => exact hc
    | _ => nomatch hc
  all_goals nomatch hc

theorem recordsRemoval_same (hsame : d'.mediaChanged = d.mediaChanged)
    (hnote : noteOf .removed ∉ t) (hall : ∀ e ∈ t, clearsRemoval e = true → clearsAll e = true) :
    RecordsRemoval d t d' where
  changed := by simp [hsame, hnote]
  cleared e he hc hpart := by simp [hall e he hc] at hpart

theorem keepsIssue_recordsRemoval : KeepsIssue RecordsRemoval where
  refl d := recordsRemoval_same rfl (by simp) (by simp)
  trans h1 h2 := by
    refine ⟨?_, fun e he hc hw => ?_⟩
    · rw [h2.changed, h1.changed, List.mem_append, or_assoc]
    · rcases List.mem_append.mp he with he | he
      · exact h2.changed.mpr (.inl (h1.cleared e he hc hw))
      · exact h2.cleared e he hc hw
  quiet d e he := by
    refine recordsRemoval_same rfl ?_ ?_
    · rintro (_ | ⟨_, hnone⟩)
      · exact he
      · nomatch hnone
    · simpa using he.clearsAll
  last d o := recordsRemoval_same rfl (by simp) (by simp)
  command d w := recordsRemoval_same rfl (by simp) (by simp [clearsRemoval])
  received d v := recordsRemoval_same rfl (by simp) (by simp [clearsRemoval])
  noticed d := ⟨by simp, fun _ _ _ _ => rfl⟩
  acknowledged d v hd := ⟨by simp [hd], fun _ _ _ _ => hd⟩
  forgotten d _ := recordsRemoval_same rfl (by simp) (by simp)

theorem keepsCard_recordsRemoval : KeepsCard RecordsRemoval :=
  keepsIssue_recordsRemoval.keepsCard fun _ _ _ => recordsRemoval_same rfl (by simp) (by simp)

theorem keepsReset_recordsRemoval : KeepsReset RecordsRemoval where
  toKeepsCard := keepsCard_recordsRemoval
  addressed d rca _ := recordsRemoval_same rfl (by simp) (by simp)
  dropped d := recordsRemoval_same rfl (by simp) (by simp)
  switched d := recordsRemoval_same rfl (by simp) (by simp)
  cleared d := recordsRemoval_same rfl (by simp) (by simp [clearsAll])
  fresh d base := recordsRemoval_same rfl (by simp) (by simp)
  scr := keepsCard_recordsRemoval.readScr fun _ _ => recordsRemoval_same rfl (by simp) (by simp)

/-- Only an operation that asks for a change forgets that the medium has changed. -/
theorem step_recordsRemoval {o : Operation} {a : o.Answer} (hasked : o.asksForChange = false)
    (h : Runs (o.step config) d t a d') : RecordsRemoval d t d' := by
  refine keepsReset_recordsRemoval.step (keepsIssue_recordsRemoval.keepsData fun d v => ?_) config
    (fun _ d => ?_) (fun hasks => ?_) h
  · exact recordsRemoval_same rfl (by simp) (by simp [clearsRemoval])
  · exact recordsRemoval_same rfl (by simp) (by simp)
  · simp [hasked] at hasks

end Record

/-! What the driver answers. -/

section Answer

/-- Whether the answer says that the medium has changed. -/
def Operation.answersChange : (o : Operation) → o.Answer → Bool
  | .ioctl _ _, .ok (.mediaChange .changed) => true
  | _, _ => false

/-- A change of the medium is recorded, or the operation itself has answered that there was one. -/
def Recorded (o : Operation) (a : o.Answer) (d' : Driver) : Prop :=
  d'.mediaChanged = true ∨ o.answersChange a = true

theorem ioctl_answersChange {device : UInt16} {request : IoctlRequest}
    {a : Except BiosError IoctlResponse} :
    (Operation.ioctl device request).answersChange a = true ↔ a = .ok (.mediaChange .changed) := by
  rcases a with e | (_ | _ | (_ | _)) <;> simp [Operation.answersChange]

/-- The question for a change is answered with what is recorded when the gate has been passed. -/
theorem mediaChange_runs {a : Except BiosError IoctlResponse}
    (h : Runs (ioctl config 0 .mediaChange) d t a d') :
    ∃ d1, RecordsRemoval d t d1 ∧ d'.cardRemoved = d1.cardRemoved ∧ d'.mediaChanged = false ∧
      (a = .ok (.mediaChange .changed) ↔ d1.mediaChanged = true ∨ d'.cardRemoved = true) := by
  obtain ⟨t1, t2, r, d1, rfl, hgate, hquiet, ⟨hother, -⟩ | ⟨-, rfl, rfl⟩⟩ := ioctl_runs h
  · exact absurd rfl hother
  have hrecords : RecordsRemoval d t1 d1 :=
    (keepsReset_recordsRemoval.ensureDataMode config).acts hgate
  refine ⟨d1, ?_, rfl, rfl, ?_⟩
  · exact keepsReset_recordsRemoval.trans hrecords (keepsReset_recordsRemoval.quietAll d1 hquiet)
  · cases d1.cardRemoved <;> cases d1.mediaChanged <;> simp

theorem answersChange_asks {o : Operation} {a : o.Answer} (h : Runs (o.step config) d t a d')
    (ha : o.answersChange a = true) : o.asksForChange = true := by
  cases o with
  | ioctl device request =>
    obtain rfl := ioctl_answersChange.mp ha
    by_cases hdevice : device = 0
    · subst hdevice
      obtain ⟨t1, t2, r, d1, -, -, -, ⟨-, -, hnone, -⟩ | ⟨rfl, -⟩⟩ := ioctl_runs h
      · exact absurd rfl (hnone .changed)
      · rfl
    · have h1 : Runs (ioctl config device request) d t _ d' := h
      rw [ioctl, if_pos hdevice] at h1
      obtain ⟨-, hrefused, -⟩ := runs_pure.mp h1
      exact absurd hrefused (by simp)
  | _ => exact absurd ha Bool.false_ne_true

/-- A change is recorded after an operation exactly where it was before, or a removal is noticed, or
the operation asks for it while the card is known to be removed. -/
theorem step_recorded {o : Operation} {a : o.Answer} (h : Runs (o.step config) d t a d') :
    (Recorded o a d' ↔ d.mediaChanged = true ∨ noteOf .removed ∈ t ∨
      o.asksForChange = true ∧ d'.cardRemoved = true) ∧
    ∀ e ∈ t, clearsRemoval e = true → clearsAll e = false → Recorded o a d' := by
  cases hasked : o.asksForChange with
  | false =>
    have hrecords := step_recordsRemoval hasked h
    have hanswer : ¬o.answersChange a = true := fun ha => by
      simp [answersChange_asks h ha] at hasked
    refine ⟨?_, fun e he hc hw => .inl (hrecords.cleared e he hc hw)⟩
    rw [Recorded, hrecords.changed]
    simp [hanswer]
  | true =>
    cases o with
    | ioctl device request =>
      cases request with
      | mediaChange =>
        obtain rfl : device = 0 := eq_of_beq hasked
        obtain ⟨d1, hrecords, -, hforgotten, hanswer⟩ := mediaChange_runs h
        have hrecorded : Recorded (.ioctl 0 .mediaChange) a d' ↔
            d1.mediaChanged = true ∨ d'.cardRemoved = true := by
          rw [Recorded, hforgotten, ioctl_answersChange, hanswer]
          simp
        refine ⟨?_, fun e he hc hw => hrecorded.mpr (.inl (hrecords.cleared e he hc hw))⟩
        rw [hrecorded, hrecords.changed, or_assoc]
        simp
      | _ => exact absurd hasked Bool.false_ne_true
    | _ => exact absurd hasked Bool.false_ne_true

end Answer

/-! A removal between two operations, or during one. -/

section Session

theorem Session.recordsRemoval {os : List Operation}
    (hasked : ∀ o ∈ os, o.asksForChange = false) (h : Session config d os t d') :
    RecordsRemoval d t d' :=
  h.keeps keepsReset_recordsRemoval.toComposes fun o ho _ _ _ _ => step_recordsRemoval (hasked o ho)

theorem hasBits_resetHost (v : UInt32) :
    hasBits ((v ||| Control1.resetHost) &&& ~~~(Control1.cardClock ||| Control1.internalClock))
      Control1.resetHost = true := by
  have hmask : ~~~(Control1.cardClock ||| Control1.internalClock) &&& Control1.resetHost =
      Control1.resetHost := rfl
  have hbit : hasBits Control1.resetHost Control1.resetHost = true := rfl
  rw [hasBits_and, hmask, hasBits_or, hbit, Bool.or_true]

theorem ResetsHost.clearsAll (h : ResetsHost t) : ∃ e ∈ t, clearsAll e = true := by
  obtain ⟨v, rfl⟩ := h
  exact ⟨_, List.mem_cons_of_mem _ (List.mem_singleton.mpr rfl), hasBits_resetHost v⟩

theorem ResetsHost.clearsRemoval (h : ResetsHost t) : ∃ e ∈ t, clearsRemoval e = true := by
  obtain ⟨v, rfl⟩ := h
  exact ⟨_, List.mem_cons_of_mem _ (List.mem_singleton.mpr rfl), hasBits_resetHost v⟩

/-- A removal that is pending before a reset of the controller need not show after it. -/
theorem ResetsHost.latch {t' : History} (h : ResetsHost t)
    (ht : t'.all (showsRemoval false) = true) : Latch true (t ++ t') := by
  obtain ⟨v, rfl⟩ := h
  exact .kept rfl rfl (.cleared (hasBits_resetHost v) (latch_of_all ht))

/-- A removal that is pending when a change is asked for is answered, unless everything is cleared.
-/
theorem mediaChange_pending {a : Except BiosError IoctlResponse}
    (h : Runs (ioctl config 0 .mediaChange) d t a d') (hlatch : Latch true t)
    (hkept : ∀ e ∈ t, clearsAll e = false) : a = .ok (.mediaChange .changed) := by
  obtain ⟨d1, hrecords, -, -, hanswer⟩ := mediaChange_runs h
  obtain ⟨t1, t2, r, d2, rfl, hgate, -⟩ := ioctl_runs h
  obtain ⟨t3, t4, rfl, hopens⟩ := ensureDataMode_begins hgate
  by_cases hzero : d.card.rca = 0
  · obtain ⟨e, he, hall⟩ := (hopens.unaddressed hzero).clearsAll
    simp [hkept e (by simp [he])] at hall
  · obtain ⟨v, t5, rfl, hnotes⟩ := hopens.addressed hzero
    have hnoted := hnotes (hlatch.shows rfl rfl)
    refine hanswer.mpr (.inl (hrecords.changed.mpr (.inr ?_)))
    simp [hnoted]

end Session

/-- Where a removal of the card is recorded. After an operation it is recorded exactly where it was
before or a sweep notices it, and it is always noticed before it is acknowledged. The first question
for a change after a removal is answered by it, unless the whole interrupt status is cleared before
a sweep has noticed one. -/
theorem removal_recorded (config : Config) :
    (∀ (o : Operation) (d d' : Driver) (t : History) (a : o.Answer), Runs (o.step config) d t a d' →
      (Recorded o a d' ↔ d.mediaChanged = true ∨ noteOf .removed ∈ t ∨
        o.asksForChange = true ∧ d'.cardRemoved = true) ∧
      ∀ e ∈ t, clearsRemoval e = true → clearsAll e = false → Recorded o a d') ∧
    ∀ (os : List Operation) (d d1 d' : Driver) (t1 t2 t : History)
      (a : Except BiosError IoctlResponse), Session config d os (t1 ++ t2) d1 →
      (∀ o ∈ os, o.asksForChange = false) → Runs (ioctl config 0 .mediaChange) d1 t a d' →
      (a = .ok (.mediaChange .changed) ↔ d.mediaChanged = true ∨ noteOf .removed ∈ t1 ++ t2 ++ t ∨
        d'.cardRemoved = true) ∧
      (Latch true (t2 ++ t) → (∀ before e after, t2 ++ t = before ++ e :: after →
          clearsAll e = true → noteOf .removed ∈ before) →
        a = .ok (.mediaChange .changed)) := by
  refine ⟨fun o d d' t a h => step_recorded h, fun os d d1 d' t1 t2 t a hs hasked h => ?_⟩
  have hsession := hs.recordsRemoval hasked
  obtain ⟨d2, hrecords, -, -, hanswer⟩ := mediaChange_runs h
  have hexact : a = .ok (.mediaChange .changed) ↔ d.mediaChanged = true ∨
      noteOf .removed ∈ t1 ++ t2 ++ t ∨ d'.cardRemoved = true := by
    simp only [hanswer, hrecords.changed, hsession.changed, List.mem_append, or_assoc]
  refine ⟨hexact, fun hlatch hbefore => ?_⟩
  by_cases hnoted : noteOf .removed ∈ t2 ++ t
  · refine hexact.mpr (.inr (.inl ?_))
    rw [List.append_assoc]
    exact List.mem_append_right t1 hnoted
  have hkept : ∀ e ∈ t2 ++ t, clearsAll e = false := by
    refine fun e he => Bool.eq_false_iff.mpr fun hall => hnoted ?_
    obtain ⟨before, after, hsplit⟩ := List.append_of_mem he
    rw [hsplit]
    exact List.mem_append_left _ (hbefore before e after hsplit hall)
  rw [List.forall_mem_append] at hkept
  by_cases hcleared : ∃ e ∈ t2, clearsRemoval e = true
  · -- What is cleared within the session has been recorded by it.
    obtain ⟨e, he, hc⟩ := hcleared
    have hchanged : d1.mediaChanged = true :=
      hsession.cleared e (List.mem_append_right t1 he) hc (hkept.1 e he)
    exact hanswer.mpr (.inl (hrecords.changed.mpr (.inl hchanged)))
  · refine mediaChange_pending h (hlatch.stays fun e he => ?_) hkept.2
    exact Bool.eq_false_iff.mpr fun hc => hcleared ⟨e, he, hc⟩

/-- A question for a change while a removal is pending, with no reset. -/
theorem removal_recorded_pending :
    ∃ t a d', Runs (ioctl {} 0 .mediaChange) { card := { rca := 1 } } t a d' ∧ Latch true t ∧
      (∀ e ∈ t, clearsAll e = false) ∧ a = .ok (.mediaChange .changed) := by
  obtain ⟨t, a, d', hrun, hpending⟩ : ∃ t a d',
      Runs (ioctl {} 0 .mediaChange) { card := { rca := 1 } } t a d' ∧
      t.all (fun e => showsRemoval true e && !clearsAll e) = true :=
    exists_runs (P := fun t _ _ => t.all fun e => showsRemoval true e && !clearsAll e)
      (by decide +kernel : ((Prog.run (promptCard [] Interrupt.cardRemoval)
        ((ioctl {} 0 .mediaChange).run { card := { rca := 1 } }) 0).any _) = true)
  have hlatch : Latch true t := latch_of_all (List.all_eq_true.mpr fun e he =>
    (Bool.and_eq_true_iff.mp (List.all_eq_true.mp hpending e he)).1)
  have hkept : ∀ e ∈ t, clearsAll e = false := fun e he =>
    (Bool.not_eq_true' _).mp (Bool.and_eq_true_iff.mp (List.all_eq_true.mp hpending e he)).2
  obtain ⟨-, hchanged⟩ :=
    (removal_recorded {}).2 [] _ _ d' [] [] t a (.nil { card := { rca := 1 } }) (by simp) hrun
  refine ⟨t, a, d', hrun, hlatch, hkept, hchanged hlatch fun before e after hsplit hall => ?_⟩
  have he : e ∈ [] ++ t := by
    rw [hsplit]
    exact List.mem_append_right before List.mem_cons_self
  simp [hkept e he] at hall

/-- A card that is removed before a reset is not noticed, and the next question for a change is
answered that there was none. -/
theorem removal_lost :
    (¬ ∀ (config : Config) (o : Operation) (d d' : Driver) (t1 t2 : History) (a : o.Answer),
      Reachable config d → Runs (o.step config) d (t1 ++ t2) a d' → Latch true t2 →
      (∃ e ∈ t2, clearsRemoval e = true) → Recorded o a d') ∧
    ¬ ∀ (config : Config) (os : List Operation) (d d' : Driver) (t1 t2 t : History)
      (a : Except BiosError IoctlResponse), Session config {} os (t1 ++ t2) d →
      (∀ o ∈ os, o.asksForChange = false) → Runs (ioctl config 0 .mediaChange) d t a d' →
      Latch true (t2 ++ t) → a = .ok (.mediaChange .changed) := by
  obtain ⟨_, a, d', hrun, hunseen⟩ : ∃ t a d', Runs (do
        let _ ← (cardReset {}).run
        ioctl {} 0 .mediaChange) {} t a d' ∧
      (t.all (showsRemoval false) && !Operation.answersChange (.ioctl 0 .mediaChange) a) = true :=
    exists_runs (P := fun t a _ =>
        t.all (showsRemoval false) && !Operation.answersChange (.ioctl 0 .mediaChange) a)
      (by decide +kernel : ((Prog.run (promptCard [.ioSetOpCond]) ((do
        let _ ← (cardReset {}).run
        ioctl {} 0 .mediaChange : Step _).run {}) 0).any _) = true)
  obtain ⟨t1, t2, r, d, rfl, hreset, hasks⟩ := runs_bind.mp hrun
  obtain ⟨d1, hrecords, -, -, hanswer⟩ := mediaChange_runs hasks
  obtain ⟨t3, t4, rfl, hhost⟩ := cardReset_begins hreset
  rw [Bool.and_eq_true, Bool.not_eq_true', List.append_assoc, List.all_append, Bool.and_eq_true]
    at hunseen
  obtain ⟨⟨-, hshows⟩, hunchanged⟩ := hunseen
  have hother : a ≠ .ok (.mediaChange .changed) := by
    rintro rfl
    nomatch hunchanged
  have hlost : ¬d.mediaChanged = true :=
    fun hchanged => hother (hanswer.mpr (.inl (hrecords.changed.mpr (.inl hchanged))))
  constructor
  · intro hrecorded
    obtain ⟨e, he, hc⟩ := hhost.clearsRemoval
    rw [List.all_append, Bool.and_eq_true] at hshows
    rcases hrecorded {} .cardReset {} d [] (t3 ++ t4) r (reachable_start {}) hreset
      (hhost.latch hshows.1) ⟨e, List.mem_append_left t4 he, hc⟩ with hchanged | hchange
    · exact hlost hchanged
    · nomatch hchange
  · intro hreported
    have hsession : Session {} {} [.cardReset] ([] ++ (t3 ++ t4)) d := by
      have hcons := Session.cons (o := .cardReset) hreset (.nil d)
      rwa [List.append_nil] at hcons
    refine hother (hreported {} _ d d' [] (t3 ++ t4) t2 a hsession
      (by simp [Operation.asksForChange]) hasks ?_)
    rw [List.append_assoc]
    exact hhost.latch hshows

end Peripherals.Sd
