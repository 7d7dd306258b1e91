import Peripherals.Proofs.Sd.Protocol
import Peripherals.Proofs.Sd.Ready
import Peripherals.Proofs.Sd.RemovedCard

/-! The report of a changed medium. A sweep that samples a removal sets two flags. A reset takes
back that the card is gone, and only the answer to the question for a change takes back that there
is one to report, so every removal that is noticed is reported once, whatever happens in between. -/

namespace Peripherals.Sd

open RegisterBlock (read write)

variable {config : Config} {d d1 d' : Driver} {t t1 t2 : History} {o : Operation}

/-- A sweep within the history samples a removal of the card. -/
def SamplesRemoval (t : History) : Prop :=
  ∃ before sample swept after d1 d2, t = before ++ (readOf .interrupt sample :: swept ++ after) ∧
    Acts sweep d1 (readOf .interrupt sample :: swept) (.ok ()) d2 ∧
    hasBits sample Interrupt.cardRemoval = true

section Samples

theorem SamplesRemoval.append_left (t1 : History) (h : SamplesRemoval t) :
    SamplesRemoval (t1 ++ t) := by
  obtain ⟨before, sample, swept, after, d1, d2, rfl, hsweep⟩ := h
  exact ⟨t1 ++ before, sample, swept, after, d1, d2, by simp, hsweep⟩

theorem SamplesRemoval.append_right (t2 : History) (h : SamplesRemoval t) :
    SamplesRemoval (t ++ t2) := by
  obtain ⟨before, sample, swept, after, d1, d2, rfl, hsweep⟩ := h
  exact ⟨before, sample, swept, after ++ t2, d1, d2, by simp, hsweep⟩

theorem SamplesRemoval.noted (h : SamplesRemoval t) : noteOf .removed ∈ t := by
  obtain ⟨before, sample, swept, after, d1, d2, rfl, hsweep, hbit⟩ := h
  obtain ⟨sample', t', heq, hnotes⟩ := sweep_sweeps hsweep
  obtain ⟨hsample, rfl⟩ := List.cons.inj heq
  obtain rfl : sample = sample' := by simpa using hsample
  simp [hnotes hbit]

/-- A removal that is noted has been sampled by a sweep, and the card is known to be gone only where
it was before, or a removal is noted. -/
structure Notices (d : Driver) (t : History) (d' : Driver) : Prop where
  sampled : noteOf .removed ∈ t → SamplesRemoval t
  gone : d'.cardRemoved = true → d.cardRemoved = true ∨ noteOf .removed ∈ t

theorem notices_same (hsame : d'.cardRemoved = d.cardRemoved) (hnone : noteOf .removed ∉ t) :
    Notices d t d' :=
  ⟨fun hnoted => absurd hnoted hnone, fun hgone => .inl (hsame ▸ hgone)⟩

theorem Notices.trans (h1 : Notices d t1 d1) (h2 : Notices d1 t2 d') : Notices d (t1 ++ t2) d' where
  sampled hnoted := by
    rcases List.mem_append.mp hnoted with hnoted | hnoted
    · exact (h1.sampled hnoted).append_right t2
    · exact (h2.sampled hnoted).append_left t1
  gone hgone := by
    rw [List.mem_append, ← or_assoc]
    exact (h2.gone hgone).imp_left h1.gone

theorem sweep_noticed (h : Acts sweep d t (.ok ()) d') : Notices d t d' := by
  obtain ⟨sample, before, noted, after, rfl, -, hbefore, -, hafter, hnotice⟩ := sweep_notices h
  rcases hnotice with ⟨hbit, rfl, -⟩ | ⟨-, rfl, hsame⟩
  · exact ⟨fun _ => ⟨[], sample, _, [], d, d', by simp, h, hbit⟩, fun _ => .inr (by simp)⟩
  · exact notices_same hsame (by simp [hbefore, hafter, statusQuery_unnoticed])

/-- Past its sweep a command notices no removal. -/
theorem issue_noticed {command : Command} {argument timeout : UInt32} {data : Transfer} :
    Keeps Notices (issue command argument timeout data).run := by
  intro d t r d' h
  by_cases hvalid : command.word.isReserved = false ∧ data.size / d.blockWords ≤ maxBlocks
  · obtain ⟨t1, t2, d1, rfl, hs, ⟨-, rfl, -, rfl⟩ | ⟨-, h1⟩⟩ := issue_acts hvalid.1 hvalid.2 h
    · exact (sweep_noticed hs).trans (notices_same rfl List.not_mem_nil)
    · refine (sweep_noticed hs).trans (notices_same ?_ (announced_unnoticed h1))
      rw [announced_onlyLast h1]
  · obtain ⟨hquiet, hrefused⟩ := refuseInvalid_acts (issue_refused hvalid h).1
    refine notices_same ?_ (unnoticed_of_quiet hquiet)
    rcases hrefused with ⟨-, rfl, -⟩ | ⟨-, -, rfl⟩ | ⟨-, -, rfl⟩
    · rfl
    · rfl
    · rfl

theorem keepsCard_notices : KeepsCard Notices where
  refl _ := notices_same rfl List.not_mem_nil
  trans := .trans
  quiet _ _ he := notices_same rfl (unnoticed_of_quiet (by simpa using he))
  issue _ _ _ _ := issue_noticed
  card _ _ _ := notices_same rfl List.not_mem_nil

theorem keepsReset_notices : KeepsReset Notices where
  toKeepsCard := keepsCard_notices
  cleared _ := notices_same rfl (by simp)
  addressed _ _ _ := notices_same rfl List.not_mem_nil
  scr := keepsCard_notices.readScr fun _ _ => notices_same rfl List.not_mem_nil
  dropped _ := notices_same rfl List.not_mem_nil
  switched _ := notices_same rfl List.not_mem_nil
  fresh _ _ := ⟨fun hnoted => absurd hnoted List.not_mem_nil, nofun⟩

theorem step_notices : Keeps Notices (o.step config) :=
  keepsReset_notices.step (fun _ _ _ _ _ => issue_noticed) config
    (fun _ _ => notices_same rfl List.not_mem_nil) fun _ _ => notices_same rfl List.not_mem_nil

theorem Session.notices {os : List Operation} (h : Session config d os t d') : Notices d t d' :=
  h.keeps keepsCard_notices.toComposes fun _ _ => step_notices

end Samples

/-- After a reset that succeeds the card is there, unless a sweep of that reset samples another
removal. -/
theorem cardReset_present (h : Acts (cardReset config) d t (.ok ()) d')
    (hnone : ¬SamplesRemoval t) : d'.cardRemoved = false := by
  obtain ⟨t1, t2, d1, rfl, ho, -⟩ := cardReset_last h
  obtain ⟨t3, t4, base, d2, rfl, -, h1⟩ := acts_bind_ok.mp ho
  -- The driver forgets the old card here, so only what the rest of the attempt notices counts.
  have hrest : Keeps Notices (do
      let failure ← negotiate config base
      finishReset config failure : Action (Option SwitchFailure)).run :=
    keepsReset_notices.bind (keepsReset_notices.negotiate config base) fun failure =>
      keepsReset_notices.finishReset config failure
  have hnotices := hrest.acts (acts_modify_bind.mp h1)
  refine Bool.eq_false_iff.mpr fun hgone => hnone ?_
  rcases hnotices.gone hgone with hbefore | hnoted
  · nomatch hbefore
  · exact ((hnotices.sampled hnoted).append_left t3).append_left t1

theorem eq_mediaChange_of_asks (h : o.asksForChange = true) : o = .ioctl 0 .mediaChange := by
  cases o with
  | ioctl device request =>
    cases request with
    | mediaChange =>
      obtain rfl : device = 0 := eq_of_beq h
      rfl
    | _ => nomatch h
  | _ => nomatch h

/-- The question for a change is answered by what is recorded when the gate has been passed. -/
theorem mediaChange_answers {a : Except BiosError IoctlResponse}
    (h : Runs (ioctl config 0 .mediaChange) d t a d') :
    ∃ d1, RecordsRemoval d t d1 ∧ Notices d t d1 ∧ d' = { d1 with mediaChanged := false } ∧
      a = .ok (.mediaChange
        (if d1.cardRemoved || d1.mediaChanged then .changed else .unchanged)) := by
  obtain ⟨t1, t2, r, d1, rfl, hgate, hquiet, ⟨hother, -⟩ | ⟨-, rfl, rfl⟩⟩ := ioctl_runs h
  · exact absurd rfl hother
  have hrecords := (keepsReset_recordsRemoval.ensureDataMode config).acts hgate
  have hnotices := (keepsReset_notices.ensureDataMode config).acts hgate
  refine ⟨d1, ?_, ?_, rfl, rfl⟩
  · exact keepsReset_recordsRemoval.trans hrecords (keepsReset_recordsRemoval.quietAll d1 hquiet)
  · exact hnotices.trans (keepsReset_notices.quietAll d1 hquiet)

/-- A change is recorded exactly where it was before or a sweep samples a removal, unless the
operation asks for it. -/
theorem step_changed {a : o.Answer} (h : Runs (o.step config) d t a d') :
    d'.mediaChanged = true ↔
      (d.mediaChanged = true ∨ SamplesRemoval t) ∧ o.asksForChange = false := by
  cases hasked : o.asksForChange with
  | false =>
    have hsampled : noteOf .removed ∈ t ↔ SamplesRemoval t :=
      ⟨(step_notices h).sampled, SamplesRemoval.noted⟩
    rw [(step_recordsRemoval hasked h).changed, hsampled]
    simp
  | true =>
    obtain rfl := eq_mediaChange_of_asks hasked
    obtain ⟨d1, -, -, rfl, -⟩ := mediaChange_answers h
    simp

/-- The question for a change answers what is recorded before it, and what its own sweeps sample. -/
theorem mediaChange_changed {a : Except BiosError IoctlResponse}
    (h : Runs (ioctl config 0 .mediaChange) d t a d')
    (hchanged : d.mediaChanged = true ∨ SamplesRemoval t) : a = .ok (.mediaChange .changed) := by
  obtain ⟨d1, hrecords, -, -, rfl⟩ := mediaChange_answers h
  have hd1 := hrecords.changed.mpr (hchanged.imp_right SamplesRemoval.noted)
  simp [hd1]

theorem mediaChange_unchanged {a : Except BiosError IoctlResponse}
    (h : Runs (ioctl config 0 .mediaChange) d t a d') (hnone : ¬SamplesRemoval t)
    (hpresent : d.cardRemoved = false) (hreported : d.mediaChanged = false) :
    a = .ok (.mediaChange .unchanged) := by
  obtain ⟨d1, hrecords, hnotices, -, rfl⟩ := mediaChange_answers h
  have hunnoted : noteOf .removed ∉ t := fun hnoted => hnone (hnotices.sampled hnoted)
  have hchanged : ¬d1.mediaChanged = true := by
    rw [hrecords.changed]
    simp [hreported, hunnoted]
  have hgone : ¬d1.cardRemoved = true := fun hgone => by
    rcases hnotices.gone hgone with hbefore | hnoted
    · simp [hpresent] at hbefore
    · exact hunnoted hnoted
  simp [hchanged, hgone]

/-- What is recorded of a changed medium, and what the driver answers about it. -/
structure ReportsChange (config : Config) : Prop where
  /-- A sweep that samples a removal records a change. The question for a change alone takes that
  back. -/
  recorded {o : Operation} {d d' : Driver} {t : History} {a : o.Answer} :
    Runs (o.step config) d t a d' → (d'.mediaChanged = true ↔
      (d.mediaChanged = true ∨ SamplesRemoval t) ∧ o.asksForChange = false)
  /-- The operation that takes a change back has answered that there was one. -/
  reported {o : Operation} {d d' : Driver} {t : History} {a : o.Answer} :
    Runs (o.step config) d t a d' → d.mediaChanged = true ∨ SamplesRemoval t →
      d'.mediaChanged = false → o.answersChange a = true
  /-- The first question after a removal is answered by it, whatever happens in between. -/
  sticky {os : List Operation} {d d1 d' : Driver} {t t1 : History}
    {a : Except BiosError IoctlResponse} :
    Session config d os t1 d1 → (∀ o ∈ os, o.asksForChange = false) →
      Runs (ioctl config 0 .mediaChange) d1 t a d' →
      d.mediaChanged = true ∨ SamplesRemoval (t1 ++ t) → a = .ok (.mediaChange .changed)
  /-- While the card is gone after the gate, every question for a change is answered so, and every
  other request is refused. -/
  gone {request : IoctlRequest} {d d' : Driver} {t : History} {a : Except BiosError IoctlResponse} :
    Runs (ioctl config 0 request) d t a d' → ∃ t1 t2 r d1, t = t1 ++ t2 ∧
      Acts (ensureDataMode config) d t1 r d1 ∧ d'.cardRemoved = d1.cardRemoved ∧
      (d1.cardRemoved = true → a =
        if request = .mediaChange then .ok (.mediaChange .changed) else .error .mediaChanged)
  /-- A reset that succeeds finds the card. -/
  found {d d' : Driver} {t : History} :
    Acts (cardReset config) d t (.ok ()) d' → ¬SamplesRemoval t → d'.cardRemoved = false
  /-- Until another removal is sampled, a card that has been found stays there, a change that has
  been reported stays so, and then there is none to report. -/
  settled {os : List Operation} {d d1 : Driver} {t1 : History} :
    Session config d os t1 d1 → ¬SamplesRemoval t1 →
      (d.cardRemoved = false → d1.cardRemoved = false) ∧
      (d.mediaChanged = false → d1.mediaChanged = false) ∧
      ∀ t a d', Runs (ioctl config 0 .mediaChange) d1 t a d' → ¬SamplesRemoval t →
        d1.cardRemoved = false → d1.mediaChanged = false → a = .ok (.mediaChange .unchanged)

theorem Session.staysReported {os : List Operation} (h : Session config d os t d')
    (hnone : ¬SamplesRemoval t) (hreported : d.mediaChanged = false) : d'.mediaChanged = false := by
  induction h with
  | nil => exact hreported
  | @cons _ d1 _ o _ t1 t2 a hstep _ ih =>
    refine ih (fun h => hnone (h.append_left t1)) (Bool.eq_false_iff.mpr fun hchanged => ?_)
    rcases ((step_changed hstep).mp hchanged).1 with hbefore | hsampled
    · simp [hreported] at hbefore
    · exact hnone (hsampled.append_right t2)

/-- Every removal that a sweep samples is reported, and is reported once. -/
theorem media_change_reported (config : Config) : ReportsChange config where
  recorded := step_changed
  reported {o d d' t a} h hchanged hforgotten := by
    have hasked : o.asksForChange = true := by
      by_contra hother
      simp [(step_changed h).mpr ⟨hchanged, Bool.eq_false_iff.mpr hother⟩] at hforgotten
    obtain rfl := eq_mediaChange_of_asks hasked
    exact ioctl_answersChange.mpr (mediaChange_changed h hchanged)
  sticky {os d d1 d' t t1 a} hs hasked h hchanged := by
    refine mediaChange_changed h ?_
    have hbefore := (hs.recordsRemoval hasked).changed
    obtain ⟨d2, -, hnotices, -⟩ := mediaChange_answers h
    rcases hchanged with hchanged | hsampled
    · exact .inl (hbefore.mpr (.inl hchanged))
    -- A note falls to the session or to the question; a sample could as well lie across the two.
    rcases List.mem_append.mp hsampled.noted with hnoted | hnoted
    · exact .inl (hbefore.mpr (.inr hnoted))
    · exact .inr (hnotices.sampled hnoted)
  gone {request d d' t a} h := by
    obtain ⟨t1, t2, r, d1, rfl, hgate, -, ⟨hother, rfl, -, hrefused⟩ | ⟨rfl, rfl, rfl⟩⟩ :=
      ioctl_runs h
    · exact ⟨t1, t2, r, d', rfl, hgate, rfl, fun hgone => by rw [if_neg hother, hrefused hgone]⟩
    · exact ⟨t1, t2, r, d1, rfl, hgate, rfl, fun hgone => by simp [hgone]⟩
  found := cardReset_present
  settled {os d d1 t1} hs hnone := by
    refine ⟨fun hpresent => Bool.eq_false_iff.mpr fun hgone => ?_, hs.staysReported hnone,
      fun t a d' h hquestion => mediaChange_unchanged h hquestion⟩
    rcases hs.notices.gone hgone with hbefore | hnoted
    · simp [hpresent] at hbefore
    · exact hnone (hs.notices.sampled hnoted)

/-- A card that is removed after its reset is reported by the next question. -/
theorem media_change_reported_lossy :
    ∃ t1 d1 t a d', Session {} {} [.cardReset, .ensureDataMode] t1 d1 ∧ SamplesRemoval t1 ∧
      Runs (ioctl {} 0 .mediaChange) d1 t a d' ∧ a = .ok (.mediaChange .changed) := by
  obtain ⟨t, ⟨changed, answer⟩, d', hrun, hchanged⟩ : ∃ t a d', Runs (do
      let _ ← (do
        let _ ← (cardReset {}).run
        (ensureDataMode {}).run : Step (Except Error Unit))
      let d ← get
      let answer ← ioctl {} 0 .mediaChange
      pure (d.mediaChanged, answer)) {} t a d' ∧ a.1 = true :=
    exists_runs (P := fun _ (a : Bool × Except BiosError IoctlResponse) _ => a.1)
      (by decide +kernel : ((Prog.run (lossySlot Interrupt.cardRemoval) (StateT.run _ _) 0).any _) =
        true)
  obtain ⟨t1, _, _, d1, -, hfirst, h1⟩ := runs_bind.mp hrun
  obtain ⟨t2, _, a, d2, -, hask, h2⟩ := runs_bind.mp (runs_get_bind.mp h1)
  obtain ⟨-, hresult, -⟩ := runs_pure.mp h2
  obtain ⟨rfl, rfl⟩ := Prod.mk.inj hresult
  have hsession := session_of_runs hfirst
  have hquiet : ∀ o ∈ [Operation.cardReset, .ensureDataMode], o.asksForChange = false := by
    simp [Operation.asksForChange]
  have hnoted : noteOf .removed ∈ t1 := by
    simpa using (hsession.recordsRemoval hquiet).changed.mp hchanged
  have hsampled := hsession.notices.sampled hnoted
  exact ⟨t1, d1, t2, _, d2, hsession, hsampled, hask,
    (media_change_reported {}).sticky hsession hquiet hask (.inr (hsampled.append_right t2))⟩

end Peripherals.Sd
