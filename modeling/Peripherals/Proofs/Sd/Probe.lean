import Peripherals.Proofs.Sd.Diagnosis

/-! The two probes of an enumeration, which take the silence of a card for an answer. Each goes by
the record of the last command. Where its own command is refused, because the card has been removed,
that is the record of an earlier one. -/

namespace Peripherals.Sd

open RegisterBlock (read write)

variable {α : Type} {command : Command} {d d' : Driver} {t : History} {sample : UInt32}

/-- The history starts `command` once, and `sample` is the first sample after that. -/
def SentOnce (command : Command) (sample : UInt32) (t : History) : Prop :=
  ∃ t1 t2, t = t1 ++ writeOf .command command.word.bits :: t2 ∧
    command.word.bits ∉ commands t1 ∧ commands t2 = [] ∧ (samples t2).head? = some sample

/-- `command` is started once, and is not answered: the first sample after that does not show it
done, and has no named error bit, or has the command timeout. -/
def Unanswered (command : Command) (t : History) : Prop :=
  ∃ sample, SentOnce command sample t ∧ ¬Shows Interrupt.commandDone sample ∧
    ¬Rejects (namedErrors sample)

/-- How a probe by `command` comes to its verdict. Either the command is started, and a card that
answers it is not taken to be silent. Or the command is refused, and the verdict is on another. -/
def Probed (command : Command) (silent : α) (failure : Error) (d : Driver) (t : History)
    (r : Except Error α) (d' : Driver) : Prop :=
  (∃ sample, SentOnce command sample t ∧ (Shows Interrupt.commandDone sample → r ≠ .ok silent) ∧
      (¬Shows Interrupt.commandDone sample → Infers silent failure (namedErrors sample) r)) ∨
    command.word.bits ∉ commands t ∧ ∃ t1 t2, t = t1 ++ t2 ∧ Refused command d t1 d' ∧
      Infers silent failure d'.last.error r

theorem Probed.unanswered {silent : α} {failure : Error}
    (h : Probed command silent failure d t (.ok silent) d') (hpresent : d'.cardRemoved = false) :
    Unanswered command t := by
  rcases h with ⟨sample, hsent, hshows, hinfers⟩ | ⟨-, t1, t2, -, hrefused, -⟩
  · have hfails : ¬Shows Interrupt.commandDone sample := fun h => hshows h rfl
    refine ⟨sample, hsent, hfails, fun hrejects => ?_⟩
    nomatch (hinfers hfails).rejected hrejects
  · rw [hrefused.removed] at hpresent
    nomatch hpresent

theorem checkInterfaceCondition_probed {r : Except Error Bool}
    (h : Acts checkInterfaceCondition d t r d') :
    Probed .sendIfCond false .interfaceCondition d t r d' := by
  rcases checkInterfaceCondition_acts h with hrefused |
    ⟨t1, t2, sample, rfl, hbefore, hsilent, hfirst, hconcludes⟩
  · exact .inr hrefused
  refine .inl ⟨sample, ⟨t1, t2, rfl, hbefore, hsilent, by simpa using hfirst []⟩, fun hshows => ?_,
    fun hfails => ?_⟩
  · rcases hconcludes.passes hshows with rfl | ⟨echo, rfl⟩
    · nofun
    · nofun
  · obtain ⟨haborts, hold⟩ := hconcludes.fails hfails
    exact ⟨haborts.mpr, hold⟩

theorem inferSdio_acts {r : Except Error Unit} {result : Except Error Unit} (h : Acts (do
      let d ← get
      if !result.toBool && d.last.timedOut then
        pure ()
      else if d.last.commandTimeout then
        resetLine Control1.resetCommand
        write Register.interrupt Interrupt.commandTimeout
      else
        report .sdioCard
        throw .sdioCard) d t r d') (hresult : result.toBool = false)
    (hfailed : d.last.success = false) :
    commands t = [] ∧ d' = d ∧ Infers () .sdioCard d.last.error r := by
  have h1 := acts_get_bind.mp h
  rw [hresult, Bool.not_false, Bool.true_and] at h1
  rcases failed_cases hfailed with ⟨htimedOut, hnot⟩ | ⟨hnamed, htimeout, hbit, hnot⟩ |
    ⟨hnamed, hother, hrejects⟩
  · rw [if_pos htimedOut] at h1
    obtain ⟨rfl, rfl, rfl⟩ := acts_pure.mp h1
    exact ⟨rfl, rfl, fun hrejects => absurd hrejects hnot, fun _ => .inl rfl⟩
  · rw [hnamed, if_neg Bool.false_ne_true, if_pos htimeout] at h1
    obtain ⟨hsilent, rfl, hdropped⟩ := dropTimeout_acts h1
    exact ⟨hsilent, rfl, fun hrejects => absurd hrejects hnot,
      fun _ => hdropped.imp_right fun hstuck => ⟨hbit, hstuck⟩⟩
  · rw [hnamed, hother, if_neg Bool.false_ne_true, if_neg Bool.false_ne_true] at h1
    obtain ⟨t1, rfl, h2⟩ := acts_report_bind.mp h1
    obtain ⟨rfl, rfl, rfl⟩ := acts_throw.mp h2
    exact ⟨rfl, rfl, fun _ => rfl, fun hnot => absurd hrejects hnot⟩

theorem probeSdio_probed {r : Except Error Unit} (h : Acts probeSdio d t r d') :
    Probed .ioSetOpCond () .sdioCard d t r d' := by
  obtain ⟨t1, t2, result, d1, rfl, hissue, h1⟩ := acts_observe_bind.mp h
  rcases probe_acts rfl rfl rfl (by decide) hissue with ⟨hrefused, ⟨e, rfl⟩⟩ |
    ⟨t3, t4, sample, rfl, hbefore, hsilent, hfirst, hfares, hrecorded⟩
  · obtain ⟨hquiet, rfl, hinfers⟩ := inferSdio_acts h1 rfl hrefused.failed
    refine .inr ⟨?_, t1, t2, rfl, hrefused, hinfers⟩
    rw [commands_append, hquiet, List.append_nil]
    exact hrefused.unasked
  have hsent (hquiet : commands t2 = []) : SentOnce .ioSetOpCond sample
      (t3 ++ writeOf .command Command.ioSetOpCond.word.bits :: t4 ++ t2) :=
    ⟨t3, t4 ++ t2, by simp, hbefore, by simp [hsilent, hquiet], hfirst t2⟩
  rcases hfares with ⟨hshows, rfl⟩ | ⟨hfails, ⟨e, rfl⟩, hfailed, herror⟩
  · -- A card that answers is one for SDIO: no timeout is on record.
    have h2 := acts_get_bind.mp h1
    have hanswered : d1.last.commandTimeout = false := by
      simp [Outcome.commandTimeout, Outcome.failedWith, hrecorded rfl]
    rw [hanswered, if_neg (by simp [Except.toBool]), if_neg Bool.false_ne_true] at h2
    obtain ⟨t5, rfl, h3⟩ := acts_report_bind.mp h2
    obtain ⟨rfl, rfl, rfl⟩ := acts_throw.mp h3
    exact .inl ⟨sample, hsent rfl, fun _ => by simp, fun hfails => absurd hshows hfails⟩
  · obtain ⟨hquiet, rfl, hinfers⟩ := inferSdio_acts h1 rfl hfailed
    rw [herror] at hinfers
    exact .inl ⟨sample, hsent hquiet, fun hshows => absurd hshows hfails, fun _ => hinfers⟩

/-- While the card is there, a probe that takes it to be silent has sent its command, and has not
been answered. After a removal a probe sends nothing and goes by the record of an earlier command.
-/
theorem silent_probe_unanswered (d : Driver) :
    (∀ t r d', Acts checkInterfaceCondition d t r d' →
      Probed .sendIfCond false .interfaceCondition d t r d' ∧
        (r = .ok false → d'.cardRemoved = false → Unanswered .sendIfCond t)) ∧
    ∀ t r d', Acts probeSdio d t r d' →
      Probed .ioSetOpCond () .sdioCard d t r d' ∧
        (r = .ok () → d'.cardRemoved = false → Unanswered .ioSetOpCond t) := by
  constructor
  · intro t r d' h
    have hprobed := checkInterfaceCondition_probed h
    refine ⟨hprobed, ?_⟩
    rintro rfl hpresent
    exact hprobed.unanswered hpresent
  · intro t r d' h
    have hprobed := probeSdio_probed h
    refine ⟨hprobed, ?_⟩
    rintro rfl hpresent
    exact hprobed.unanswered hpresent

/-- A card that knows neither command. -/
theorem silent_probe_unanswered_both :
    (∃ t d', Acts checkInterfaceCondition {} t (.ok false) d' ∧ Unanswered .sendIfCond t) ∧
      ∃ t d', Acts probeSdio {} t (.ok ()) d' ∧ Unanswered .ioSetOpCond t := by
  constructor
  · obtain ⟨t, r, d', hrun, hends⟩ : ∃ t r d', Acts checkInterfaceCondition {} t r d' ∧
        (r.toOption == some false && !d'.cardRemoved) = true :=
      exists_runs (P := fun _ (r : Except Error Bool) d' =>
          r.toOption == some false && !d'.cardRemoved)
        (by decide +kernel :
          ((Prog.run (promptCard [.sendIfCond]) (StateT.run _ _) 0).any _) = true)
    obtain ⟨hr, hpresent⟩ : r.toOption = some false ∧ d'.cardRemoved = false := by
      simpa using hends
    cases r with
    | error => nomatch hr
    | ok answered =>
      obtain rfl := Option.some.inj hr
      exact ⟨t, d', hrun, ((silent_probe_unanswered {}).1 t _ d' hrun).2 rfl hpresent⟩
  · obtain ⟨t, r, d', hrun, hends⟩ : ∃ t r d', Acts probeSdio {} t r d' ∧
        (r.toBool && !d'.cardRemoved) = true :=
      exists_runs (P := fun _ (r : Except Error Unit) d' => r.toBool && !d'.cardRemoved)
        (by decide +kernel : ((Prog.run (promptCard [.ioSetOpCond]) (StateT.run _ _) 0).any _) =
          true)
    obtain ⟨hr, hpresent⟩ : r.toBool = true ∧ d'.cardRemoved = false := by simpa using hends
    cases r with
    | error => nomatch hr
    | ok => exact ⟨t, d', hrun, ((silent_probe_unanswered {}).2 t _ d' hrun).2 rfl hpresent⟩

/-- A card that is removed before a probe is taken to be silent, and is sent nothing. -/
theorem refused_probe_silent :
    (¬ ∀ d t d', Acts checkInterfaceCondition d t (.ok false) d' →
      Command.sendIfCond.word.bits ∈ commands t) ∧
    ¬ ∀ d t d', Acts probeSdio d t (.ok ()) d' →
      Command.ioSetOpCond.word.bits ∈ commands t := by
  constructor
  · intro hcommanded
    obtain ⟨t, r, d', hrun, hends⟩ : ∃ t r d', Acts checkInterfaceCondition {} t r d' ∧
        (r.toOption == some false && (commands t).isEmpty) = true :=
      exists_runs (P := fun t (r : Except Error Bool) _ =>
          r.toOption == some false && (commands t).isEmpty)
        (by decide +kernel : ((Prog.run (promptCard [] Interrupt.cardRemoval) (StateT.run _ _)
          0).any _) = true)
    obtain ⟨hr, hnone⟩ : r.toOption = some false ∧ commands t = [] := by simpa using hends
    cases r with
    | error => nomatch hr
    | ok answered =>
      obtain rfl := Option.some.inj hr
      simpa [hnone] using hcommanded {} t d' hrun
  · intro hcommanded
    obtain ⟨t, r, d', hrun, hends⟩ : ∃ t r d', Acts probeSdio {} t r d' ∧
        (r.toBool && (commands t).isEmpty) = true :=
      exists_runs (P := fun t (r : Except Error Unit) _ => r.toBool && (commands t).isEmpty)
        (by decide +kernel : ((Prog.run (promptCard [] Interrupt.cardRemoval) (StateT.run _ _)
          0).any _) = true)
    obtain ⟨hr, hnone⟩ : r.toBool = true ∧ commands t = [] := by simpa using hends
    cases r with
    | error => nomatch hr
    | ok => simpa [hnone] using hcommanded {} t d' hrun

end Peripherals.Sd
