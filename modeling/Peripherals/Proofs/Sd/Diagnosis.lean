import Peripherals.Proofs.Sd.Operation
import Peripherals.Proofs.Sd.Protocol
import Peripherals.Proofs.Sd.Verdict

/-! What the failure of a command is taken for. Eleven of the sixteen error bits of the interrupt
status have names. Where a command fails at a sample without any of them it is taken to have timed
out, even if the sample has an error bit without a name. An enumeration goes by this after
SEND_IF_COND, which an old card does not answer. -/

namespace Peripherals.Sd

open RegisterBlock (read write)

variable {α β : Type} {config : Config} {command : Command} {word : CommandWord}
  {argument timeout : UInt32} {data : Transfer} {c : CardInfo} {d d1 d' : Driver}
  {t t1 t2 : History} {sample : UInt32}

/-- The error bits of a sample that have names. -/
def namedErrors (sample : UInt32) : UInt32 := sample &&& Interrupt.errorMask &&& Interrupt.named

/-- How the failure of a command at `sample` is told: by the error with which it ends and by what
is recorded of it. -/
structure Diagnosed (command : Command) (sample : UInt32) (e : Error) (o : Outcome) : Prop where
  timeout : e = .timeout command ↔ namedErrors sample = 0
  timedOut : o.timedOut = true ↔ namedErrors sample = 0
  controller : namedErrors sample ≠ 0 → e = .command command (namedErrors sample)
  interrupt : o.interrupt = sample

/-- A command that fails is diagnosed at the sample that does not pass. -/
theorem start_diagnosed {e : Error}
    (h : Acts (start command word argument timeout data) d t (.error e) d') :
    ∃ sample, Deviates (checkpoints word data d.blockWords) t sample ∧
      Diagnosed command sample e d'.last := by
  obtain ⟨after, stop, rfl, hchecked, hends, -⟩ := start_checked h
  cases stop with
  | none => nomatch hends
  | some sample =>
    obtain ⟨he, hsuccess, herror, hinterrupt⟩ := hends
    obtain rfl := Except.error.inj he
    refine ⟨sample, hchecked.deviates.opening, ?_, ?_, fun hnamed => if_neg hnamed, hinterrupt⟩
    · by_cases hnone : namedErrors sample = 0
      · exact iff_of_true (if_pos hnone) hnone
      · rw [show reason command sample = .command command (namedErrors sample) from if_neg hnone]
        exact iff_of_false nofun hnone
    · rw [Outcome.timedOut, hsuccess, herror, Bool.not_false, Bool.true_and, beq_iff_eq]
      rfl

/-! ### The check of the interface condition -/

/-- The history starts `command`, and `sample` is the first sample after that. -/
def FirstSample (command : Command) (sample : UInt32) (t : History) : Prop :=
  ∃ before after, t = before ++ writeOf .command command.word.bits :: after ∧
    (samples after).head? = some sample

/-- These error bits stand for a failure other than a card that does not answer. -/
def Rejects (errors : UInt32) : Prop :=
  errors ≠ 0 ∧ hasBits errors Interrupt.commandTimeout = false

/-- What a probe makes of a command that has failed with these error bits. Unless they reject the
card, it is taken to be silent, or the command line is stuck when it is reset. -/
structure Infers (silent : α) (failure : Error) (errors : UInt32) (r : Except Error α) : Prop where
  rejected : Rejects errors → r = .error failure
  silent : ¬Rejects errors →
    r = .ok silent ∨ hasBits errors Interrupt.commandTimeout = true ∧ r = .error .lineResetTimeout

/-- What the check makes of a command that has failed with these error bits. Unless they reject the
card, it is taken for an old one, or the command line is stuck when it is reset. -/
structure FallsBack (errors : UInt32) (r : Except Error Bool) : Prop where
  aborts : r = .error .interfaceCondition ↔ Rejects errors
  old : ¬Rejects errors →
    r = .ok false ∨ hasBits errors Interrupt.commandTimeout = true ∧ r = .error .lineResetTimeout

/-- What the check comes to where SEND_IF_COND is decided at `sample`. -/
structure Concludes (sample : UInt32) (r : Except Error Bool) : Prop where
  passes : Shows Interrupt.commandDone sample →
    r = .ok true ∨ ∃ echo, r = .error (.voltageCheck echo)
  fails : ¬Shows Interrupt.commandDone sample → FallsBack (namedErrors sample) r

theorem Infers.fallsBack {errors : UInt32} {r : Except Error Bool}
    (h : Infers false .interfaceCondition errors r) : FallsBack errors r := by
  refine ⟨⟨fun habort => ?_, h.rejected⟩, h.silent⟩
  by_contra hnot
  rcases h.silent hnot with rfl | ⟨-, rfl⟩
  · nomatch habort
  · nomatch habort

theorem Shows.namedErrors {bits : UInt32} (h : Shows bits sample) : namedErrors sample = 0 := by
  rw [Sd.namedErrors, hasBits_eq_false.mp h.2, UInt32.zero_and]

theorem Concludes.aborts {r : Except Error Bool} (h : Concludes sample r) :
    r = .error .interfaceCondition ↔ Rejects (namedErrors sample) := by
  by_cases hshows : Shows Interrupt.commandDone sample
  · refine iff_of_false ?_ fun hrejects => hrejects.1 hshows.namedErrors
    rcases h.passes hshows with rfl | ⟨echo, rfl⟩
    · nofun
    · nofun
  · exact (h.fails hshows).aborts

/-- The only checkpoint of a command is decided at the first sample. -/
theorem Checked.first {p : Checkpoint} {stop : Option UInt32} (h : Checked [p] t stop) :
    ∃ sample, (∀ rest, (samples (t ++ rest)).head? = some sample) ∧
      (p.Passes sample ∧ stop = none ∨ ¬p.Passes sample ∧ stop = some sample) := by
  cases h with
  | stop hsamples hfails =>
    refine ⟨_, fun rest => ?_, .inr ⟨hfails, rfl⟩⟩
    rw [samples, hsamples.samplesFrom]
    rfl
  | pass hsamples hpasses _ hrest =>
    cases hrest
    refine ⟨_, fun rest => ?_, .inl ⟨hpasses, rfl⟩⟩
    rw [samples, List.append_assoc, hsamples.samplesFrom]
    rfl

/-- A sweep for a card without an address leaves the record of the last command alone. -/
theorem sweep_last {r : Except Error Unit} (h : Acts sweep d t r d') (hzero : d.card.rca = 0) :
    d'.last = d.last := by
  obtain ⟨-, sample, v, before, noted, served, after, d1, -, -, -, -, hn, hc⟩ := sweep_acts h
  have hsame : d1.last = d.last ∧ d1.card = d.card := by
    obtain ⟨-, ⟨-, -, rfl⟩ | ⟨-, -, rfl⟩⟩ := noticeRemoval_acts hn
    · exact ⟨rfl, rfl⟩
    · exact ⟨rfl, rfl⟩
  obtain ⟨-, ⟨-, hrca, -⟩ | ⟨-, -, rfl⟩⟩ := noticeCard_acts hc
  · exact absurd (hsame.2 ▸ hzero) hrca
  · exact hsame.1

/-- How a command without data that is issued fares at its first sample. -/
def Fares (sample : UInt32) (r : Except Error Unit) (d' : Driver) : Prop :=
  Shows Interrupt.commandDone sample ∧ r = .ok () ∨
    ¬Shows Interrupt.commandDone sample ∧ (∃ e, r = .error e) ∧ d'.last.success = false ∧
      d'.last.error = namedErrors sample

/-- A command is refused because the card has been removed. What is recorded of an earlier command
keeps its error bits. -/
structure Refused (command : Command) (d : Driver) (t : History) (d' : Driver) : Prop where
  unasked : command.word.bits ∉ commands t
  removed : d'.cardRemoved = true
  failed : d'.last.success = false
  stale : ∃ d1, Acts sweep d t (.ok ()) d1 ∧ d'.last.error = d1.last.error

/-- Where the card has no address, that is the last command before. -/
theorem Refused.error (h : Refused command d t d') (hzero : d.card.rca = 0) :
    d'.last.error = d.last.error := by
  obtain ⟨d1, hs, herror⟩ := h.stale
  rw [herror, sweep_last hs hzero]

/-- A command without data is started once, and is decided at the first sample after that; or the
card turns out to have been removed before. -/
theorem probe_acts {r : Except Error Unit} (hvalid : command.word.isReserved = false)
    (happ : command.isApplication = false) (hplain : command.word.waitsForTransfer = false)
    (hother : command.word.bits ≠ Command.sendStatus.word.bits)
    (h : Acts (issueCommand command argument timeout) d t r d') :
    (Refused command d t d' ∧ ∃ e, r = .error e) ∨
    ∃ t1 t2 sample, t = t1 ++ writeOf .command command.word.bits :: t2 ∧
      command.word.bits ∉ commands t1 ∧ commands t2 = [] ∧
      (∀ rest, (samples (t2 ++ rest)).head? = some sample) ∧ Fares sample r d' ∧
      (r = .ok () → d'.last.success = true) := by
  have hblocks : Transfer.none.size / d.blockWords ≤ maxBlocks := by
    rw [Transfer.size, Nat.zero_div]
    exact Nat.zero_le _
  have hissue : Acts (issue command argument timeout .none) d t r d' := h
  obtain ⟨t1, t2, d1, rfl, hs, h1⟩ := issue_acts hvalid hblocks hissue
  have hswept : command.word.bits ∉ commands t1 := by
    obtain ⟨sample, t', -, hasked⟩ := sweep_commands hs
    rw [hasked]
    split
    · simpa using hother
    · exact List.not_mem_nil
  rcases h1 with ⟨hremoved, rfl, rfl, rfl⟩ | ⟨-, h2⟩
  · rw [List.append_nil]
    exact .inl ⟨⟨hswept, hremoved, rfl, d1, hs, rfl⟩, _, rfl⟩
  obtain ⟨t3, t4, rfl, hstart, hquiet, -⟩ := startReported_acts ((announce_passes happ).mp h2)
  obtain ⟨after, stop, rfl, hchecked, hends, hrecorded⟩ := start_checked hstart
  obtain ⟨after', heq, hsilent⟩ := start_commands hstart
  obtain rfl := List.append_cancel_left heq
  rw [checkpoints_plain _ _ _ hplain] at hchecked
  obtain ⟨sample, hfirst, hverdict⟩ := hchecked.first
  refine .inr ⟨t1 ++ (opening d1 command.word argument .none).take 2, after ++ t4, sample,
    by simp [opening], ?_, ?_, fun rest => ?_, ?_, fun hok => ?_⟩
  · rw [commands_append, List.mem_append]
    exact fun hmem => hmem.elim hswept List.not_mem_nil
  · rw [commands_append, hsilent, commands_of_still hquiet, List.append_nil]
  · rw [List.append_assoc]
    exact hfirst _
  · rcases hverdict with ⟨hshows, rfl⟩ | ⟨hfails, rfl⟩
    · exact .inl ⟨hshows, hends⟩
    · exact .inr ⟨hfails, ⟨_, hends.1⟩, hends.2.1, hends.2.2.1⟩
  · cases stop with
    | none => exact (hrecorded rfl).success
    | some sample => exact absurd (hends.1.symm.trans hok) (by simp)

/-- Dropping a command that the card does not answer clears the command line. -/
theorem dropTimeout_acts {r : Except Error Unit} (h : Acts (do
      resetLine Control1.resetCommand
      write Register.interrupt Interrupt.commandTimeout) d t r d') :
    commands t = [] ∧ d' = d ∧ (r = .ok () ∨ r = .error .lineResetTimeout) := by
  rcases acts_bind.mp h with ⟨e, rfl, hl⟩ | ⟨t1, t2, _, d1, rfl, hl, h1⟩
  · have hstuck : FailsOnly (· = .lineResetTimeout) (resetLine Control1.resetCommand) :=
      resetLine_fails rfl
    obtain ⟨hsame, hquiet⟩ := (keepsQuiet_quiet.resetLine _).acts hl
    obtain rfl := hstuck hl
    exact ⟨commands_of_quiet hquiet, hsame, .inr rfl⟩
  · obtain ⟨rfl, hquiet⟩ := (keepsQuiet_quiet.resetLine _).acts hl
    obtain ⟨rfl, rfl, rfl⟩ := acts_write.mp h1
    refine ⟨?_, rfl, .inl rfl⟩
    rw [commands_append, commands_of_quiet hquiet]
    rfl

/-- How the record of a command that has failed is read: as a timeout, as one that the controller
names, or as another failure. -/
theorem failed_cases {o : Outcome} (hfailed : o.success = false) :
    o.timedOut = true ∧ ¬Rejects o.error ∨
      o.timedOut = false ∧ o.commandTimeout = true ∧
        hasBits o.error Interrupt.commandTimeout = true ∧ ¬Rejects o.error ∨
      o.timedOut = false ∧ o.commandTimeout = false ∧ Rejects o.error := by
  have hunanswered : o.commandTimeout = hasBits o.error Interrupt.commandTimeout := by
    simp [Outcome.commandTimeout, Outcome.failedWith, hfailed]
  by_cases hnone : o.error = 0
  · exact .inl ⟨by simp [Outcome.timedOut, hfailed, hnone], fun hrejects => hrejects.1 hnone⟩
  have hnamed : o.timedOut = false := by simp [Outcome.timedOut, hnone]
  rw [hunanswered]
  cases hbit : hasBits o.error Interrupt.commandTimeout with
  | false => exact .inr (.inr ⟨hnamed, rfl, hnone, hbit⟩)
  | true =>
    refine .inr (.inl ⟨hnamed, rfl, rfl, fun hrejects => ?_⟩)
    nomatch hbit.symm.trans hrejects.2

theorem fallBack_acts {e : Error} {r : Except Error Bool} (h : Acts (do
      let d ← get
      if d.last.timedOut then
        report .noInterfaceCondition
        pure false
      else if d.last.commandTimeout then
        report .interfaceConditionTimeout
        resetLine Control1.resetCommand
        write Register.interrupt Interrupt.commandTimeout
        pure false
      else
        report (.failed e)
        throw .interfaceCondition) d t r d') (hfailed : d.last.success = false) :
    commands t = [] ∧ d' = d ∧ Infers false .interfaceCondition d.last.error r := by
  have h1 := acts_get_bind.mp h
  rcases failed_cases hfailed with ⟨htimedOut, hnot⟩ | ⟨hnamed, htimeout, hbit, hnot⟩ |
    ⟨hnamed, hother, hrejects⟩
  · rw [if_pos htimedOut] at h1
    obtain ⟨t1, rfl, h2⟩ := acts_report_bind.mp h1
    obtain ⟨rfl, rfl, rfl⟩ := acts_pure.mp h2
    exact ⟨rfl, rfl, fun hrejects => absurd hrejects hnot, fun _ => .inl rfl⟩
  · rw [hnamed, if_neg Bool.false_ne_true, if_pos htimeout] at h1
    obtain ⟨t1, rfl, h2⟩ := acts_report_bind.mp h1
    rw [← bind_assoc] at h2
    rcases acts_bind.mp h2 with ⟨e', rfl, hd⟩ | ⟨t2, t3, _, d1, rfl, hd, h3⟩
    · obtain ⟨hsilent, rfl, hok | hstuck⟩ := dropTimeout_acts hd
      · nomatch hok
      · obtain rfl := Except.error.inj hstuck
        exact ⟨hsilent, rfl, fun hrejects => absurd hrejects hnot, fun _ => .inr ⟨hbit, rfl⟩⟩
    · obtain ⟨hsilent, rfl, -⟩ := dropTimeout_acts hd
      obtain ⟨rfl, rfl, rfl⟩ := acts_pure.mp h3
      rw [List.append_nil]
      exact ⟨hsilent, rfl, fun hrejects => absurd hrejects hnot, fun _ => .inl rfl⟩
  · rw [hnamed, hother, if_neg Bool.false_ne_true, if_neg Bool.false_ne_true] at h1
    obtain ⟨t1, rfl, h2⟩ := acts_report_bind.mp h1
    obtain ⟨rfl, rfl, rfl⟩ := acts_throw.mp h2
    exact ⟨rfl, rfl, fun _ => rfl, fun hnot => absurd hrejects hnot⟩

/-- The check starts SEND_IF_COND once and goes by the first sample after that. Where the card turns
out to have been removed before, the check goes by the record of an earlier command. -/
theorem checkInterfaceCondition_acts {r : Except Error Bool}
    (h : Acts checkInterfaceCondition d t r d') :
    (Command.sendIfCond.word.bits ∉ commands t ∧ ∃ t1 t2, t = t1 ++ t2 ∧
      Refused .sendIfCond d t1 d' ∧ Infers false .interfaceCondition d'.last.error r) ∨
    ∃ t1 t2 sample, t = t1 ++ writeOf .command Command.sendIfCond.word.bits :: t2 ∧
      Command.sendIfCond.word.bits ∉ commands t1 ∧ commands t2 = [] ∧
      (∀ rest, (samples (t2 ++ rest)).head? = some sample) ∧ Concludes sample r := by
  obtain ⟨t1, t2, result, d1, rfl, hissue, h1⟩ := acts_observe_bind.mp h
  rcases probe_acts rfl rfl rfl (by decide) hissue with ⟨hrefused, ⟨e, rfl⟩⟩ |
    ⟨t3, t4, sample, rfl, hbefore, hsilent, hfirst, hfares, -⟩
  · obtain ⟨hquiet, rfl, hinfers⟩ := fallBack_acts h1 hrefused.failed
    refine .inl ⟨?_, t1, t2, rfl, hrefused, hinfers⟩
    rw [commands_append, hquiet, List.append_nil]
    exact hrefused.unasked
  obtain ⟨hquiet, hconcludes⟩ : commands t2 = [] ∧ Concludes sample r := by
    rcases hfares with ⟨hshows, rfl⟩ | ⟨hfails, ⟨e, rfl⟩, hfailed, herror⟩
    · have h2 := acts_get_bind.mp h1
      rw [acts_ite] at h2
      split at h2
      · obtain ⟨rfl, rfl, -⟩ := acts_pure.mp h2
        exact ⟨rfl, fun _ => .inl rfl, fun hfails => absurd hshows hfails⟩
      · obtain ⟨t5, rfl, h3⟩ := acts_report_bind.mp h2
        obtain ⟨rfl, rfl, -⟩ := acts_throw.mp h3
        exact ⟨rfl, fun _ => .inr ⟨_, rfl⟩, fun hfails => absurd hshows hfails⟩
    · obtain ⟨hquiet, -, hinfers⟩ := fallBack_acts h1 hfailed
      exact ⟨hquiet, fun hshows => absurd hshows hfails, fun _ => herror ▸ hinfers.fallsBack⟩
  refine .inr ⟨t3, t4 ++ t2, sample, by simp, hbefore, ?_, fun rest => ?_, hconcludes⟩
  · rw [commands_append, hsilent, hquiet]
    rfl
  · rw [List.append_assoc]
    exact hfirst _

/-! ### The enumeration -/

/-- No SEND_IF_COND of the history is rejected at the first sample after it. -/
def Accepted (t : History) : Prop :=
  ∀ before after, t = before ++ writeOf .command Command.sendIfCond.word.bits :: after →
    ∃ sample, (∀ rest, (samples (after ++ rest)).head? = some sample) ∧
      ¬Rejects (namedErrors sample)

/-- The run ends for the interface condition exactly if a SEND_IF_COND is rejected. -/
def Decided (t : History) (failure : Option Error) : Prop :=
  failure = some .interfaceCondition ∧
      (∃ sample, FirstSample .sendIfCond sample t ∧ Rejects (namedErrors sample)) ∨
    failure ≠ some .interfaceCondition ∧ Accepted t

theorem accepted_of_unasked (h : Command.sendIfCond.word.bits ∉ commands t) : Accepted t := by
  rintro before after rfl
  refine absurd ?_ h
  rw [commands_append, commands_command]
  exact List.mem_append_right _ List.mem_cons_self

theorem Accepted.append (h1 : Accepted t1) (h2 : Accepted t2) : Accepted (t1 ++ t2) := by
  intro before after heq
  rcases append_eq_split heq with ⟨middle, rfl, rfl⟩ | ⟨middle, -, hlater⟩
  · obtain ⟨sample, hfirst, hnot⟩ := h1 before middle rfl
    exact ⟨sample, fun rest => by rw [List.append_assoc]; exact hfirst _, hnot⟩
  · exact h2 middle after hlater

theorem FirstSample.append_left (t1 : History) (h : FirstSample command sample t) :
    FirstSample command sample (t1 ++ t) := by
  obtain ⟨before, after, rfl, hfirst⟩ := h
  exact ⟨t1 ++ before, after, by rw [List.append_assoc], hfirst⟩

namespace Decided

variable {failure : Option Error}

theorem of_unasked (hfailure : failure ≠ some .interfaceCondition)
    (hunasked : Command.sendIfCond.word.bits ∉ commands t) : Decided t failure :=
  .inr ⟨hfailure, accepted_of_unasked hunasked⟩

theorem append (h1 : Accepted t1) (h2 : Decided t2 failure) : Decided (t1 ++ t2) failure := by
  rcases h2 with ⟨habort, sample, hfirst, hrejects⟩ | ⟨hother, haccepted⟩
  · exact .inl ⟨habort, sample, hfirst.append_left t1, hrejects⟩
  · exact .inr ⟨hother, h1.append haccepted⟩

theorem accepted (h : Decided t failure) (hother : failure ≠ some .interfaceCondition) :
    Accepted t := by
  rcases h with ⟨habort, -⟩ | ⟨-, haccepted⟩
  · exact absurd habort hother
  · exact haccepted

theorem bind {x : Action α} {f : α → Action β} {r : Except Error β} (h : Acts (x >>= f) d t r d')
    (hx : ∀ ⦃t r d'⦄, Acts x d t r d' → Decided t (failure? r))
    (hf : ∀ ⦃t1 a d1⦄, Acts x d t1 (.ok a) d1 → ∀ ⦃t r d'⦄, Acts (f a) d1 t r d' →
      Decided t (failure? r)) : Decided t (failure? r) := by
  rcases acts_bind.mp h with ⟨e, rfl, h1⟩ | ⟨t1, t2, a, d1, rfl, h1, h2⟩
  · exact hx h1
  · exact append ((hx h1).accepted nofun) (hf h1 h2)

end Decided

theorem failure?_eq_some {r : Except Error α} {e : Error} :
    failure? r = some e ↔ r = .error e := by
  cases r <;> simp [failure?]

theorem checkInterfaceCondition_decided {r : Except Error Bool}
    (h : Acts checkInterfaceCondition d t r d') (hzero : d.card.rca = 0)
    (hclean : d.last.error = 0) : Decided t (failure? r) := by
  rcases checkInterfaceCondition_acts h with ⟨hunasked, _, _, -, hrefused, hinfers⟩ |
    ⟨t1, t2, sample, rfl, hbefore, hsilent, hfirst, hconcludes⟩
  · refine .of_unasked (mt failure?_eq_some.mp fun habort => ?_) hunasked
    exact (hinfers.fallsBack.aborts.mp habort).1 ((hrefused.error hzero).trans hclean)
  have hafter : Command.sendIfCond.word.bits ∉ commands t2 := by simp [hsilent]
  have haborts := failure?_eq_some.trans hconcludes.aborts
  by_cases hrejects : Rejects (namedErrors sample)
  · refine .inl ⟨haborts.mpr hrejects, sample, ⟨t1, t2, rfl, ?_⟩, hrejects⟩
    rw [← hfirst [], List.append_nil]
  · refine .inr ⟨mt haborts.mp hrejects, fun before after heq => ?_⟩
    obtain ⟨rfl, -, rfl⟩ := started_once hbefore hafter heq
    exact ⟨sample, hfirst, hrejects⟩

/-- What a negotiation does after the check. -/
def negotiateOn (config : Config) (base : UInt32) (answered : Bool) :
    Action (Option SwitchFailure) := do
  probeSdio
  negotiateOpCond config answered
  settleVoltage base

theorem asks_unasked (rca : UInt16) (argument : UInt32) (polls : Nat) :
    Command.sendIfCond.word.bits ∉ (asks rca argument polls).map Order.word := by
  induction polls with
  | zero => exact List.not_mem_nil
  | succ polls ih =>
    rw [asks_succ, List.map_append, List.mem_append]
    exact fun hmem => hmem.elim (of_decide_eq_true rfl) ih

theorem negotiateOn_unasked {base : UInt32} {answered : Bool}
    {r : Except Error (Option SwitchFailure)} (h : Acts (negotiateOn config base answered) d t r d')
    (hd : Knows c d) :
    Command.sendIfCond.word.bits ∉ commands t ∧ ∃ c', c'.rca = c.rca ∧ Knows c' d' := by
  have hprobe : Recites c [order .ioSetOpCond 0] probeSdio :=
    (probeSdio_asks.utters rfl rfl (by decide)).recites
  rcases hprobe.cases h hd with ⟨e, rfl, hf⟩ | ⟨t1, t2, _, d1, rfl, -, hf, h1⟩
  · exact ⟨not_mem_commands hf.said (by decide) (by decide), c, rfl, hf.knows⟩
  obtain ⟨n, -, hneg⟩ := negotiateOpCond_negotiates h1 hf.knows
  have hscript (argument : UInt32) : Command.sendIfCond.word.bits ∉ ([order .ioSetOpCond 0] ++
      (announced c.rca .sendOpCond 0 ++ asks c.rca argument n)).map Order.word := by
    rw [List.map_append, List.map_append, List.mem_append, List.mem_append]
    rintro (hmem | hmem | hmem)
    · exact absurd hmem (by decide)
    · exact absurd hmem (of_decide_eq_true rfl)
    · exact asks_unasked _ _ _ hmem
  have hvoltage (accepts1v8 : Bool) :
      Command.sendIfCond.word.bits ∉ (voltage accepts1v8).map Order.word := by
    cases accepts1v8 <;> decide
  rcases hneg.after hf with ⟨e, c', rfl, hrca, hall⟩ | ⟨response, c', -, -, hrca, hall, -⟩
  · exact ⟨not_mem_commands hall.said (by decide) (hscript _), c', hrca, hall.knows⟩
  · refine ⟨not_mem_commands hall.said (by decide) ?_, c', hrca, hall.knows⟩
    rw [List.map_append, List.mem_append]
    exact fun hmem => hmem.elim (hscript _) (hvoltage _)

theorem finishReset_unasked {failure : Option SwitchFailure}
    {r : Except Error (Option SwitchFailure)} (h : Acts (finishReset config failure) d t r d')
    (hd : Knows c d) (hzero : c.rca = 0) : Command.sendIfCond.word.bits ∉ commands t := by
  cases failure with
  | some step =>
    obtain ⟨rfl, -⟩ := acts_pure.mp h
    exact List.not_mem_nil
  | none =>
    obtain ⟨t1, t2, result, rfl, hsilent, hb, -⟩ := finishReset_acts h
    rw [commands_append, hsilent, List.nil_append]
    rcases acts_bind.mp hb with ⟨e, rfl, hi⟩ | ⟨t3, t4, _, d2, rfl, hi, hp⟩
    · rcases identify_follows hi hd hzero with ⟨_, _, -, -, hf⟩ | ⟨_, _, hok, -⟩
      · exact not_mem_commands hf.said (by decide) (by decide)
      · nomatch hok
    rcases identify_follows hi hd hzero with
      ⟨_, _, he, -⟩ | ⟨response, c', -, -, -, -, -, -, -, hf⟩
    · nomatch he
    rw [commands_append, List.mem_append]
    exact fun hmem => hmem.elim (not_mem_commands hf.said (by decide) (by decide))
      (prepareCard_commands hp hf.knows (by decide))

/-- After the check, nothing fails for the interface condition. -/
theorem negotiateOn_fails {base : UInt32} {answered : Bool} :
    FailsOnly (· ≠ .interfaceCondition) (negotiateOn config base answered) := by
  refine .bind (probeSdio_fails nofun nofun) fun _ => ?_
  refine .bind (negotiateOpCond_fails nofun nofun nofun) fun _ => ?_
  refine .bind (switchClockRate_fails nofun) fun _ => .bind .perform fun _ => .get fun d => ?_
  exact .ite (.never switchTo1v8_succeeds) .pure

theorem FailsOnly.failure {x : Action α} {r : Except Error α} {e : Error}
    (hx : FailsOnly (· ≠ e) x) (h : Acts x d t r d') : failure? r ≠ some e := by
  intro hfailure
  rw [failure?_eq_some.mp hfailure] at h
  exact hx h rfl

/-- From a controller that is ready on, a reset is decided. -/
theorem negotiated_decided {base : UInt32} {r : Except Error (Option SwitchFailure)}
    (h : Acts (do
      let failure ← negotiate config base
      finishReset config failure) d t r d') (hd : Knows c d) (hzero : c.rca = 0) :
    Decided t (failure? r) := by
  have hidle : Recites c [order .goIdleState 0]
      (orFail (issueCommand .goIdleState 0 commandTimeout) .goIdle [.noGoIdle]) :=
    (issueCommand_utters rfl rfl (by decide)).recites.orFail (by simp [Quiet])
  have hidleFails : FailsOnly (· ≠ .interfaceCondition)
      (orFail (issueCommand .goIdleState 0 commandTimeout) .goIdle [.noGoIdle]) :=
    orFail_failsOnly (by simp)
  have hcheck : Utters c [order .sendIfCond interfaceCheck] checkInterfaceCondition :=
    checkInterfaceCondition_asks.utters rfl rfl (by decide)
  rw [negotiate, bind_assoc] at h
  refine .bind h (fun t r d' hi => ?_) fun t1 _ d1 hi t r d' h1 => ?_
  · exact .of_unasked (hidleFails.failure hi)
      (not_mem_commands (hidle hi hd).said (by decide) (by decide))
  have hknows : Knows c d1 := (hidle hi hd).knows
  -- If the card is found to be removed the check goes by this record, which has no error bits.
  have hclean : d1.last.error = 0 := by
    obtain ⟨-, _, _, d2, -, hstart⟩ := issue_started (orFail_ok hi)
    obtain ⟨_, stop, -, -, hends, hrecorded⟩ := start_checked hstart
    cases stop with
    | none => exact (hrecorded rfl).error
    | some sample => cases hends.1
  rw [bind_assoc] at h1
  refine .bind h1 (fun t r d' hc => ?_) fun t2 answered d2 hc t r d' h2 => ?_
  · exact checkInterfaceCondition_decided hc (hknows.rca_eq_zero hzero) hclean
  have hchecked : Knows c d2 := (hcheck hc hknows).knows
  refine .bind (x := negotiateOn config base answered) h2 (fun t r d' hn => ?_)
    fun t3 failure d3 hn t r d' hf => ?_
  · exact .of_unasked (negotiateOn_fails.failure hn) (negotiateOn_unasked hn hchecked).1
  · obtain ⟨-, c', hrca, hnegotiated⟩ := negotiateOn_unasked hn hchecked
    have hfinish : FailsOnly (· ≠ .interfaceCondition) (finishReset config failure) := by
      refine finishReset_fails (by simp) (by simp) (by simp) ?_
      rintro _ hstage rfl
      exact absurd hstage (by decide)
    exact .of_unasked (hfinish.failure hf)
      (finishReset_unasked hf hnegotiated (hrca.trans hzero))

theorem resetOnce_decided {r : Except Error (Option SwitchFailure)}
    (h : Acts (resetOnce config) d t r d') : Decided t (failure? r) := by
  have hprepare : FailsOnly (· ≠ .interfaceCondition) (prepareController config) := by
    refine prepareController_fails.mono ?_
    rintro _ ⟨hstage, -⟩ rfl
    nomatch hstage
  refine .bind h (fun t r d' hp => ?_) fun t1 base d1 hp t r d' h1 => ?_
  · have hsilent := commands_of_still ((keepsClear_still.prepareController config).acts hp).2
    exact .of_unasked (hprepare.failure hp) (by simp [hsilent])
  · exact negotiated_decided (acts_modify_bind.mp h1) rfl rfl

theorem resetAttempts_decided {attempts : Nat} {r : Except Error Unit}
    (h : Acts (resetAttempts config attempts) d t r d') : Decided t (failure? r) := by
  induction attempts generalizing d t with
  | zero =>
    obtain ⟨rfl, rfl, -⟩ := acts_throw.mp h
    exact .of_unasked nofun List.not_mem_nil
  | succ attempts ih =>
    rcases resetAttempts_acts h with ⟨e, rfl, ho⟩ | ⟨rfl, ho⟩ | ⟨step, t1, t2, d1, _, rfl, ho, h1⟩
    · exact resetOnce_decided ho
    · exact resetOnce_decided ho
    · -- An attempt that is to be repeated has not ended for the interface condition.
      refine .append ((resetOnce_decided ho).accepted nofun) (.append ?_ (ih h1))
      exact accepted_of_unasked List.not_mem_nil

/-- An enumeration ends for the interface condition exactly if SEND_IF_COND is rejected. -/
theorem Decided.aborts {r : Except Error α} (h : Decided t (failure? r)) :
    r = .error .interfaceCondition ↔
      ∃ sample, FirstSample .sendIfCond sample t ∧ Rejects (namedErrors sample) := by
  rw [← failure?_eq_some]
  rcases h with ⟨habort, hrejected⟩ | ⟨hother, haccepted⟩
  · exact iff_of_true habort hrejected
  · refine iff_of_false hother ?_
    rintro ⟨sample, ⟨before, after, rfl, hsample⟩, hrejects⟩
    obtain ⟨sample', hfirst, hnot⟩ := haccepted before after rfl
    have hsame : some sample' = some sample := by rw [← hsample, ← hfirst [], List.append_nil]
    exact hnot (Option.some.inj hsame ▸ hrejects)

/-- A command that fails is told to have timed out exactly if the sample at which it fails has no
named error bit; otherwise it is told with these bits. After SEND_IF_COND the card is taken for an
old one in the first case, and where the controller names a card that does not answer. In any other
the enumeration ends. -/
theorem failure_diagnosed (config : Config) :
    (∀ command word argument timeout data d t e d',
      Acts (start command word argument timeout data) d t (.error e) d' →
      ∃ sample, Deviates (checkpoints word data d.blockWords) t sample ∧
        Diagnosed command sample e d'.last) ∧
    (∀ d t r d', Acts checkInterfaceCondition d t r d' →
      ∀ sample, FirstSample .sendIfCond sample t → Concludes sample r) ∧
    ∀ d t r d', Acts (cardReset config) d t r d' →
      (r = .error .interfaceCondition ↔
        ∃ sample, FirstSample .sendIfCond sample t ∧ Rejects (namedErrors sample)) := by
  refine ⟨fun _ _ _ _ _ _ _ _ _ h => start_diagnosed h, fun d t r d' h sample hsample => ?_,
    fun d t r d' h => (resetAttempts_decided h).aborts⟩
  obtain ⟨before, after, heq, hfirst⟩ := hsample
  rcases checkInterfaceCondition_acts h with ⟨hunasked, -⟩ |
    ⟨t1, t2, sample', rfl, hbefore, hsilent, hfirst', hconcludes⟩
  · rw [heq] at hunasked
    exact absurd (by simp) hunasked
  · obtain ⟨rfl, -, rfl⟩ := started_once hbefore (by simp [hsilent]) heq
    have hsame : some sample' = some sample := by rw [← hfirst, ← hfirst' [], List.append_nil]
    exact Option.some.inj hsame ▸ hconcludes

/-- A slot in which SEND_IF_COND ends with the error bits `shown`. -/
def faultySlot (shown : UInt32) : Device port UInt32
  | .read .interrupt, w =>
    if w == Command.sendIfCond.word.bits then some (Interrupt.error ||| shown, w)
    else promptCard [.ioSetOpCond] 0 (.read .interrupt) w
  | o, w => promptCard [.ioSetOpCond] 0 o w

/-- A checksum error is told as such, and ends the enumeration. -/
theorem failure_diagnosed_crc :
    (∃ t d', Acts (start .sendIfCond Command.sendIfCond.word interfaceCheck commandTimeout .none)
        {} t (.error (.command .sendIfCond Interrupt.commandCrc)) d' ∧
      Deviates [.command .short] t (Interrupt.error ||| Interrupt.commandCrc) ∧
      Diagnosed .sendIfCond (Interrupt.error ||| Interrupt.commandCrc)
        (.command .sendIfCond Interrupt.commandCrc) d'.last) ∧
    ∃ t d', Acts (cardReset {}) {} t (.error .interfaceCondition) d' ∧
      ∃ sample, FirstSample .sendIfCond sample t ∧ Rejects (namedErrors sample) := by
  constructor
  · obtain ⟨t, d', hrun, hlast⟩ : ∃ t d', Acts (start .sendIfCond Command.sendIfCond.word
        interfaceCheck commandTimeout .none) {} t
        (.error (.command .sendIfCond Interrupt.commandCrc)) d' ∧
        (d'.last.interrupt == Interrupt.error ||| Interrupt.commandCrc) = true :=
      exists_fails (P := fun d' => d'.last.interrupt == Interrupt.error ||| Interrupt.commandCrc)
        (by decide +kernel : ((Prog.run (faultySlot Interrupt.commandCrc)
          ((start .sendIfCond Command.sendIfCond.word interfaceCheck commandTimeout .none).run.run
            {}) 0).any _) = true)
    obtain ⟨sample, hdeviates, htold⟩ := (failure_diagnosed {}).1 _ _ _ _ _ _ _ _ _ hrun
    obtain rfl : sample = Interrupt.error ||| Interrupt.commandCrc :=
      htold.interrupt.symm.trans (eq_of_beq hlast)
    exact ⟨t, d', hrun, hdeviates, htold⟩
  · obtain ⟨t, d', hrun, -⟩ : ∃ t d', Acts (cardReset {}) {} t (.error .interfaceCondition) d' ∧
        (!d'.last.success) = true :=
      exists_fails (P := fun d' => !d'.last.success)
        (by decide +kernel : ((Prog.run (faultySlot Interrupt.commandCrc)
          ((cardReset {}).run.run {}) 0).any _) = true)
    exact ⟨t, d', hrun, ((failure_diagnosed {}).2.2 _ _ _ _ hrun).mp rfl⟩

/-- What follows the first start of a command by the word `w`. -/
def afterStart (w : UInt32) : History → History
  | [] => []
  | writeOf .command v :: t => if v = w then t else afterStart w t
  | _ :: t => afterStart w t

theorem firstSample_of_afterStart
    (h : (samples (afterStart command.word.bits t)).head? = some sample) :
    FirstSample command sample t := by
  induction t using afterStart.induct command.word.bits with
  | case1 => nomatch h
  | case2 t =>
    rw [afterStart, if_pos rfl] at h
    exact ⟨[], t, rfl, h⟩
  | case3 v t hother ih =>
    rw [afterStart, if_neg hother] at h
    exact (ih h).append_left [writeOf .command v]
  | case4 e t hother ih =>
    rw [afterStart] at h
    · exact (ih h).append_left [e]
    · exact hother

/-- An error bit without a name is told as a timeout, and the card is taken for an old one. -/
theorem unnamed_error_misdiagnosed :
    (¬ ∀ command word argument timeout data d t e d',
      Acts (start command word argument timeout data) d t (.error e) d' →
      ∀ sample, Deviates (checkpoints word data d.blockWords) t sample →
        ((e = .timeout command ∧ d'.last.timedOut = true) ↔
          hasBits sample Interrupt.errorMask = false)) ∧
    ¬ ∀ config d t r d', Acts (cardReset config) d t r d' →
      ∀ sample, FirstSample .sendIfCond sample t → hasBits sample Interrupt.errorMask = true →
        hasBits sample Interrupt.commandTimeout = false → r = .error .interfaceCondition := by
  constructor
  · intro htimeoutIff
    obtain ⟨t, d', hrun, hlast⟩ : ∃ t d', Acts (start .sendIfCond Command.sendIfCond.word
        interfaceCheck commandTimeout .none) {} t (.error (.timeout .sendIfCond)) d' ∧
        (d'.last.timedOut && d'.last.interrupt == 0x08008000) = true :=
      exists_fails (P := fun d' => d'.last.timedOut && d'.last.interrupt == 0x08008000)
        (by decide +kernel : ((Prog.run (faultySlot 0x08000000)
          ((start .sendIfCond Command.sendIfCond.word interfaceCheck commandTimeout .none).run.run
            {}) 0).any _) = true)
    obtain ⟨htimedOut, hinterrupt⟩ := Bool.and_eq_true_iff.mp hlast
    obtain ⟨sample, hdeviates, htold⟩ := start_diagnosed hrun
    have hnone := (htimeoutIff _ _ _ _ _ _ _ _ _ hrun sample hdeviates).mp ⟨rfl, htimedOut⟩
    rw [← htold.interrupt, eq_of_beq hinterrupt] at hnone
    exact absurd hnone (by decide)
  · intro hrefuses
    obtain ⟨t, r, d', hrun, hends⟩ : ∃ t r d', Runs (cardReset {}).run {} t r d' ∧
        (r.toBool && (samples (afterStart Command.sendIfCond.word.bits t)).head? ==
          some 0x08008000) = true :=
      exists_runs (P := fun t r _ => r.toBool &&
          (samples (afterStart Command.sendIfCond.word.bits t)).head? == some 0x08008000)
        (by decide +kernel : ((Prog.run (faultySlot 0x08000000) ((cardReset {}).run.run {}) 0).any
          _) = true)
    obtain ⟨hok, hsample⟩ := Bool.and_eq_true_iff.mp hends
    have hfirst : FirstSample .sendIfCond 0x08008000 t :=
      firstSample_of_afterStart (eq_of_beq hsample)
    rw [hrefuses _ _ _ _ _ hrun _ hfirst rfl rfl] at hok
    nomatch hok

end Peripherals.Sd
