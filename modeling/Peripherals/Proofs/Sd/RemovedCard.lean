import Mathlib.Data.List.Basic
import Peripherals.Proofs.Sd.Invariant
import Peripherals.Proofs.Sd.Orders
import Peripherals.Proofs.Sd.Removal

/-! What a card that has been removed is still told. Once a sweep has noticed the removal, no
command is started until the controller is taken through a reset with a card in the slot. One
command slips through: the request for its status, if the card interrupts in the same sweep. -/

namespace Peripherals.Sd

open RegisterBlock (read write)

variable {config : Config} {command : Command} {argument timeout : UInt32} {data : Transfer}
  {d d1 d' : Driver} {t t1 t2 : History}

/-! How a slot comes back to life. -/

section Revives

/-- The controller is taken out of a reset, with a card in the slot and a clock that is stable. -/
def Readies (t : History) : Prop :=
  ∃ t0 t1 t2 t3 t4 reset control status clock,
    t = t0 ++ writeOf .control1 reset :: (t1 ++ readOf .control1 control ::
      (t2 ++ readOf .status status :: (t3 ++ readOf .control1 clock :: t4))) ∧
    hasBits reset Control1.resetHost = true ∧ hasBits control Control1.resetAll = false ∧
    hasBits status Status.cardInserted = true ∧ hasBits clock Control1.clockStable = true

/-- A part of the history makes the controller ready for the commands to a card. -/
def Revives (t : History) : Prop :=
  ∃ t0 t1 t2, t = t0 ++ (t1 ++ t2) ∧ Readies t1 ∧
    ∃ config d base d', Acts (prepareController config) d t1 (.ok base) d'

theorem Revives.append_left (t1 : History) (h : Revives t) : Revives (t1 ++ t) := by
  obtain ⟨t2, t3, t4, rfl, hready⟩ := h
  exact ⟨t1 ++ t2, t3, t4, by simp, hready⟩

theorem Revives.append_right (t2 : History) (h : Revives t) : Revives (t ++ t2) := by
  obtain ⟨t1, t3, t4, rfl, hready⟩ := h
  exact ⟨t1, t3, t4 ++ t2, by simp, hready⟩

theorem resetController_readies {u : Unit} (h : Acts resetController d t (.ok u) d') :
    ∃ t0 t1 t2 reset control status,
      t = t0 ++ writeOf .control1 reset :: (t1 ++ readOf .control1 control ::
        (t2 ++ [readOf .status status])) ∧
      hasBits reset Control1.resetHost = true ∧ hasBits control Control1.resetAll = false ∧
      hasBits status Status.cardInserted = true := by
  obtain ⟨v, _, rfl, h1⟩ := acts_read_bind.mp h
  obtain ⟨t1, rfl, h2⟩ := acts_write_bind.mp h1
  obtain ⟨t2, t3, result, d1, rfl, hwait, h3⟩ := acts_bind_ok.mp h2
  obtain ⟨-, ⟨e, rfl⟩ | ⟨rfl, t4, control, rfl, hcontrol⟩⟩ := waitRegister_acts hwait
  · obtain ⟨t4, -, h4⟩ := acts_report_bind.mp h3
    nomatch (acts_throw.mp h4).2.1
  obtain ⟨t5, t6, _, d2, rfl, -, h4⟩ := acts_bind_ok.mp h3
  obtain ⟨status, t7, rfl, h5⟩ := acts_read_bind.mp h4
  by_cases hinserted : status &&& Status.cardInserted = 0
  · rw [if_pos hinserted] at h5
    obtain ⟨t8, -, h6⟩ := acts_report_bind.mp h5
    nomatch (acts_throw.mp h6).2.1
  · rw [if_neg hinserted] at h5
    obtain ⟨rfl, -, -⟩ := acts_pure.mp h5
    refine ⟨[readOf .control1 v], t4, t5, _, control, status, by simp, hasBits_resetHost v,
      hcontrol, ?_⟩
    simpa [hasBits] using hinserted

theorem startClock_stable {base : UInt32} {u : Unit} (h : Acts (startClock base) d t (.ok u) d') :
    ∃ t1 t2 clock, t = t1 ++ readOf .control1 clock :: t2 ∧
      hasBits clock Control1.clockStable = true := by
  obtain ⟨v, _, rfl, h1⟩ := acts_read_bind.mp h
  obtain ⟨t1, rfl, h2⟩ := acts_write_bind.mp h1
  obtain ⟨t2, t3, result, d1, rfl, hwait, h3⟩ := acts_bind_ok.mp h2
  obtain ⟨-, ⟨e, rfl⟩ | ⟨rfl, t4, clock, rfl, hclock⟩⟩ := waitRegister_acts hwait
  · obtain ⟨t4, -, h4⟩ := acts_report_bind.mp h3
    nomatch (acts_throw.mp h4).2.1
  · exact ⟨readOf .control1 v :: writeOf .control1 (identificationControl v base) :: t4, t3, clock,
      by simp, hclock⟩

theorem prepareController_revives {base : UInt32}
    (h : Acts (prepareController config) d t (.ok base) d') : Revives t := by
  refine ⟨[], t, [], by simp, ?_, config, d, base, d', h⟩
  obtain ⟨t1, _, _, d1, rfl, hreset, h1⟩ := acts_bind_ok.mp h
  obtain ⟨t2, rfl, h2⟩ := acts_write_bind.mp h1
  obtain ⟨t3, _, base', d2, rfl, -, h3⟩ := acts_bind_ok.mp h2
  obtain ⟨t4, t5, _, d3, rfl, hclock, -⟩ := acts_bind_ok.mp h3
  obtain ⟨a0, a1, a2, reset, control, status, rfl, hreset, hcontrol, hstatus⟩ :=
    resetController_readies hreset
  obtain ⟨b1, b2, clock, rfl, hstable⟩ := startClock_stable hclock
  exact ⟨a0, a1, a2, writeOf .control2 0 :: (t3 ++ b1), b2 ++ t5, reset, control, status, clock,
    by simp, hreset, hcontrol, hstatus, hstable⟩

end Revives

/-! Commands that are held back. -/

/-- No command is started before the slot comes back to life. -/
def HeldBack (t : History) : Prop :=
  ∀ t1 w t2, t = t1 ++ writeOf .command w :: t2 → Revives t1

theorem heldBack_of_silent (h : commands t = []) : HeldBack t := by
  rintro t1 w t2 rfl
  simp at h

theorem HeldBack.append (h1 : HeldBack t1) (h2 : HeldBack t2 ∨ Revives t1) :
    HeldBack (t1 ++ t2) := by
  intro before w after heq
  rcases append_eq_split heq with ⟨middle, hfirst, -⟩ | ⟨middle, rfl, hsecond⟩
  · exact h1 before w middle hfirst
  · rcases h2 with h2 | h2
    · exact (h2 middle w after hsecond).append_left t1
    · exact h2.append_right middle

/-- Commands are held back, and that goes on unless the slot has come back to life. -/
structure Waits (t : History) (d' : Driver) : Prop where
  held : HeldBack t
  ends : d'.cardRemoved = true ∨ Revives t

theorem Waits.append (h1 : Waits t1 d1) (h2 : d1.cardRemoved = true → Waits t2 d') :
    Waits (t1 ++ t2) d' := by
  -- Once the slot has come back to life, whatever follows is free.
  rcases h1.ends with hremoved | hrevives
  · refine ⟨h1.held.append (.inl (h2 hremoved).held), ?_⟩
    exact (h2 hremoved).ends.imp_right (Revives.append_left t1)
  · exact ⟨h1.held.append (.inr hrevives), .inr (hrevives.append_right t2)⟩

/-- The requests by which a sweep asks for the status of a card. -/
def Serves (t : History) : Prop :=
  t = [] ∨ ∃ d : Driver, t = opening d Command.sendStatus.word d.card.rcaArgument .none

/-- Commands wait after the removal of a card, save that the sweep that notices it may ask for the
status of the card. -/
structure Heeds (d : Driver) (t : History) (d' : Driver) : Prop where
  forgotten : Forgotten d'
  known : d.cardRemoved = true → Waits t d'
  noticed (t1 t2 : History) : t = t1 ++ noteOf .removed :: t2 →
    ∃ served t3, t2 = served ++ t3 ∧ Serves served ∧ Waits t3 d'

theorem Heeds.trans (h1 : Heeds d t1 d1) (h2 : Heeds d1 t2 d') : Heeds d (t1 ++ t2) d' where
  forgotten := h2.forgotten
  known hremoved := (h1.known hremoved).append h2.known
  noticed before after heq := by
    -- After a note in the first part its step waits, and the second goes on waiting.
    rcases append_eq_split heq with ⟨middle, hfirst, rfl⟩ | ⟨middle, -, hsecond⟩
    · obtain ⟨served, t3, rfl, hserves, hwaits⟩ := h1.noticed before middle hfirst
      exact ⟨served, t3 ++ t2, by simp, hserves, hwaits.append h2.known⟩
    · exact h2.noticed middle after hsecond

theorem heeds_of_silent (hd : Forgotten d') (hsame : d.cardRemoved = true → d'.cardRemoved = true)
    (hsilent : commands t = []) (hunnoticed : noteOf .removed ∉ t) : Heeds d t d' where
  forgotten := hd
  known hremoved := ⟨heldBack_of_silent hsilent, .inl (hsame hremoved)⟩
  noticed before after heq := by
    refine absurd ?_ hunnoticed
    rw [heq]
    exact List.mem_append_right _ List.mem_cons_self

/-! What a sweep does about a removal. -/

section Sweep

variable {r : Except Error Unit}

theorem keepsTransfer_unnoticed : KeepsTransfer fun _ t _ => noteOf .removed ∉ t where
  refl _ := List.not_mem_nil
  trans h1 h2 hmem := (List.mem_append.mp hmem).elim h1 h2
  quiet _ _ he hmem := by
    obtain rfl := List.mem_singleton.mp hmem
    exact he
  received _ _ := by simp
  last _ _ := List.not_mem_nil
  command _ _ := by simp

theorem unnoticed_of_quiet (h : ∀ e ∈ t, Quiet e) : noteOf .removed ∉ t :=
  fun hmem => h _ hmem

/-- The requests for the status of a card that interrupts, where it has an address. -/
def statusQuery (d : Driver) (sample : UInt32) : History :=
  if hasBits sample Interrupt.card = true ∧ d.card.rca ≠ 0 then
    opening d Command.sendStatus.word d.card.rcaArgument .none
  else []

theorem noticeCard_query {status sample : UInt32} (h : Acts (noticeCard status) d t r d')
    (hbit : hasBits status Interrupt.card = hasBits sample Interrupt.card) :
    ∃ rest, t = statusQuery d sample ++ rest ∧ commands rest = [] ∧ noteOf .removed ∉ rest := by
  obtain ⟨-, hserved⟩ := noticeCard_acts h
  rw [hbit] at hserved
  rw [statusQuery]
  rcases hserved with ⟨hshown, hrca, t1, t2, r1, rfl, hquiet, hstart⟩ | ⟨hnone, hquiet, -⟩
  · obtain ⟨t3, rfl, hsilent⟩ := start_commands hstart
    have hunnoticed :=
      (keepsTransfer_unnoticed.start (by simp [Transfer.isSend]) _ _ _ _).acts hstart
    rw [if_pos ⟨hshown, hrca⟩]
    refine ⟨t3 ++ t2, by simp, by simp [hsilent, commands_of_quiet hquiet], ?_⟩
    rw [List.mem_append] at hunnoticed ⊢
    exact fun hmem => hmem.elim (fun h => hunnoticed (.inr h)) (unnoticed_of_quiet hquiet)
  · rw [if_neg hnone]
    exact ⟨t, rfl, commands_of_quiet hquiet, unnoticed_of_quiet hquiet⟩

/-- A sweep notes a removal that it samples, and the only command that it starts follows the note at
once. -/
theorem sweep_notices (h : Acts sweep d t r d') :
    ∃ sample before noted after, t = readOf .interrupt sample ::
        (before ++ (noted ++ (statusQuery d sample ++ after))) ∧
      commands before = [] ∧ noteOf .removed ∉ before ∧
      commands after = [] ∧ noteOf .removed ∉ after ∧
      (hasBits sample Interrupt.cardRemoval = true ∧ noted = [noteOf .removed] ∧
          d'.cardRemoved = true ∨
        hasBits sample Interrupt.cardRemoval = false ∧ noted = [] ∧
          d'.cardRemoved = d.cardRemoved) := by
  obtain ⟨-, sample, v, before, noted, served, after, d1, rfl, hbefore, hafter, -, hn, hc⟩ :=
    sweep_acts h
  obtain ⟨-, hremoval⟩ := noticeRemoval_acts hn
  rw [hasBits_named rfl] at hremoval
  have hstill : d'.cardRemoved = d1.cardRemoved := by rw [noticeCard_onlyLast hc]
  have hquery : statusQuery d1 sample = statusQuery d sample := by
    rcases hremoval with ⟨-, -, rfl⟩ | ⟨-, -, rfl⟩
    · rfl
    · rfl
  obtain ⟨rest, rfl, hsilent, hunnoticed⟩ := noticeCard_query hc (hasBits_named rfl)
  rw [hquery]
  refine ⟨sample, before, noted, rest ++ (after ++ [writeOf .interrupt v]), by simp,
    commands_of_quiet hbefore, unnoticed_of_quiet hbefore, ?_, ?_, ?_⟩
  · simp only [commands_append, hsilent, commands_of_quiet hafter]
    rfl
  · simp [hunnoticed, unnoticed_of_quiet hafter]
  · rw [hstill]
    rcases hremoval with ⟨hbit, hnoted, rfl⟩ | ⟨hbit, hnoted, rfl⟩
    · exact .inl ⟨hbit, hnoted, rfl⟩
    · exact .inr ⟨hbit, hnoted, rfl⟩

theorem statusQuery_serves (d : Driver) (sample : UInt32) : Serves (statusQuery d sample) := by
  unfold statusQuery
  split
  · exact .inr ⟨d, rfl⟩
  · exact .inl rfl

theorem statusQuery_unnoticed (d : Driver) (sample : UInt32) :
    noteOf .removed ∉ statusQuery d sample := by
  unfold statusQuery
  split
  · simp [opening]
  · exact List.not_mem_nil

theorem statusQuery_unaddressed {sample : UInt32} (h : d.card.rca = 0) :
    statusQuery d sample = [] := if_neg fun hboth => hboth.2 h

theorem announced_unnoticed (h : Acts (do
    announce command timeout
    startReported command argument timeout data) d t r d') : noteOf .removed ∉ t :=
  (keepsTransfer_unnoticed.bind (keepsTransfer_unnoticed.announce _ _) fun _ =>
    keepsTransfer_unnoticed.startReported (fun _ _ _ => by simp) _ _ _).acts h

theorem refused_heeds (h : Acts (refuseInvalid command data) d t r d') (hd : Forgotten d) :
    Heeds d t d' := by
  obtain ⟨hquiet, hrefused⟩ := refuseInvalid_acts h
  obtain ⟨hcard, hremoved⟩ : d'.card = d.card ∧ d'.cardRemoved = d.cardRemoved := by
    rcases hrefused with ⟨-, rfl, -⟩ | ⟨-, -, rfl⟩ | ⟨-, -, rfl⟩
    · exact ⟨rfl, rfl⟩
    · exact ⟨rfl, rfl⟩
    · exact ⟨rfl, rfl⟩
  refine heeds_of_silent (fun hgone => ?_) (fun hgone => ?_) (commands_of_quiet hquiet)
    (unnoticed_of_quiet hquiet)
  · rw [hcard]
    exact hd (hremoved ▸ hgone)
  · rw [hremoved, hgone]

theorem gone_heeds (h : Acts sweep d t r d1) (hd : Forgotten d) (hgone : d'.cardRemoved = true)
    (hd' : Forgotten d') : Heeds d t d' := by
  obtain ⟨sample, before, noted, after, rfl, hbefore, hnone, hafter, hnone', hnotice⟩ :=
    sweep_notices h
  refine ⟨hd', fun hremoved => ⟨heldBack_of_silent ?_, .inl hgone⟩, fun t1 t2 heq => ?_⟩
  · have hnoted : commands noted = [] := by
      rcases hnotice with ⟨-, rfl, -⟩ | ⟨-, rfl, -⟩ <;> rfl
    rw [statusQuery_unaddressed (hd hremoved)]
    simp [hbefore, hnoted, hafter]
  rcases hnotice with ⟨-, rfl, -⟩ | ⟨-, rfl, -⟩
  · -- The removal is noted once, so the note that the history is split at is the one of the sweep.
    have hfirst : noteOf .removed ∉ readOf .interrupt sample :: before := by simp [hnone]
    have hrest : noteOf .removed ∉ statusQuery d sample ++ after := by
      simp [hnone', statusQuery_unnoticed]
    obtain ⟨-, -, rfl⟩ := (List.append_cons_inj_of_notMem hfirst hrest).mp heq
    exact ⟨_, after, rfl, statusQuery_serves d sample, heldBack_of_silent hafter, .inl hgone⟩
  · have hmem : noteOf .removed ∈ t1 ++ noteOf .removed :: t2 :=
      List.mem_append_right _ List.mem_cons_self
    rw [← heq] at hmem
    simp [hnone, hnone', statusQuery_unnoticed] at hmem

/-- A command that is requested where a removal is known is not started. -/
theorem issue_heeds (h : Acts (issue command argument timeout data) d t r d') (hd : Forgotten d) :
    Heeds d t d' := by
  by_cases hvalid : command.word.isReserved = false ∧ data.size / d.blockWords ≤ maxBlocks
  case neg => exact refused_heeds (issue_refused hvalid h).1 hd
  obtain ⟨t1, t2, d1, rfl, hs, ⟨hgone, rfl, -, rfl⟩ | ⟨hpresent, h1⟩⟩ :=
    issue_acts hvalid.1 hvalid.2 h
  · rw [List.append_nil]
    exact gone_heeds hs hd hgone fun _ => rfl
  obtain ⟨sample, before, noted, after, rfl, -, hnone, -, hnone', hnotice⟩ := sweep_notices hs
  obtain ⟨rfl, hremoved⟩ : noted = [] ∧ d1.cardRemoved = d.cardRemoved := by
    rcases hnotice with ⟨-, -, hgone⟩ | ⟨-, hnoted, hsame⟩
    · simp [hpresent] at hgone
    · exact ⟨hnoted, hsame⟩
  have hhere : d'.cardRemoved = false := by
    rw [announced_onlyLast h1]
    exact hpresent
  refine ⟨fun hgone => ?_, fun hgone => ?_, fun t3 t4 heq => ?_⟩
  · simp [hhere] at hgone
  · simp [← hremoved, hpresent] at hgone
  · refine absurd (?_ : noteOf .removed ∈ _) (announced_unnoticed h1)
    have hmem : noteOf .removed ∈ t3 ++ noteOf .removed :: t4 :=
      List.mem_append_right _ List.mem_cons_self
    rw [← heq] at hmem
    simpa [hnone, hnone', statusQuery_unnoticed] using hmem

end Sweep

/-! What all steps make of a removal. -/

section Steps

/-- From a driver that has forgotten a removed card, the step heeds removals. -/
def KeepsHeed (d : Driver) (t : History) (d' : Driver) : Prop := Forgotten d → Heeds d t d'

theorem keepsHeed_changed (hd : Forgotten d → Forgotten d')
    (hsame : d.cardRemoved = true → d'.cardRemoved = true) : KeepsHeed d [] d' :=
  fun hforgotten => heeds_of_silent (hd hforgotten) hsame rfl List.not_mem_nil

theorem keepsCard_heed : KeepsCard KeepsHeed where
  refl _ := keepsHeed_changed id id
  trans h1 h2 hd := (h1 hd).trans (h2 (h1 hd).forgotten)
  quiet _ _ he hd := heeds_of_silent hd id (commands_of_still (traffic_quiet he))
    (unnoticed_of_quiet (by simpa using he))
  issue _ _ _ _ _ _ _ _ hx := issue_heeds hx
  card _ _ hc := keepsHeed_changed (fun hd hremoved => hc.trans (hd hremoved)) id

theorem keepsEnumeration_heed : KeepsEnumeration KeepsHeed where
  toKeepsCard := keepsCard_heed
  cleared _ hd := heeds_of_silent hd id rfl (by simp)
  addressed d rca hpresent := by
    refine keepsHeed_changed (fun _ hremoved => ?_) id
    rw [hpresent] at hremoved
    nomatch hremoved
  scr := keepsCard_heed.readScr fun _ _ => keepsHeed_changed id id

theorem keepsClear_unnoticed :
    KeepsClear fun d t d' => d' = d ∧ commands t = [] ∧ noteOf .removed ∉ t where
  refl _ := ⟨rfl, rfl, List.not_mem_nil⟩
  trans h1 h2 := by
    refine ⟨h2.1.trans h1.1, by simp [h1.2.1, h2.2.1], fun hmem => ?_⟩
    exact (List.mem_append.mp hmem).elim h1.2.2 h2.2.2
  quiet _ _ he :=
    ⟨rfl, commands_of_still (traffic_quiet he), unnoticed_of_quiet (by simpa using he)⟩
  cleared _ := ⟨rfl, rfl, by simp⟩

/-- Only a reset takes a removal back, once the controller is ready again. -/
theorem resetOnce_heed : Keeps KeepsHeed (resetOnce config).run := by
  intro d t r d' h hd
  rcases acts_bind.mp h with ⟨e, rfl, hp⟩ | ⟨t1, t2, base, d1, rfl, hp, h1⟩
  · obtain ⟨rfl, hsilent, hunnoticed⟩ := (keepsClear_unnoticed.prepareController config).acts hp
    exact heeds_of_silent hd id hsilent hunnoticed
  obtain ⟨rfl, hsilent, hunnoticed⟩ := (keepsClear_unnoticed.prepareController config).acts hp
  have hrevives := prepareController_revives hp
  have hrest : Keeps KeepsHeed (do
      let failure ← negotiate config base
      finishReset config failure : Action (Option SwitchFailure)).run :=
    keepsEnumeration_heed.bind (keepsEnumeration_heed.negotiate config base) fun failure =>
      keepsEnumeration_heed.finishReset config failure
  have hheeds := hrest.acts (acts_modify_bind.mp h1) nofun
  refine ⟨hheeds.forgotten, fun _ => ?_, fun before after heq => ?_⟩
  · exact ⟨(heldBack_of_silent hsilent).append (.inr hrevives), .inr (hrevives.append_right t2)⟩
  · rcases append_eq_split heq with ⟨middle, rfl, -⟩ | ⟨middle, -, hsecond⟩
    · exact absurd (List.mem_append_right _ List.mem_cons_self) hunnoticed
    · exact hheeds.noticed middle after hsecond

theorem keepsAccess_heed (config : Config) : KeepsAccess config KeepsHeed where
  toKeepsQuiet := keepsCard_heed.toKeepsQuiet
  reset := resetOnce_heed
  gate _ := keepsCard_heed.issueCommand _
  dropped _ := keepsHeed_changed (fun _ _ => rfl) id
  switched _ := keepsHeed_changed id id
  version _ _ := keepsHeed_changed id id

theorem step_heed {o : Operation} : Keeps KeepsHeed (o.step config) :=
  (keepsAccess_heed config).step (fun _ _ _ _ _ _ _ _ _ hx => issue_heeds hx)
    (fun _ _ _ _ => keepsCard_heed.issueCommand _ _ _) (fun _ _ => keepsHeed_changed id id)
    fun _ _ => keepsHeed_changed id id

theorem Session.heeds {os : List Operation} (h : Session config d os t d') (hd : Forgotten d) :
    Heeds d t d' :=
  h.keeps keepsCard_heed.toComposes (fun _ _ => step_heed) hd

end Steps

/-- A command that is requested where a removal is known, or noticed by its own sweep, fails and
leaves no address. -/
theorem issue_refuses {r : Except Error Unit}
    (h : Acts (issue command argument timeout data) d t r d')
    (hvalid : command.word.isReserved = false) (hblocks : data.size / d.blockWords ≤ maxBlocks)
    (hremoved : d.cardRemoved = true ∨ noteOf .removed ∈ t) :
    r = .error .cardRemoved ∧ d'.card.rca = 0 := by
  obtain ⟨t1, t2, d1, rfl, hs, ⟨-, -, rfl, rfl⟩ | ⟨hpresent, h1⟩⟩ := issue_acts hvalid hblocks h
  · exact ⟨rfl, rfl⟩
  obtain ⟨sample, before, noted, after, rfl, -, hnone, -, hnone', hnotice⟩ := sweep_notices hs
  have hquiet := announced_unnoticed h1
  rcases hnotice with ⟨-, -, hgone⟩ | ⟨-, rfl, hsame⟩
  · simp [hpresent] at hgone
  rcases hremoved with hgone | hmem
  · simp [← hsame, hpresent] at hgone
  · simp [hnone, hnone', hquiet, statusQuery_unnoticed] at hmem

/-- What becomes of a card that has been removed. A sweep notes a removal that it samples before it
starts a command, and starts one only where the card interrupts as well and has an address. After
that no command is started until a reset has made the controller ready again, and each command that
is requested fails. -/
theorem removed_card_waits (config : Config) (d : Driver) (hd : Reachable config d) :
    (∀ os t d', Session config d os t d' → Heeds d t d') ∧
    (∀ command argument timeout data d t r d', Acts (issue command argument timeout data) d t r d' →
      command.word.isReserved = false → data.size / d.blockWords ≤ maxBlocks →
      (d.cardRemoved = true ∨ noteOf .removed ∈ t) → r = .error .cardRemoved ∧ d'.card.rca = 0) ∧
    ∀ d t r d', Acts sweep d t r d' → ∃ sample t', t = readOf .interrupt sample :: t' ∧
      (hasBits sample Interrupt.cardRemoval = true → ∃ before after,
        t' = before ++ noteOf .removed :: after ∧ commands before = []) ∧
      commands t = if hasBits sample Interrupt.card = true ∧ d.card.rca ≠ 0 then
        [Command.sendStatus.word.bits] else [] := by
  obtain ⟨os, t0, hs⟩ := hd
  refine ⟨fun os' t d' h => h.heeds (hs.sound sound_start).forgotten,
    fun _ _ _ _ _ _ _ _ h hvalid hblocks hremoved => issue_refuses h hvalid hblocks hremoved,
    fun d t r d' h => ?_⟩
  obtain ⟨sample, t', rfl, hcommands⟩ := sweep_commands h
  obtain ⟨sample', before, noted, after, heq, hbefore, -, -, -, hnotice⟩ := sweep_notices h
  obtain ⟨hsample, rfl⟩ := List.cons.inj heq
  refine ⟨sample, _, rfl, fun hbit => ?_, hcommands⟩
  have hsame : sample = sample' := by simpa using hsample
  rcases hnotice with ⟨-, rfl, -⟩ | ⟨hnone, -, -⟩
  · exact ⟨before, _, rfl, hbefore⟩
  · simp [← hsame, hbit] at hnone

/-- A slot in which the bits `shown` show in the interrupt status from the configuration register of
the card on. -/
def lossySlot (shown : UInt32) : Device port UInt32
  | .read .interrupt, w =>
    promptCard [.ioSetOpCond] (if w == Command.sendScr.word.bits then shown else 0)
      (.read .interrupt) w
  | o, w => promptCard [.ioSetOpCond] 0 o w

theorem session_of_runs {a : Except Error Unit} (h : Runs (do
    let _ ← (cardReset config).run
    (ensureDataMode config).run) d t a d') :
    Session config d [.cardReset, .ensureDataMode] t d' := by
  obtain ⟨t1, t2, r, d1, rfl, hreset, hgate⟩ := runs_bind.mp h
  have hsecond := Session.cons (o := .ensureDataMode) hgate (.nil d')
  have hsession := Session.cons (o := .cardReset) hreset hsecond
  rwa [List.append_nil] at hsession

/-- A reset and an access there, between which the card is removed. -/
theorem removed_card_waits_lossy :
    ∃ t d', Session {} {} [.cardReset, .ensureDataMode] t d' ∧ noteOf .removed ∈ t ∧
      d'.cardRemoved = true ∧ Heeds {} t d' := by
  obtain ⟨t, a, d', hrun, hchanged⟩ : ∃ t a d', Runs (do
      let _ ← (cardReset {}).run
      (ensureDataMode {}).run) {} t a d' ∧ (d'.mediaChanged && d'.cardRemoved) = true :=
    exists_runs (P := fun _ _ d' => d'.mediaChanged && d'.cardRemoved)
      (by decide +kernel : ((Prog.run (lossySlot Interrupt.cardRemoval) (StateT.run _ _) 0).any _) =
        true)
  have hsession := session_of_runs hrun
  obtain ⟨hmedia, hgone⟩ := Bool.and_eq_true_iff.mp hchanged
  have hrecords := hsession.recordsRemoval (by simp [Operation.asksForChange])
  refine ⟨t, d', hsession, ?_, hgone, ?_⟩
  · simpa using hrecords.changed.mp hmedia
  · exact (removed_card_waits {} {} (reachable_start {})).1 _ _ _ hsession

/-- What follows the first note of a removal. -/
def afterRemoval : History → History
  | [] => []
  | noteOf .removed :: t => t
  | _ :: t => afterRemoval t

theorem afterRemoval_split (h : afterRemoval t ≠ []) :
    ∃ t1, t = t1 ++ noteOf .removed :: afterRemoval t := by
  induction t using afterRemoval.induct with
  | case1 => exact absurd rfl h
  | case2 t => exact ⟨[], rfl⟩
  | case3 e t hother ih =>
    rw [afterRemoval] at h ⊢
    · obtain ⟨t1, ht⟩ := ih h
      exact ⟨e :: t1, by rw [List.cons_append, ← ht]⟩
    · exact hother
    · exact hother

theorem exists_command (h : commands t ≠ []) : ∃ t1 w t2, t = t1 ++ writeOf .command w :: t2 := by
  induction t with
  | nil => exact absurd rfl h
  | cons e t ih =>
    by_cases hfirst : commands [e] = []
    · have hcons : commands (e :: t) = commands [e] ++ commands t := commands_append (t := [e])
      rw [hcons, hfirst, List.nil_append] at h
      obtain ⟨t1, w, t2, rfl⟩ := ih h
      exact ⟨e :: t1, w, t2, rfl⟩
    · obtain ⟨r | ⟨r, v⟩ | _ | _ | _ | _, _⟩ := e
      case write =>
        cases r
        case command => exact ⟨[], v, t, rfl⟩
        all_goals exact absurd rfl hfirst
      case read => cases r <;> exact absurd rfl hfirst
      all_goals exact absurd rfl hfirst

theorem Revives.clearsAll (h : Revives t) : ∃ e ∈ t, clearsAll e = true := by
  obtain ⟨t1, _, t2, rfl, ⟨a0, a1, a2, a3, a4, reset, control, status, clock, rfl, hreset, -⟩, -⟩ :=
    h
  exact ⟨writeOf .control1 reset, by simp, hreset⟩

/-- A card that is removed as it interrupts is asked for its status all the same. -/
theorem removed_card_commanded :
    ¬ ∀ (config : Config) (os : List Operation) (d' : Driver) (t1 t2 : History),
      Session config {} os (t1 ++ noteOf .removed :: t2) d' → HeldBack t2 := by
  intro hheldBack
  obtain ⟨t, a, d', hrun, hcommanded⟩ : ∃ t a d', Runs (do
      let _ ← (cardReset {}).run
      (ensureDataMode {}).run) {} t a d' ∧
        (!(commands (afterRemoval t)).isEmpty && (afterRemoval t).all (!clearsAll ·)) = true :=
    exists_runs (P := fun t _ _ =>
        !(commands (afterRemoval t)).isEmpty && (afterRemoval t).all (!clearsAll ·))
      (by decide +kernel : ((Prog.run (lossySlot (Interrupt.cardRemoval ||| Interrupt.card))
        (StateT.run _ _) 0).any _) = true)
  obtain ⟨hstarted, hkept⟩ : commands (afterRemoval t) ≠ [] ∧
      ∀ e ∈ afterRemoval t, clearsAll e = false := by
    simpa using hcommanded
  have hsession := session_of_runs hrun
  obtain ⟨before, hsplit⟩ := afterRemoval_split (t := t) fun hnone => by
    rw [hnone] at hstarted
    exact hstarted rfl
  rw [hsplit] at hsession
  obtain ⟨t3, w, t4, hcommand⟩ := exists_command hstarted
  -- The slot has not come back to life before the command that follows the note.
  obtain ⟨e, he, hall⟩ := (hheldBack {} _ d' before _ hsession t3 w t4 hcommand).clearsAll
  have hmem : e ∈ afterRemoval t := by
    rw [hcommand]
    exact List.mem_append_left _ he
  simp [hkept e hmem] at hall

end Peripherals.Sd
