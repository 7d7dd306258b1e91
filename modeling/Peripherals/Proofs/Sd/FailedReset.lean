import Peripherals.Proofs.Sd.Address
import Peripherals.Proofs.Sd.Answer
import Peripherals.Proofs.Sd.Failures
import Peripherals.Proofs.Sd.Gate
import Peripherals.Proofs.Sd.Operation

/-! The address of a card after an enumeration that fails. It depends on how far the enumeration
came: before its first command the old address stands, and once the card has chosen a new one that
stands, as long as the card is not removed. -/

namespace Peripherals.Sd

open RegisterBlock (read write)

variable {config : Config} {command : Command} {argument timeout : UInt32} {data : Transfer}
  {d d' : Driver} {t : History}

/-! The reset, part by part. -/

section Reset

theorem negotiate_commands {base : UInt32} {failure : Option SwitchFailure}
    (h : Acts (negotiate config base) d t (.ok failure) d') : commands t ≠ [] := by
  obtain ⟨t1, t2, _, d1, rfl, hidle, -⟩ := acts_bind_ok.mp h
  exact commands_ne_nil_left (issue_commands (orFail_ok hidle))

theorem identify_acts {r : Except Error Unit} (h : Acts identify d t r d') :
    (∃ e, r = .error e) ∧ KeepsAddress d t d' ∨
      r = .ok () ∧ d'.cardRemoved = false ∧ ∃ response : AddressResponse, response.isUsable = true ∧
        Answers .sendRelativeAddr response.raw t ∧ d'.card.rca = response.address := by
  have hcid : Keeps KeepsAddress (orFail (issueCommand .allSendCid 0 commandTimeout)
      .identify []).run :=
    keepsCard_address.orFail (keepsCard_address.issueCommand _ _ _) (by simp)
  have hrca : Keeps KeepsAddress (orFail (issueCommand .sendRelativeAddr 0 commandTimeout)
      .relativeAddress []).run :=
    keepsCard_address.orFail (keepsCard_address.issueCommand _ _ _) (by simp)
  rcases acts_bind.mp h with ⟨e, rfl, h1⟩ | ⟨t1, t2, _, d1, rfl, h1, h2⟩
  · exact .inl ⟨⟨e, rfl⟩, hcid.acts h1⟩
  have h3 := acts_modify_bind.mp (acts_get_bind.mp h2)
  have hkept : KeepsAddress d t1 { d1 with card := { d1.card with cid := d1.last.response } } := by
    rw [← t1.append_nil]
    exact keepsCard_address.trans (hcid.acts h1) (keepsCard_address.card d1 rfl)
  rcases acts_bind.mp h3 with ⟨e, rfl, h4⟩ | ⟨t3, t4, u, d2, rfl, h4, h5⟩
  · exact .inl ⟨⟨e, rfl⟩, keepsCard_address.trans hkept (hrca.acts h4)⟩
  have h6 := acts_get_bind.mp h5
  rw [acts_ite] at h6
  split at h6
  · rename_i husable
    obtain ⟨rfl, rfl, rfl⟩ := acts_modify.mp h6
    have hpresent := (issue_started (orFail_ok h4)).1
    refine .inr ⟨rfl, hpresent, ⟨d2.last.reply⟩, husable, ?_, rfl⟩
    have hanswer := (issue_answers (.inl rfl) rfl (orFail_ok h4)).answers
    exact (hanswer.append_right []).append_left t1
  · obtain ⟨t7, rfl, h7⟩ := acts_report_bind.mp h6
    obtain ⟨rfl, rfl, rfl⟩ := acts_throw.mp h7
    refine .inl ⟨⟨_, rfl⟩, keepsCard_address.trans hkept ?_⟩
    exact keepsCard_address.trans (hrca.acts h4) (keepsCard_address.quiet _ trivial)

/-- What an enumeration that fails with `e` leaves as the address of the card, which was `rca`
before. An error of the controller before the first command leaves it as it was. Once the card has
chosen an address, that one is left, unless the card was removed. -/
def AddressLeft (rca : UInt16) (e : Error) (t : History) (d' : Driver) : Prop :=
  match e.stage with
  | .controller => d'.card.rca = if commands t = [] then rca else 0
  | .negotiation => d'.card.rca = 0
  | .selection => ∃ response : AddressResponse, response.isUsable = true ∧
      Answers .sendRelativeAddr response.raw t ∧
      d'.card.rca = if d'.cardRemoved then 0 else response.address

variable {rca : UInt16} {e : Error}

theorem AddressLeft.of_negotiation (he : e.stage = .negotiation) (h : d'.card.rca = 0) :
    AddressLeft rca e t d' := by
  rw [AddressLeft, he]
  exact h

theorem AddressLeft.append_left {t1 : History} (hstarted : commands t1 ≠ [])
    (h : AddressLeft 0 e t d') : AddressLeft rca e (t1 ++ t) d' := by
  unfold AddressLeft at h ⊢
  cases hstage : e.stage with
  | controller =>
    rw [hstage] at h
    rw [if_neg (commands_ne_nil_left hstarted)]
    simpa using h
  | negotiation =>
    rw [hstage] at h
    exact h
  | selection =>
    rw [hstage] at h
    obtain ⟨response, husable, hanswer, hrca⟩ := h
    exact ⟨response, husable, hanswer.append_left t1, hrca⟩

theorem bringUp_left (hd : d.card.rca = 0) (before : History)
    (h : Acts (bringUp config) d t (.error e) d') : AddressLeft rca e (before ++ t) d' := by
  rcases acts_bind_error.mp h with hi | ⟨t1, t2, _, d1, rfl, hi, hp⟩
  · rcases identify_acts hi with ⟨-, hkept⟩ | ⟨hok, -⟩
    · have hstage : FailsOnly (fun e => e.stage = .negotiation) identify :=
        identify_fails rfl rfl fun _ => rfl
      exact .of_negotiation (hstage hi) (hkept.zero hd)
    · nomatch hok
  · rcases identify_acts hi with ⟨⟨e', he⟩, -⟩ | ⟨-, hpresent, response, husable, hanswer, hrca⟩
    · nomatch he
    -- From here on only a removal takes the address away.
    have hkept := prepareCard_address hp
    rw [AddressLeft, (prepareCard_fails hp).1]
    refine ⟨response, husable, (hanswer.append_right t2).append_left before, ?_⟩
    rw [hkept.rca hpresent, hrca]

theorem finishReset_left {failure : Option SwitchFailure} (hd : d.card.rca = 0) (before : History)
    (h : Acts (finishReset config failure) d t (.error e) d') :
    AddressLeft rca e (before ++ t) d' := by
  cases failure with
  | some step =>
    exact absurd h not_acts_pure_error
  | none =>
    obtain ⟨t1, t2, _, d1, rfl, hv, h1⟩ := reportVoltage_succeeds.acts_bind h
    obtain ⟨rfl, -⟩ := keepsQuiet_still.reportVoltage.acts hv
    rcases acts_bind_error.mp h1 with hb | ⟨t3, t4, _, d2, -, -, h2⟩
    · have hleft : AddressLeft rca e (before ++ t1 ++ t2) d' := bringUp_left hd (before ++ t1) hb
      rwa [List.append_assoc] at hleft
    · exact absurd h2 not_acts_pure_error

/-- A reset that ends with a failed switch to 1.8 volts has started a command and left no address.
-/
theorem resetOnce_switch {step : SwitchFailure}
    (h : Acts (resetOnce config) d t (.ok (some step)) d') :
    d'.card.rca = 0 ∧ commands t ≠ [] := by
  obtain ⟨t1, t2, base, d1, rfl, -, h1⟩ := acts_bind_ok.mp h
  obtain ⟨t3, t4, failure, d2, rfl, hn, hf⟩ := acts_bind_ok.mp (acts_modify_bind.mp h1)
  have hkept := (keepsCard_address.negotiate config base).acts hn
  have hstarted : commands (t1 ++ (t3 ++ t4)) ≠ [] :=
    commands_ne_nil_right (commands_ne_nil_left (negotiate_commands hn))
  cases failure with
  | some step' =>
    obtain ⟨-, -, rfl⟩ := acts_pure.mp hf
    exact ⟨hkept.zero rfl, hstarted⟩
  | none =>
    obtain ⟨t5, t6, _, d3, -, -, h2⟩ := acts_bind_ok.mp hf
    obtain ⟨t7, t8, _, d4, -, -, h3⟩ := acts_bind_ok.mp h2
    obtain ⟨-, hsome, -⟩ := acts_pure.mp h3
    nomatch hsome

/-- A reset that fails leaves the address as it was only where it has not come to a command. -/
theorem resetOnce_left (h : Acts (resetOnce config) d t (.error e) d') :
    AddressLeft d.card.rca e t d' := by
  rcases acts_bind_error.mp h with hp | ⟨t1, t2, base, d1, rfl, hp, h1⟩
  · obtain ⟨rfl, hstill⟩ := (keepsClear_still.prepareController config).acts hp
    rw [AddressLeft, (prepareController_fails hp).1, if_pos (by simp [commands, hstill])]
  have h2 := acts_modify_bind.mp h1
  rcases acts_bind_error.mp h2 with hn | ⟨t3, t4, failure, d2, rfl, hn, hf⟩
  · have hkept := (keepsCard_address.negotiate config base).acts hn
    exact .of_negotiation (negotiate_fails hn).1 (hkept.zero rfl)
  · have hkept := (keepsCard_address.negotiate config base).acts hn
    have hleft : AddressLeft d.card.rca e (t1 ++ t3 ++ t4) d' :=
      finishReset_left (hkept.zero rfl) (t1 ++ t3) hf
    rwa [List.append_assoc] at hleft

theorem resetAttempts_left {attempts : Nat} (hd : attempts = 0 → d.card.rca = 0)
    (h : Acts (resetAttempts config attempts) d t (.error e) d') :
    AddressLeft d.card.rca e t d' := by
  induction attempts generalizing d t with
  | zero =>
    obtain ⟨-, he, rfl⟩ := acts_throw.mp h
    rw [Except.error.inj he]
    exact .of_negotiation rfl (hd rfl)
  | succ attempts ih =>
    rcases resetAttempts_acts h with ⟨e', he, ho⟩ | ⟨hok, -⟩ | ⟨step, t1, t2, d1, _, rfl, ho, h1⟩
    · rw [Except.error.inj he]
      exact resetOnce_left ho
    · nomatch hok
    · obtain ⟨hzero, hstarted⟩ := resetOnce_switch ho
      rw [← List.append_assoc]
      refine AddressLeft.append_left (commands_ne_nil_left hstarted) ?_
      have hswitched : ({ d1 with switchFailed := true } : Driver).card.rca = 0 := hzero
      have hrest := ih (fun _ => hswitched) h1
      rwa [hswitched] at hrest

end Reset

/-! The gate in front of every access. -/

section Gate

variable {e : Error}

theorem queryStatus_acts {r : Except Error CardStatus} (h : Acts queryStatus d t r d') :
    (∃ e, r = .error e) ∧ d'.card.rca = 0 ∨
      (∃ status, r = .ok status) ∧ d'.card.rca = d.card.rca ∧ commands t ≠ [] := by
  obtain ⟨t1, t2, result, d1, rfl, hissue, h1⟩ := acts_observe_bind.mp (acts_get_bind.mp h)
  cases result with
  | error e =>
    obtain ⟨t3, rfl, h2⟩ := acts_report_bind.mp h1
    obtain ⟨rfl, rfl, rfl⟩ := acts_throw.mp (acts_modify_bind.mp h2)
    exact .inl ⟨⟨_, rfl⟩, rfl⟩
  | ok =>
    have hpresent := (issue_started hissue).1
    have hkept := (keepsIssue_unlessRemoved.issueCommand _ _ _).acts hissue
    have hstarted (t3 : History) : commands (t1 ++ t3) ≠ [] :=
      commands_ne_nil_left (issue_commands hissue)
    have h2 := acts_get_bind.mp h1
    refine .inr ?_
    rw [acts_ite] at h2
    split at h2
    · obtain ⟨t3, rfl, h3⟩ := acts_report_bind.mp h2
      obtain ⟨rfl, rfl, rfl⟩ := acts_pure.mp h3
      exact ⟨⟨_, rfl⟩, hkept.address hpresent, hstarted _⟩
    · obtain ⟨rfl, rfl, rfl⟩ := acts_pure.mp h2
      exact ⟨⟨_, rfl⟩, hkept.address hpresent, hstarted _⟩

theorem recover_forgets {note : Note} {error : Error}
    (h : Acts (recover command argument note error) d t (.error e) d') : d'.card.rca = 0 := by
  obtain ⟨t1, t2, result, d1, rfl, -, h1⟩ := acts_observe_bind.mp h
  cases result with
  | ok =>
    exact absurd h1 not_acts_pure_error
  | error =>
    obtain ⟨t3, rfl, h2⟩ := acts_report_bind.mp h1
    obtain ⟨-, -, rfl⟩ := acts_throw.mp (acts_modify_bind.mp h2)
    rfl

theorem leave_fails {state : CardState} (h : Acts (leave config state) d t (.error e) d') :
    d'.card.rca = 0 ∨ Acts (cardReset config) d t (.error e) d' := by
  cases state with
  | standby => exact .inl (recover_forgets (acts_get_bind.mp h))
  | data =>
    rcases acts_bind_error.mp h with hr | ⟨t1, t2, _, d1, rfl, -, h1⟩
    · exact .inl (recover_forgets hr)
    · have hquiet : Succeeds (do
          let _ ← observe (resetLine Control1.resetData)
          pure () : Action Unit) := .bind .observe fun _ => .pure
      exact (hquiet h1).elim
  | _ => exact .inr h

theorem confirmTransfer_fails (h : Acts confirmTransfer d t (.error e) d') :
    d'.card.rca = 0 := by
  rcases acts_bind_error.mp h with hq | ⟨t1, t2, status, d1, rfl, -, h1⟩
  · rcases queryStatus_acts hq with ⟨-, hzero⟩ | ⟨⟨_, hok⟩, -⟩
    · exact hzero
    · nomatch hok
  rw [acts_ite] at h1
  split at h1
  · exact absurd h1 not_acts_pure_error
  · obtain ⟨t3, rfl, h2⟩ := acts_report_bind.mp h1
    obtain ⟨-, -, rfl⟩ := acts_throw.mp (acts_modify_bind.mp h2)
    rfl

/-- The way to the transfer state fails with no address, or with a reset that fails after the card
has told its status. -/
theorem enterTransfer_fails (h : Acts (enterTransfer config) d t (.error e) d') :
    d'.card.rca = 0 ∨ ∃ t1 t2 d1, t = t1 ++ t2 ∧ Acts (cardReset config) d1 t2 (.error e) d' ∧
      commands t1 ≠ [] ∧ d1.card.rca = d.card.rca := by
  rcases acts_bind_error.mp h with hq | ⟨t1, t2, status, d1, rfl, hq, h1⟩
  · rcases queryStatus_acts hq with ⟨-, hzero⟩ | ⟨⟨_, hok⟩, -⟩
    · exact .inl hzero
    · nomatch hok
  rcases queryStatus_acts hq with ⟨⟨_, herror⟩, -⟩ | ⟨-, hsame, hstarted⟩
  · nomatch herror
  rw [acts_ite] at h1
  split at h1
  · exact absurd h1 not_acts_pure_error
  rcases acts_bind_error.mp h1 with hl | ⟨t3, t4, _, d2, rfl, -, hc⟩
  · rcases leave_fails hl with hzero | hreset
    · exact .inl hzero
    · exact .inr ⟨t1, t2, d1, rfl, hreset, hstarted, hsame⟩
  · exact .inl (confirmTransfer_fails hc)

/-- A gate that fails leaves no address, or what a reset leaves that fails: one of a card without an
address, before anything else, or one after the card has told its status. -/
theorem ensureDataMode_fails (h : Acts (ensureDataMode config) d t (.error e) d') :
    d'.card.rca = 0 ∨ ∃ t1 t2 d1, t = t1 ++ t2 ∧ Acts (cardReset config) d1 t2 (.error e) d' ∧
      (t1 = [] ∧ d1 = d ∨ commands t1 ≠ [] ∧ (d.card.rca ≠ 0 → d1.card.rca = d.card.rca)) := by
  have h1 := acts_get_bind.mp h
  rw [acts_ite] at h1
  split at h1
  · rename_i hzero
    rcases acts_bind_error.mp h1 with hr | ⟨t1, t2, _, d1, rfl, -, h2⟩
    · exact .inr ⟨[], t, d, rfl, hr, .inl ⟨rfl, rfl⟩⟩
    · rcases enterTransfer_fails h2 with hleft | ⟨t3, t4, d2, rfl, hreset, hstarted, -⟩
      · exact .inl hleft
      · refine .inr ⟨t1 ++ t3, t4, d2, by simp, hreset, .inr ⟨?_, fun h => absurd hzero h⟩⟩
        exact commands_ne_nil_right hstarted
  · rcases enterTransfer_fails h1 with hleft | ⟨t1, t2, d1, rfl, hreset, hstarted, hsame⟩
    · exact .inl hleft
    · exact .inr ⟨t1, t2, d1, rfl, hreset, .inr ⟨hstarted, fun _ => hsame⟩⟩

end Gate

/-- What a failed enumeration leaves as the address of the card, and what the next access makes of
it. A reset leaves an address where it fails before its first command, and where it fails after the
card has chosen one. The gate leaves one where it ends with such a reset. -/
theorem failed_enumeration_address (config : Config) (d d' : Driver) (t : History) (e : Error) :
    (Acts (cardReset config) d t (.error e) d' → AddressLeft d.card.rca e t d') ∧
    (Acts (ensureDataMode config) d t (.error e) d' →
      d'.card.rca = 0 ∨ ∃ t1 t2 d1, t = t1 ++ t2 ∧ Acts (cardReset config) d1 t2 (.error e) d' ∧
        AddressLeft d1.card.rca e t2 d' ∧
        (t1 = [] ∧ d1 = d ∨ commands t1 ≠ [] ∧ (d.card.rca ≠ 0 → d1.card.rca = d.card.rca))) ∧
    ∀ t' r d'', Acts (ensureDataMode config) d' t' r d'' →
      ∃ t1 t2, t' = t1 ++ t2 ∧ OpensGate d'.card.rca t1 := by
  refine ⟨fun h => resetAttempts_left (by simp) h, fun h => ?_, fun _ _ _ h =>
    ensureDataMode_begins h⟩
  rcases ensureDataMode_fails h with hzero | ⟨t1, t2, d1, rfl, hreset, hbefore⟩
  · exact .inl hzero
  · exact .inr ⟨t1, t2, d1, rfl, hreset, resetAttempts_left (by simp) hreset, hbefore⟩

/-- A card that cannot be selected keeps the address that it has chosen. -/
theorem failed_enumeration_keeps_address :
    ¬ ∀ (config : Config) (d d' : Driver) (t : History) (e : Error), Reachable config d →
      Acts (cardReset config) d t (.error e) d' ∨ Acts (ensureDataMode config) d t (.error e) d' →
      d'.card.rca = 0 := by
  intro hforgets
  obtain ⟨t, d', hrun, hleft⟩ : ∃ t d', Acts (cardReset {}) {} t (.error .select) d' ∧
      (d'.card.rca == 0x8000) = true :=
    exists_fails (P := fun d' => d'.card.rca == 0x8000)
      (by decide +kernel : ((Prog.run (promptCard [.ioSetOpCond, .selectCard])
        ((cardReset {}).run.run {}) 0).any _) = true)
  have hzero := hforgets {} {} d' t .select (reachable_start {}) (.inl hrun)
  rw [hzero] at hleft
  nomatch hleft

/-- The gate, with a card that cannot be selected. -/
theorem failed_enumeration_address_unselected :
    ∃ t d', Acts (ensureDataMode {}) {} t (.error .select) d' ∧ d'.card.rca = 0x8000 ∧
      ∃ t1 t2 d1, t = t1 ++ t2 ∧ Acts (cardReset {}) d1 t2 (.error .select) d' ∧
        AddressLeft d1.card.rca .select t2 d' ∧
        ∀ t' r d'', Acts (ensureDataMode {}) d' t' r d'' →
          ∃ t3 t4, t' = t3 ++ t4 ∧ OpensGate d'.card.rca t3 := by
  obtain ⟨t, d', hrun, hleft⟩ : ∃ t d', Acts (ensureDataMode {}) {} t (.error .select) d' ∧
      (d'.card.rca == 0x8000) = true :=
    exists_fails (P := fun d' => d'.card.rca == 0x8000)
      (by decide +kernel : ((Prog.run (promptCard [.ioSetOpCond, .selectCard])
        ((ensureDataMode {}).run.run {}) 0).any _) = true)
  have hrca := eq_of_beq hleft
  obtain ⟨-, hgate, hnext⟩ := failed_enumeration_address {} {} d' t .select
  refine ⟨t, d', hrun, hrca, ?_⟩
  rcases hgate hrun with hzero | ⟨t1, t2, d1, ht, hreset, haddress, -⟩
  · rw [hrca] at hzero
    nomatch hzero
  · exact ⟨t1, t2, d1, ht, hreset, haddress, hnext⟩

end Peripherals.Sd
