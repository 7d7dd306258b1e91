import Mathlib.Data.List.Basic
import Peripherals.Proofs.Sd.Answer
import Peripherals.Proofs.Sd.DataCommand
import Peripherals.Proofs.Sd.Failures
import Peripherals.Proofs.Sd.Script

/-! The course of an enumeration: which orders one reset of the controller gives, and how they
depend on what the card answers. -/

namespace Peripherals.Sd

open RegisterBlock (read write)

variable {config : Config} {c c' : CardInfo} {d d1 d' : Driver} {t t1 t2 : History}

/-! The scripts of an enumeration. -/

/-- A card is asked for its operating conditions, so many times. -/
def asks (rca : UInt16) (argument : UInt32) (polls : Nat) : List Order :=
  (List.replicate polls (announced rca .sendOpCond argument)).flatten

theorem asks_succ (rca : UInt16) (argument : UInt32) (polls : Nat) :
    asks rca argument (polls + 1) = asks rca argument 1 ++ asks rca argument polls := by
  simp [asks, List.replicate_succ]

/-- A card is found, and agrees on the operating conditions. -/
def negotiation (rca : UInt16) (argument : UInt32) (polls : Nat) : List Order :=
  [order .goIdleState 0, order .sendIfCond interfaceCheck, order .ioSetOpCond 0] ++
    (announced rca .sendOpCond 0 ++ asks rca argument polls)

/-- A card that accepts 1.8 volts is told to switch. -/
def voltage (accepts1v8 : Bool) : List Order :=
  if accepts1v8 then [order .voltageSwitch 0] else []

/-- A card is identified and chooses its address. -/
def identification : List Order := [order .allSendCid 0, order .sendRelativeAddr 0]

/-- A card with an address is selected, and is told the size of a block where it counts in bytes. -/
def selection (rca : UInt16) (highCapacity : Bool) : List Order :=
  order .selectCard (rca.toUInt32 <<< 16) ::
    if highCapacity then [] else [order .setBlockLength sectorSize]

/-- A card is told to use four data lines. -/
def widening (rca : UInt16) (wide : Bool) : List Order :=
  if wide then announced rca .setBusWidth wideBusArgument else []

theorem Recites.cases {α β : Type} {script : List Order} {x : Action α} {f : α → Action β}
    {r : Except Error β} (hx : Recites c script x) (h : Acts (x >>= f) d t r d') (hd : Knows c d) :
    (∃ e, r = .error e ∧ Follows c script False d t d') ∨
      ∃ t1 t2 a d1, t = t1 ++ t2 ∧ Acts x d t1 (.ok a) d1 ∧ Follows c script True d t1 d1 ∧
        Acts (f a) d1 t2 r d' := by
  rcases acts_bind.mp h with ⟨e, rfl, h1⟩ | ⟨t1, t2, a, d1, rfl, h1, h2⟩
  · exact .inl ⟨e, rfl, (hx h1 hd).mono nofun⟩
  · exact .inr ⟨t1, t2, a, d1, rfl, h1, (hx h1 hd).mono fun _ => ⟨a, rfl⟩, h2⟩

/-- What is learned of a card that is there stays known. -/
theorem Follows.learns {script : List Order} (h : Follows c script True d t1 d1)
    (hpresent : d1.cardRemoved = false) (hsilent : commands t2 = []) (hcard : d'.card = c')
    (hremoved : d'.cardRemoved = false) (hrca : c'.rca = 0 → c.rca = 0) :
    Follows c' script True d (t1 ++ t2) d' where
  said a := by
    rw [own_append, own_of_silent hsilent, List.append_nil]
    exact h.said a
  all _ _ a := by rw [own_append, own_of_silent hsilent, List.append_nil, h.all trivial hpresent]
  silent hd := by simp [(h.silent hd).1] at hpresent
  knows := by
    rw [Knows, hcard, if_neg (by simp [hremoved])]
  unserved hzero := by
    rw [commands_append, hsilent, List.append_nil]
    exact h.unserved (hrca hzero)

/-! The negotiation. -/

/-- The card was ready, and what it answered is known of it. -/
structure Agreed (want : Bool) (response : UInt32) (c : CardInfo) : Prop where
  ready : hasBits response OperatingConditions.ready = true
  highCapacity : c.highCapacity = hasBits response OperatingConditions.highCapacity
  accepts1v8 : c.accepts1v8 = (want && hasBits response OperatingConditions.switchTo1v8)

theorem pollOpCond_follows {argument : UInt32} {want : Bool} {polls : Nat} {r : Except Error Unit}
    (h : Acts (pollOpCond config argument want polls) d t r d') (hd : Knows c d) :
    ∃ n ≤ polls,
      (∃ e, r = .error e ∧ Follows c (asks c.rca argument n) False d t d') ∨
      ∃ response c', r = .ok () ∧ LastAnswer .sendOpCond response t ∧ Agreed want response c' ∧
        c'.rca = c.rca ∧ Follows c' (asks c.rca argument n) True d t d' := by
  -- Each round asks once. It knows the card as the rounds before it did, for only an answer of a
  -- card that is ready is written down.
  induction polls generalizing d t with
  | zero =>
    obtain ⟨t1, rfl, h1⟩ := acts_report_bind.mp h
    obtain ⟨rfl, rfl, rfl⟩ := acts_throw.mp h1
    have hstill : Still d' [noteOf (.stillBusy config.opCondPolls)] d' := ⟨rfl, rfl, rfl⟩
    exact ⟨0, Nat.le_refl 0, .inl ⟨_, rfl, hstill.follows hd⟩⟩
  | succ polls ih =>
    have hask : Recites c (asks c.rca argument 1)
        (orFail (issueCommand .sendOpCond argument commandTimeout) .opCond [.opCondFailed]) :=
      (issueCommand_recites rfl rfl (by decide)).orFail (by simp [Quiet])
    rcases hask.cases h hd with ⟨e, rfl, hfollows⟩ | ⟨t1, t2, u, d1, rfl, hok, hfollows, h1⟩
    · exact ⟨1, by omega, .inl ⟨e, rfl, hfollows⟩⟩
    have hpresent : d1.cardRemoved = false := (issue_started (orFail_ok hok)).1
    have hanswer : LastAnswer .sendOpCond d1.last.reply t1 :=
      issue_answers (.inl rfl) rfl (orFail_ok hok)
    have h2 := acts_get_bind.mp h1
    by_cases hready : hasBits d1.last.reply OperatingConditions.ready = true
    · rw [if_pos hready] at h2
      obtain ⟨rfl, rfl, hd'⟩ := acts_report.mp (acts_modify_bind.mp h2)
      have hrca : d'.card.rca = c.rca := by
        rw [hd', ← hfollows.knows.card hpresent]
      have hhere : d'.cardRemoved = false := by rw [hd']; exact hpresent
      refine ⟨1, by omega, .inr ⟨d1.last.reply, d'.card, rfl, hanswer.append_right List.not_mem_nil,
        ⟨hready, ?_, ?_⟩, hrca, hfollows.learns hpresent rfl rfl hhere fun h0 => hrca ▸ h0⟩⟩
      · rw [hd']
      · rw [hd']
    · rw [if_neg hready] at h2
      obtain ⟨_, t3, rfl, h3⟩ := acts_perform_bind.mp h2
      have hpause :
          Follows c (asks c.rca argument 1) True d (t1 ++ [⟨.delay opCondPause, ()⟩]) d1 :=
        hfollows.still ⟨rfl, rfl, rfl⟩
      obtain ⟨n, hn, hrest⟩ := ih h3 hpause.knows
      refine ⟨n + 1, by omega, ?_⟩
      rw [asks_succ, ← List.singleton_append, ← List.append_assoc]
      rcases hrest with ⟨e, rfl, hlater⟩ | ⟨response, c', rfl, hlast, hagreed, hrca, hlater⟩
      · refine .inl ⟨e, rfl, ?_⟩
        exact hpause.append hlater id
      · refine .inr ⟨response, c', rfl, hlast.append_left _, hagreed, hrca, ?_⟩
        exact hpause.append hlater fun h0 => hrca ▸ h0

theorem opCondArgument_asks (answered want : Bool) :
    hasBits (opCondArgument answered want) OperatingConditions.switchTo1v8 = want := by
  cases answered <;> cases want <;> rfl

theorem keepsCard_switchFailed : KeepsCard fun d _ d' => d'.switchFailed = d.switchFailed :=
  have hissue : KeepsIssue fun d _ d' => d'.switchFailed = d.switchFailed :=
    { refl := fun _ => rfl
      trans := fun h1 h2 => h2.trans h1
      quiet := fun _ _ _ => rfl
      last := fun _ _ => rfl
      command := fun _ _ => rfl
      received := fun _ _ => rfl
      noticed := fun _ => rfl
      acknowledged := fun _ _ _ => rfl
      forgotten := fun _ _ => rfl }
  hissue.keepsCard fun _ _ _ => rfl

theorem wants1v8_congr {answered : Bool} (h : d'.switchFailed = d.switchFailed) :
    wants1v8 config answered d' = wants1v8 config answered d := by
  rw [wants1v8, wants1v8, h]

theorem negotiateOpCond_follows {answered : Bool} {r : Except Error Unit}
    (h : Acts (negotiateOpCond config answered) d t r d') (hd : Knows c d) :
    ∃ n ≤ config.opCondPolls.toNat,
      (∃ e, r = .error e ∧ Follows c (announced c.rca .sendOpCond 0 ++
        asks c.rca (opCondArgument answered (wants1v8 config answered d)) n) False d t d') ∨
      ∃ response c', r = .ok () ∧ LastAnswer .sendOpCond response t ∧
        Agreed (wants1v8 config answered d) response c' ∧ c'.rca = c.rca ∧
        Follows c' (announced c.rca .sendOpCond 0 ++
          asks c.rca (opCondArgument answered (wants1v8 config answered d)) n) True d t d' := by
  have hinquiry : Recites c (announced c.rca .sendOpCond 0)
      (orFail (issueCommand .sendOpCond 0 commandTimeout) .opCondInquiry [.inquiryFailed]) :=
    (issueCommand_recites rfl rfl (by decide)).orFail (by simp [Quiet])
  rcases hinquiry.cases h hd with ⟨e, rfl, hfollows⟩ | ⟨t1, t2, u, d1, rfl, hok, hfollows, h1⟩
  · exact ⟨0, Nat.zero_le _, .inl ⟨e, rfl, hfollows.early _ id⟩⟩
  have hsame : d1.switchFailed = d.switchFailed :=
    (keepsCard_switchFailed.issueCommand _ _ _).acts (orFail_ok hok)
  have h2 := acts_get_bind.mp h1
  rw [wants1v8_congr hsame] at h2
  obtain ⟨n, hn, hpolls⟩ := pollOpCond_follows h2 hfollows.knows
  refine ⟨n, hn, ?_⟩
  rcases hpolls with ⟨e, rfl, hlater⟩ | ⟨response, c', rfl, hlast, hagreed, hrca, hlater⟩
  · exact .inl ⟨e, rfl, hfollows.append hlater id⟩
  · exact .inr ⟨response, c', rfl, hlast.append_left t1, hagreed, hrca,
      hfollows.append hlater fun h0 => hrca ▸ h0⟩

/-- What the driver knows besides the address does not depend on the presence of the card. -/
theorem Knows.same {γ : Type} {f : CardInfo → γ} (h : Knows c d)
    (hf : ∀ c, f { c with rca := 0 } = f c) : f d.card = f c := by
  rw [h]
  split
  · exact hf c
  · rfl

/-- What a negotiation ends with: the signalling voltage of a card that has agreed. -/
def settleVoltage (base : UInt32) : Action (Option SwitchFailure) := do
  switchClockRate base Divider.normalHz
  delay 5000
  let d ← get
  if d.card.accepts1v8 then switchTo1v8 else pure none

theorem settleVoltage_recites {base : UInt32} :
    Recites c (voltage c.accepts1v8) (settleVoltage base) := by
  have hclock : Recites c [] (switchClockRate base Divider.normalHz) :=
    recites_of_still (keepsClear_stillCard.switchClockRate _ _)
  have hpause : Recites c [] (delay 5000) := recites_of_still (keepsClear_stillCard.delay _)
  refine hclock.bind fun _ => hpause.bind fun _ => ?_
  intro d t r d' h hd
  have h1 := acts_get_bind.mp h
  rw [hd.same (f := (·.accepts1v8)) fun _ => rfl] at h1
  cases haccepts : c.accepts1v8 with
  | false =>
    rw [haccepts, if_neg Bool.false_ne_true] at h1
    exact recites_of_still (keepsClear_stillCard.pure none) h1 hd
  | true =>
    rw [haccepts, if_pos rfl] at h1
    exact (switchTo1v8_asks.utters rfl rfl (by decide)).recites h1 hd

/-- A switch to 1.8 volts that fails was tried on a card that accepts it. -/
theorem settleVoltage_switches {base : UInt32} {step : SwitchFailure}
    (h : Acts (settleVoltage base) d t (.ok (some step)) d') (hd : Knows c d) :
    c.accepts1v8 = true ∧
      ∃ t1 t2 d1, t = t1 ++ t2 ∧ Acts switchTo1v8 d1 t2 (.ok (some step)) d' := by
  obtain ⟨t1, t2, _, d1, rfl, hclock, h1⟩ := acts_bind_ok.mp h
  have hstill : Still d t1 d1 := (keepsClear_stillCard.switchClockRate _ _).acts hclock
  obtain ⟨_, t3, rfl, h2⟩ := acts_perform_bind.mp h1
  have h3 := acts_get_bind.mp h2
  rw [hstill.card, hd.same (f := (·.accepts1v8)) fun _ => rfl] at h3
  cases haccepts : c.accepts1v8 with
  | false =>
    rw [haccepts, if_neg Bool.false_ne_true] at h3
    nomatch (acts_pure.mp h3).2.1
  | true =>
    rw [haccepts, if_pos rfl] at h3
    exact ⟨rfl, t1 ++ [⟨.delay 5000, ()⟩], t3, d1, by simp, h3⟩

/-- A negotiation that fails keeps to `script`. A card that agrees is then told to switch to 1.8
volts exactly where it was asked to and accepted it, and nothing else makes the switch fail. -/
def Negotiates (c : CardInfo) (script : List Order) (want : Bool) (d : Driver) (t : History)
    (r : Except Error (Option SwitchFailure)) (d' : Driver) : Prop :=
  (∃ e c', r = .error e ∧ c'.rca = c.rca ∧ Follows c' script False d t d') ∨
    ∃ response c', LastAnswer .sendOpCond response t ∧ Agreed want response c' ∧ c'.rca = c.rca ∧
      Follows c' (script ++ voltage c'.accepts1v8) (∃ a, r = .ok a) d t d' ∧
      ∀ step, r = .ok (some step) → c'.accepts1v8 = true ∧
        ∃ t1 t2 d1, t = t1 ++ t2 ∧ Acts switchTo1v8 d1 t2 (.ok (some step)) d'

section Negotiation

variable {script : List Order} {want : Bool} {base : UInt32}
  {r : Except Error (Option SwitchFailure)}

theorem Negotiates.after {opening : List Order} (h1 : Follows c opening True d t1 d1)
    (h2 : Negotiates c script want d1 t2 r d') :
    Negotiates c (opening ++ script) want d (t1 ++ t2) r d' := by
  rcases h2 with ⟨e, c', he, hrca, hf⟩ | ⟨response, c', hlast, hagreed, hrca, hf, hswitched⟩
  · exact .inl ⟨e, c', he, hrca, h1.append hf fun h0 => hrca ▸ h0⟩
  · refine .inr ⟨response, c', hlast.append_left t1, hagreed, hrca, ?_, fun step hstep => ?_⟩
    · rw [List.append_assoc]
      exact h1.append hf fun h0 => hrca ▸ h0
    · obtain ⟨haccepts, t3, t4, d2, rfl, hfailed⟩ := hswitched step hstep
      exact ⟨haccepts, t1 ++ t3, t4, d2, by simp, hfailed⟩

theorem Negotiates.early (h : Follows c script False d t d') (rest : List Order) {e : Error} :
    Negotiates c (script ++ rest) want d t (.error e) d' :=
  .inl ⟨e, c, rfl, rfl, h.early rest id⟩

/-- A card that answers the questions for its operating conditions is not asked for them again. -/
theorem negotiateOpCond_negotiates {answered : Bool} (h : Acts (do
      negotiateOpCond config answered
      settleVoltage base) d t r d') (hd : Knows c d) :
    ∃ n ≤ config.opCondPolls.toNat, Negotiates c (announced c.rca .sendOpCond 0 ++
      asks c.rca (opCondArgument answered (wants1v8 config answered d)) n)
      (wants1v8 config answered d) d t r d' := by
  rcases acts_bind.mp h with ⟨e, rfl, h1⟩ | ⟨t1, t2, _, d1, rfl, h1, h2⟩
  · obtain ⟨n, hn, ⟨e', -, hf⟩ | ⟨response, c', hok, -⟩⟩ := negotiateOpCond_follows h1 hd
    · exact ⟨n, hn, .inl ⟨e, c, rfl, rfl, hf⟩⟩
    · contradiction
  obtain ⟨n, hn, ⟨e, he, -⟩ | ⟨response, c', -, hlast, hagreed, hrca, hf⟩⟩ :=
    negotiateOpCond_follows h1 hd
  · contradiction
  have hswitch := settleVoltage_recites h2 hf.knows
  refine ⟨n, hn, .inr ⟨response, c', ?_, hagreed, hrca, hf.append hswitch id, ?_⟩⟩
  · refine hlast.append_right (not_mem_commands hswitch.said (by decide) ?_)
    cases c'.accepts1v8 with
    | false => exact List.not_mem_nil
    | true =>
      show Command.sendOpCond.word.bits ∉ [Command.voltageSwitch.word.bits]
      decide
  · rintro step rfl
    obtain ⟨haccepts, t3, t4, d2, rfl, hfailed⟩ := settleVoltage_switches h2 hf.knows
    exact ⟨haccepts, t1 ++ t3, t4, d2, by simp, hfailed⟩

theorem negotiate_follows (h : Acts (negotiate config base) d t r d') (hd : Knows c d) :
    ∃ answered, ∃ n ≤ config.opCondPolls.toNat, Negotiates c (negotiation c.rca
      (opCondArgument answered (wants1v8 config answered d)) n) (wants1v8 config answered d)
      d t r d' := by
  have hidle : Recites c [order .goIdleState 0]
      (orFail (issueCommand .goIdleState 0 commandTimeout) .goIdle [.noGoIdle]) :=
    (issueCommand_utters rfl rfl (by decide)).recites.orFail (by simp [Quiet])
  have hcheck : Recites c [order .sendIfCond interfaceCheck] checkInterfaceCondition :=
    (checkInterfaceCondition_asks.utters rfl rfl (by decide)).recites
  have hprobe : Recites c [order .ioSetOpCond 0] probeSdio :=
    (probeSdio_asks.utters rfl rfl (by decide)).recites
  -- Where one of the first three commands fails, no answer has been asked for: any will do.
  rcases hidle.cases h hd with ⟨e, rfl, hf1⟩ | ⟨t1, _, _, d1, rfl, ho1, hf1, h1⟩
  · exact ⟨false, 0, Nat.zero_le _, .early hf1 _⟩
  rcases hcheck.cases h1 hf1.knows with ⟨e, rfl, hf2⟩ | ⟨t2, _, answered, d2, rfl, ho2, hf2, h2⟩
  · exact ⟨false, 0, Nat.zero_le _, .early (hf1.append hf2 id) _⟩
  rcases hprobe.cases h2 hf2.knows with ⟨e, rfl, hf3⟩ | ⟨t3, t4, _, d3, rfl, ho3, hf3, h3⟩
  · exact ⟨false, 0, Nat.zero_le _, .early (hf1.append (hf2.append hf3 id) id) _⟩
  have hsame : d3.switchFailed = d.switchFailed := by
    have hs1 := (keepsCard_switchFailed.issueCommand _ _ _).acts (orFail_ok ho1)
    have hs2 := (keepsCard_switchFailed.asksOnce checkInterfaceCondition_asks).acts ho2
    have hs3 := (keepsCard_switchFailed.asksOnce probeSdio_asks).acts ho3
    rw [hs3, hs2, hs1]
  obtain ⟨n, hn, hsettled⟩ := negotiateOpCond_negotiates h3 hf3.knows
  rw [wants1v8_congr hsame] at hsettled
  have hall := Negotiates.after hf1 (Negotiates.after hf2 (Negotiates.after hf3 hsettled))
  exact ⟨answered, n, hn, hall⟩

end Negotiation

/-! From the identification on. -/

theorem chooseAddress_follows {r : Except Error Unit} (h : Acts (do
      orFail (issueCommand .sendRelativeAddr 0 commandTimeout) .relativeAddress []
      let d ← get
      let response : AddressResponse := ⟨d.last.reply⟩
      if response.isUsable then
        modifyCard fun c => { c with rca := response.address }
      else
        report (.badAddressResponse response.raw)
        throw (.addressResponse response.raw)) d t r d') (hd : Knows c d) (hzero : c.rca = 0) :
    (∃ e, r = .error e ∧ Follows c [order .sendRelativeAddr 0] False d t d') ∨
      ∃ (response : AddressResponse) (c' : CardInfo), r = .ok () ∧
        Command.sendStatus.word.bits ∉ commands t ∧ d'.cardRemoved = false ∧
        LastAnswer .sendRelativeAddr response.raw t ∧ response.isUsable = true ∧
        c'.rca = response.address ∧ c'.highCapacity = c.highCapacity ∧
        Follows c' [order .sendRelativeAddr 0] True d t d' := by
  have hask : Recites c [order .sendRelativeAddr 0]
      (orFail (issueCommand .sendRelativeAddr 0 commandTimeout) .relativeAddress []) :=
    (issueCommand_utters rfl rfl (by decide)).recites.orFail (by simp)
  rcases hask.cases h hd with ⟨e, rfl, hf⟩ | ⟨t1, t2, _, d1, rfl, ho, hf, h1⟩
  · exact .inl ⟨e, rfl, hf⟩
  have hhere := (issue_started (orFail_ok ho)).1
  have hanswer : LastAnswer .sendRelativeAddr d1.last.reply t1 :=
    issue_answers (.inl rfl) rfl (orFail_ok ho)
  have h2 := acts_get_bind.mp h1
  by_cases husable : AddressResponse.isUsable ⟨d1.last.reply⟩ = true
  · rw [if_pos husable] at h2
    obtain ⟨rfl, rfl, hd'⟩ := acts_modify.mp h2
    have hpresent : d'.cardRemoved = false := by rw [hd']; exact hhere
    refine .inr ⟨⟨d1.last.reply⟩, d'.card, rfl, ?_, hpresent, hanswer.append_right List.not_mem_nil,
      husable, by rw [hd'], ?_, hf.learns hhere rfl rfl hpresent fun _ => hzero⟩
    · rw [t1.append_nil]
      exact hf.unserved hzero
    · rw [hd', ← hf.knows.card hhere]
  · rw [if_neg husable] at h2
    obtain ⟨t3, rfl, h3⟩ := acts_report_bind.mp h2
    obtain ⟨rfl, rfl, rfl⟩ := acts_throw.mp h3
    exact .inl ⟨_, rfl, (hf.still ⟨rfl, rfl, rfl⟩).mono nofun⟩

theorem identify_follows {r : Except Error Unit} (h : Acts identify d t r d') (hd : Knows c d)
    (hzero : c.rca = 0) :
    (∃ e c', r = .error e ∧ c'.rca = 0 ∧ Follows c' identification False d t d') ∨
      ∃ (response : AddressResponse) (c' : CardInfo), r = .ok () ∧
        Command.sendStatus.word.bits ∉ commands t ∧ d'.cardRemoved = false ∧
        LastAnswer .sendRelativeAddr response.raw t ∧ response.isUsable = true ∧
        c'.rca = response.address ∧ c'.highCapacity = c.highCapacity ∧
        Follows c' identification True d t d' := by
  have hcid : Recites c [order .allSendCid 0]
      (orFail (issueCommand .allSendCid 0 commandTimeout) .identify []) :=
    (issueCommand_utters rfl rfl (by decide)).recites.orFail (by simp)
  rcases hcid.cases h hd with ⟨e, rfl, hf⟩ | ⟨t1, t2, _, d1, rfl, ho, hf, h1⟩
  · exact .inl ⟨e, c, rfl, hzero, hf.early _ id⟩
  have hpresent := (issue_started (orFail_ok ho)).1
  obtain ⟨c1, hc1, hrca, hcapacity⟩ : ∃ c1 : CardInfo,
      c1 = { d1.card with cid := d1.last.response } ∧ c1.rca = 0 ∧
        c1.highCapacity = c.highCapacity := by
    rw [hf.knows.card hpresent]
    exact ⟨_, rfl, hzero, rfl⟩
  have hf1 : Follows c1 [order .allSendCid 0] True d (t1 ++ [])
      { d1 with card := { d1.card with cid := d1.last.response } } :=
    hf.learns hpresent rfl hc1.symm hpresent fun _ => hzero
  have h2 := acts_modify_bind.mp (acts_get_bind.mp h1)
  rw [← t1.append_nil]
  rcases chooseAddress_follows h2 hf1.knows hrca with ⟨e, rfl, hf2⟩ |
    ⟨response, c', rfl, hunserved, hhere, hanswer, husable, haddress, hc', hf2⟩
  · exact .inl ⟨e, c1, rfl, hrca, hf1.append hf2 id⟩
  · refine .inr ⟨response, c', rfl, ?_, hhere, hanswer.append_left _, husable, haddress,
      hc'.trans hcapacity, hf1.append hf2 fun _ => hrca⟩
    rw [commands_append, List.mem_append]
    exact fun hmem => hmem.elim (hf1.unserved hrca) hunserved

theorem select_follows {r : Except Error Unit} (h : Acts select d t r d') (hd : Knows c d) :
    Follows c [order .selectCard (c.rca.toUInt32 <<< 16)] (∃ a, r = .ok a) d t d' ∧
      (r = .ok () → ∃ status : CardStatus, LastAnswer .selectCard status.raw t ∧
        (status.state = .standby ∨ status.state = .transfer)) := by
  have h1 := acts_get_bind.mp h
  have hselect : Recites c [order .selectCard d.card.rcaArgument]
      (orFail (issueCommand .selectCard d.card.rcaArgument commandTimeout) .select []) :=
    (issueCommand_utters rfl rfl (by decide)).recites.orFail (by simp)
  -- The order names the address that the driver has, which a card that is removed has lost.
  have hscript {t : History} {d' : Driver} {whole : Prop}
      (h : Follows c [order .selectCard d.card.rcaArgument] whole d t d') :
      Follows c [order .selectCard (c.rca.toUInt32 <<< 16)] whole d t d' := by
    cases hremoved : d.cardRemoved with
    | true =>
      obtain ⟨hgone, hsilent⟩ := h.silent hremoved
      exact .of_removed hgone hsilent h.knows h.unserved
    | false => rwa [hd.card hremoved] at h
  rcases hselect.cases h1 hd with ⟨e, rfl, hfollows⟩ | ⟨t1, t2, _, d1, rfl, hok, hfollows, h2⟩
  · exact ⟨(hscript hfollows).mono nofun, nofun⟩
  have hanswer : LastAnswer .selectCard d1.last.reply t1 :=
    issue_answers (.inr rfl) rfl (orFail_ok hok)
  have h3 := acts_get_bind.mp h2
  rw [acts_ite] at h3
  split at h3
  · rename_i hstate
    obtain ⟨rfl, rfl, rfl⟩ := acts_pure.mp h3
    rw [List.append_nil]
    exact ⟨(hscript hfollows).mono fun _ => trivial, fun _ => ⟨⟨d'.last.reply⟩, hanswer, hstate⟩⟩
  · obtain ⟨t3, rfl, h4⟩ := acts_report_bind.mp h3
    obtain ⟨rfl, rfl, rfl⟩ := acts_throw.mp h4
    exact ⟨((hscript hfollows).still ⟨rfl, rfl, rfl⟩).mono nofun, nofun⟩

theorem setBlockSize_recites :
    Recites c (if c.highCapacity then [] else [order .setBlockLength sectorSize]) setBlockSize := by
  have hrest : Recites c [] (do
      let value ← read Register.blockSizeCount
      write Register.blockSizeCount ((value &&& ~~~0xFFF) ||| sectorSize) : Action Unit) :=
    recites_of_still (keepsClear_stillCard.bind (keepsClear_stillCard.read fun _ => trivial)
      fun _ => keepsClear_stillCard.write trivial)
  have hlength : Recites c [order .setBlockLength sectorSize]
      (orFail (issueCommand .setBlockLength sectorSize commandTimeout) .blockLength []) :=
    (issueCommand_utters rfl rfl (by decide)).recites.orFail (by simp)
  intro d t r d' h hd
  have h1 := acts_get_bind.mp h
  rw [hd.same (f := (·.highCapacity)) fun _ => rfl] at h1
  cases hcapacity : c.highCapacity with
  | true =>
    rw [hcapacity] at h1
    exact hrest h1 hd
  | false =>
    rw [hcapacity] at h1
    exact (hlength.bind fun _ => hrest) h1 hd

/-- The words `ws` are the first that arrive after the command `command`. -/
def Fetches (command : Command) (ws : List UInt32) (t : History) : Prop :=
  ∃ before after, traffic t =
    before ++ .command command.word.bits :: (ws.map .received ++ after)

theorem Fetches.append_left {command : Command} {ws : List UInt32} (t1 : History)
    (h : Fetches command ws t) : Fetches command ws (t1 ++ t) := by
  obtain ⟨before, after, ht⟩ := h
  exact ⟨traffic t1 ++ before, after, by simp [ht]⟩

theorem Fetches.append_right {command : Command} {ws : List UInt32} (t2 : History)
    (h : Fetches command ws t) : Fetches command ws (t ++ t2) := by
  obtain ⟨before, after, ht⟩ := h
  exact ⟨before, after ++ traffic t2, by simp [ht]⟩

theorem Fetches.of_suffix {command : Command} {ws : List UInt32}
    (h : .command command.word.bits :: ws.map .received <:+ traffic t) : Fetches command ws t := by
  obtain ⟨before, ht⟩ := h
  exact ⟨before, [], by rw [List.append_nil, ht]⟩

/-- The configuration register is asked for, and arrives in two words. -/
def scrTraffic (first second : UInt32) : List Traffic :=
  [.command Command.sendScr.word.bits, .received first, .received second]

theorem sendScr_receives {u : Unit} (hsize : d.blockSize = 8)
    (h : Acts (issue .sendScr 0 commandTimeout (.receive 2)) d t (.ok u) d') :
    ∃ first second, scrTraffic first second <:+ traffic t ∧
      d'.last.received = #[first, second] := by
  obtain ⟨before, t1, d1, rfl, happroach, hstart⟩ := keepsIssue_approaches.started h
  have hwords : d1.blockWords = 2 := by
    rw [Driver.blockWords, happroach.blockSize, hsize]
    decide
  obtain ⟨after, new, rfl, harrived, hreceived, -, hall⟩ :=
    start_receive rfl (hwords ▸ Nat.dvd_refl 2) hstart
  obtain ⟨first, second, rfl⟩ := List.length_eq_two.1 (hall rfl)
  have hopening : traffic (opening d1 Command.sendScr.word 0 (.receive 2)) =
      [.command Command.sendScr.word.bits] := rfl
  refine ⟨first, second, ⟨traffic before, ?_⟩, hreceived⟩
  rw [traffic_append, traffic_append, hopening, harrived]
  rfl

/-- The configuration register that is recorded is that of the words which have arrived last. -/
theorem readScr_records (h : Acts readScr d t (.ok ()) d') :
    ∃ first second, scrTraffic first second <:+ traffic t ∧
      d'.card.scr = Scr.ofPort first second := by
  obtain ⟨t1, t2, result, d1, rfl, hissue, h1⟩ := acts_observe_bind.mp (acts_modify_bind.mp h)
  have h2 := acts_modify_bind.mp h1
  cases result with
  | error e =>
    obtain ⟨t3, rfl, h3⟩ := acts_report_bind.mp h2
    nomatch (acts_throw.mp h3).2.1
  | ok u =>
    obtain ⟨ht2, -, rfl⟩ := acts_report.mp (acts_modify_bind.mp (acts_get_bind.mp h2))
    have hstill : traffic t2 = [] := by rw [ht2]; rfl
    obtain ⟨first, second, hreceives, hreceived⟩ := sendScr_receives rfl hissue
    refine ⟨first, second, ?_, ?_⟩
    · rw [traffic_append, hstill, List.append_nil]
      exact hreceives
    · show Scr.ofPort (d1.last.received[0]?.getD 0) (d1.last.received[1]?.getD 0) = _
      rw [hreceived]
      rfl

theorem readScr_follows {r : Except Error Unit} (h : Acts readScr d t r d') (hd : Knows c d) :
    (∃ e, r = .error e ∧ Follows c (announced c.rca .sendScr 0) False d t d') ∨
      ∃ first second c', r = .ok () ∧ Fetches .sendScr [first, second] t ∧
        c'.scr = Scr.ofPort first second ∧ c'.rca = c.rca ∧
        Follows c' (announced c.rca .sendScr 0) True d t d' ∧ d'.cardRemoved = false := by
  obtain ⟨t1, t2, result, d1, rfl, hissue, h1⟩ := acts_observe_bind.mp (acts_modify_bind.mp h)
  have hsmall : Follows c [] True d [] { d with blockSize := 8 } :=
    (Still.mk rfl rfl rfl : Still d [] { d with blockSize := 8 }).follows hd
  have hblocks : (Transfer.receive 2).size / ({ d with blockSize := 8 } : Driver).blockWords ≤
      maxBlocks := by
    show 2 / max ((8 : UInt32).toNat / 4) 1 ≤ 0xFFFF
    decide
  have hgiven := issue_follows rfl hblocks (by decide) hissue hsmall.knows
  have hfollows : Follows c (announced c.rca .sendScr 0) (result = .ok ()) d ([] ++ t1) d1 :=
    hsmall.append (hgiven.mono fun hok _ => hok) id
  rw [List.nil_append] at hfollows
  have h2 := acts_modify_bind.mp h1
  cases result with
  | error e =>
    obtain ⟨t3, rfl, h3⟩ := acts_report_bind.mp h2
    obtain ⟨rfl, rfl, rfl⟩ := acts_throw.mp h3
    have hstill : Still d1 [noteOf (.failed e)] { d1 with blockSize := sectorSize } :=
      ⟨rfl, rfl, rfl⟩
    exact .inl ⟨_, rfl, (hfollows.still hstill).mono False.elim⟩
  | ok u =>
    obtain ⟨rfl, rfl, hd'⟩ := acts_report.mp (acts_modify_bind.mp (acts_get_bind.mp h2))
    have hpresent := (issue_started hissue).1
    obtain ⟨first, second, hreceives, hrecorded⟩ := readScr_records h
    have hhere : d'.cardRemoved = false := by rw [hd']; exact hpresent
    have hrca : d'.card.rca = c.rca := by
      rw [hd', ← hfollows.knows.card hpresent]
    refine .inr ⟨first, second, d'.card, rfl, .of_suffix hreceives, hrecorded, hrca, ?_, hhere⟩
    exact (hfollows.mono fun _ => rfl).learns hpresent rfl rfl hhere fun h0 => hrca ▸ h0

/-- Four data lines are used where the card can and the settings allow it. Whatever becomes of the
switch, the step does not fail. -/
theorem widenBus_follows {r : Except Error Unit} (h : Acts (widenBus config) d t r d')
    (hd : Knows c d) :
    r = .ok () ∧
      Follows c (widening c.rca (c.scr.supportsWideBus && config.enableWideBus)) False d t d' ∧
      ((c.scr.supportsWideBus && config.enableWideBus) = true → d'.cardRemoved = false →
        ∀ a, own a t ≠ []) := by
  have hstill := keepsClear_stillCard
  have h1 := acts_get_bind.mp h
  rw [hd.same (f := (·.scr)) fun _ => rfl] at h1
  cases hwide : c.scr.supportsWideBus && config.enableWideBus with
  | false =>
    rw [hwide, if_neg Bool.false_ne_true] at h1
    obtain ⟨rfl, rfl, rfl⟩ := acts_pure.mp h1
    exact ⟨rfl, (hstill.refl d').follows hd, nofun⟩
  | true =>
    rw [hwide, if_pos rfl] at h1
    obtain ⟨g, hg, hasks⟩ := switchBusWidth_asks
    have hok : r = .ok () := by
      cases r with
      | ok => rfl
      | error => exact (switchBusWidth_succeeds h1).elim
    rw [hg] at h1
    obtain ⟨mask, _, rfl, h2⟩ := acts_read_bind.mp h1
    obtain ⟨t1, rfl, h3⟩ := acts_write_bind.mp h2
    obtain ⟨f, hf, hquiet⟩ := hasks mask
    rw [hf] at h3
    obtain ⟨t2, t3, result, d1, rfl, hissue, h4⟩ := acts_observe_bind.mp h3
    -- What stands around the command masks the interrupt of the card, and gives no order.
    have hbefore : Still d [readOf .interruptMask mask,
        writeOf .interruptMask (mask &&& ~~~Interrupt.card)] d := ⟨rfl, rfl, rfl⟩
    have hafter : Still d1 t3 d' := (hquiet Still hstill.toKeepsQuiet result).acts h4
    have hrecites := issueCommand_recites (c := c) rfl rfl (by decide) hissue hd
    refine ⟨hok, ?_, fun _ hhere a => ?_⟩
    · have hfollows : Follows c ([] ++ announced c.rca .setBusWidth wideBusArgument)
          (∃ a, result = .ok a) d ([readOf .interruptMask mask,
            writeOf .interruptMask (mask &&& ~~~Interrupt.card)] ++ (t2 ++ t3)) d' :=
        (hbefore.follows hd).append (hrecites.still hafter) id
      exact hfollows.mono False.elim
    · have hgiven : own a t2 ≠ [] :=
        issue_begun rfl (by simp [Transfer.size]) (by decide) hissue (hafter.removed ▸ hhere) a
      intro hnone
      have hcons : own a (readOf .interruptMask mask ::
          writeOf .interruptMask (mask &&& ~~~Interrupt.card) :: (t2 ++ t3)) =
            own a (t2 ++ t3) := rfl
      rw [hcons, own_append, List.append_eq_nil_iff] at hnone
      exact hgiven hnone.1

theorem selected_once (rca : UInt16) (highCapacity wide : Bool) : Command.selectCard.word.bits ∉
    ((if highCapacity then [] else [order .setBlockLength sectorSize]) ++
      (announced rca .sendScr 0 ++ widening rca wide)).map Order.word := by
  cases highCapacity <;> cases wide <;> exact of_decide_eq_true rfl

/-- A card that is prepared has been selected, and its configuration register tells whether it is
told to use four data lines. Nothing after the configuration register makes the step fail. -/
theorem prepareCard_follows {r : Except Error Unit} (h : Acts (prepareCard config) d t r d')
    (hd : Knows c d) :
    (∃ e, r = .error e ∧ Follows c (selection c.rca c.highCapacity ++ announced c.rca .sendScr 0)
      False d t d') ∨
    ∃ (status : CardStatus) (first second : UInt32) (wide : Bool) (t1 t2 : History),
      t = t1 ++ t2 ∧ r = .ok () ∧ LastAnswer .selectCard status.raw t ∧
      (status.state = .standby ∨ status.state = .transfer) ∧ Fetches .sendScr [first, second] t ∧
      wide = ((Scr.ofPort first second).supportsWideBus && config.enableWideBus) ∧
      (∀ a, own a t1 = selection c.rca c.highCapacity ++ announced c.rca .sendScr 0) ∧
      (∀ a, own a t2 <+: widening c.rca wide) ∧
      (wide = true → d'.cardRemoved = false → ∀ a, own a t2 ≠ []) := by
  rcases acts_bind.mp h with ⟨e, rfl, h1⟩ | ⟨t1, _, _, d1, rfl, hs, h1⟩
  · exact .inl ⟨e, rfl, ((select_follows h1 hd).1.mono False.elim).early _ id⟩
  obtain ⟨hselect, hstate⟩ := select_follows hs hd
  obtain ⟨status, hstatus, hstate⟩ := hstate rfl
  have hf1 : Follows c [order .selectCard (c.rca.toUInt32 <<< 16)] True d t1 d1 :=
    hselect.mono fun _ => ⟨_, rfl⟩
  rcases setBlockSize_recites.cases h1 hf1.knows with
    ⟨e, rfl, hf2⟩ | ⟨t2, _, _, d2, rfl, -, hf2, h2⟩
  · exact .inl ⟨e, rfl, (hf1.append hf2 id).early _ id⟩
  have hf12 : Follows c (selection c.rca c.highCapacity) True d (t1 ++ t2) d2 := hf1.append hf2 id
  rw [← List.append_assoc]
  rcases acts_bind.mp h2 with ⟨e, rfl, h3⟩ | ⟨t3, t4, _, d3, rfl, hscr, h3⟩
  · rcases readScr_follows h3 hf2.knows with ⟨e', -, hf3⟩ | ⟨first, second, c', hok, -⟩
    · exact .inl ⟨e, rfl, hf12.append hf3 id⟩
    · nomatch hok
  rcases readScr_follows hscr hf2.knows with
    ⟨e, he, -⟩ | ⟨first, second, c', -, hfetches, hregister, hrca, hf3, hpresent⟩
  · nomatch he
  have hthrough := hf12.append hf3 fun h0 => hrca ▸ h0
  -- Nothing fails any more, whatever the card makes of the wider bus.
  rcases acts_bind.mp h3 with ⟨e, -, hw⟩ | ⟨t5, t6, _, d4, rfl, hw, h4⟩
  · nomatch (widenBus_follows hw hf3.knows).1
  obtain ⟨-, hwiden, hwidens⟩ := widenBus_follows hw hf3.knows
  rw [hregister, hrca] at hwiden
  rw [hregister] at hwidens
  obtain ⟨hsilent, rfl, rfl⟩ : commands t6 = [] ∧ r = .ok () ∧ d' = d4 := by
    obtain ⟨t7, rfl, h5⟩ := acts_report_bind.mp (acts_get_bind.mp h4)
    obtain ⟨rfl, rfl, rfl⟩ := acts_write.mp h5
    exact ⟨rfl, rfl, rfl⟩
  have hrest (a : UInt32) : own a (t5 ++ t6) = own a t5 := by
    rw [own_append, own_of_silent hsilent, List.append_nil]
  have hlater := hf2.append (hf3.append (hwiden.still ⟨rfl, rfl, hsilent⟩) id) fun h0 => hrca ▸ h0
  refine .inr ⟨status, first, second, _, t1 ++ t2 ++ t3, t5 ++ t6, by simp, rfl, ?_, hstate, ?_,
    rfl, hthrough.all trivial hpresent, fun a => ?_, fun hwide hhere a => ?_⟩
  · rw [List.append_assoc]
    exact hstatus.append_right (not_mem_commands hlater.said (by decide) (selected_once _ _ _))
  · exact (hfetches.append_right _).append_left _
  · rw [hrest]
    exact hwiden.said a
  · rw [hrest]
    exact hwidens hwide hhere a

end Peripherals.Sd
