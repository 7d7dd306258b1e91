import Peripherals.Proofs.Sd.Course

/-! The order of the commands of an enumeration, as the SD protocol has it. One reset of the
controller gives a part of the course that the answers of the card lay down, and a reset that
succeeds has gone through all of it. -/

namespace Peripherals.Sd

open RegisterBlock (read write)

variable {config : Config} {c : CardInfo} {d d0 d1 d' : Driver} {t t0 t1 t2 : History}

/-- What the course of an enumeration depends on. -/
structure Course where
  /-- What the card is told about the host as it is asked for its operating conditions. -/
  argument : UInt32
  /-- How often the card is asked for its operating conditions, the inquiry apart. -/
  polls : Nat
  accepts1v8 : Bool
  highCapacity : Bool
  rca : UInt16
  wide : Bool

namespace Course

variable (course : Course)

/-- Up to the operating conditions. -/
def agreement : List Order := negotiation 0 course.argument course.polls

/-- Up to the signalling voltage. -/
def opening : List Order := course.agreement ++ voltage course.accepts1v8

/-- Up to the address of the card. -/
def naming : List Order := course.opening ++ identification

/-- Up to the configuration register. -/
def reading : List Order :=
  course.naming ++ (selection course.rca course.highCapacity ++ announced course.rca .sendScr 0)

/-- All of the orders. -/
def script : List Order := course.reading ++ widening course.rca course.wide

theorem naming_in_script : course.naming <+: course.script :=
  (List.prefix_append _ _).trans (List.prefix_append _ _)

theorem reading_in_script : course.reading <+: course.script := List.prefix_append _ _

theorem reading_with (rca : UInt16) (wide : Bool) :
    ({ course with rca, wide } : Course).reading = course.opening ++ identification ++
      (selection rca course.highCapacity ++ announced rca .sendScr 0) := rfl

end Course

/-- The card was ready for the operating conditions. It accepted 1.8 volts where it was asked to,
and told whether it has high capacity. -/
def Course.Agreed (course : Course) (t : History) : Prop :=
  ∃ response, LastAnswer .sendOpCond response t ∧
    hasBits response OperatingConditions.ready = true ∧
    course.accepts1v8 = (hasBits course.argument OperatingConditions.switchTo1v8 &&
      hasBits response OperatingConditions.switchTo1v8) ∧
    course.highCapacity = hasBits response OperatingConditions.highCapacity

/-- A card is asked for its status only after it has been asked for an address. -/
def Served (words : List UInt32) : Prop :=
  ∀ before after, words = before ++ Command.sendStatus.word.bits :: after →
    Command.sendRelativeAddr.word.bits ∈ before

/-- The card has been selected in the standby or the transfer state and has told its configuration,
and four data lines are asked of it where it has them and the settings allow it. -/
structure Prepared (config : Config) (course : Course) (t : History) (d' : Driver) : Prop where
  read (a : UInt32) : course.reading <+: own a t
  selected : ∃ v, LastAnswer .selectCard v t ∧
    ((v >>> 9) &&& 0xF = 3 ∨ (v >>> 9) &&& 0xF = 4)
  wide : ∃ first second, Fetches .sendScr [first, second] t ∧
    course.wide = ((Scr.ofPort first second).supportsWideBus && config.enableWideBus)
  widens : course.wide = true → d'.cardRemoved = false → ∀ a, own a t ≠ course.reading

/-- The history gives the orders of the course in turn, up to where it fails. A card goes on under
its address only where it told it without an error and ready for data. Where it is done, the card
has been prepared. -/
structure BroughtUp (config : Config) (course : Course) (t : History) (done : Prop) (d' : Driver) :
    Prop where
  given (a : UInt32) : own a t <+: course.script
  served : Served (commands t)
  named : (¬done ∧ ∀ a, own a t <+: course.naming) ∨
    ∃ v, LastAnswer .sendRelativeAddr v t ∧ v &&& 0xE100 = 0x0100 ∧
      course.rca = (v >>> 16).toUInt16
  prepared : (¬done ∧ ∀ a, own a t <+: course.reading) ∨ done ∧ Prepared config course t d'

theorem BroughtUp.congr {course : Course} {done done' : Prop}
    (h : BroughtUp config course t done d') (hdone : done ↔ done') :
    BroughtUp config course t done' d' := by
  rw [← propext hdone]
  exact h

/-- One reset of the controller from `d` follows the course, which its answers lay down. -/
structure Enumerates (config : Config) (course : Course) (d : Driver) (t : History)
    (r : Except Error (Option SwitchFailure)) (d' : Driver) : Prop
    extends BroughtUp config course t (r = .ok none) d' where
  polls : course.polls ≤ config.opCondPolls.toNat
  asked : ∃ answered, course.argument = opCondArgument answered (wants1v8 config answered d)
  agreed : (r ≠ .ok none ∧ ∀ a, own a t <+: course.agreement) ∨ course.Agreed t
  switched (step : SwitchFailure) : r = .ok (some step) → course.Agreed t ∧
    course.accepts1v8 = true ∧ ∃ t1 t2 d1, t = t1 ++ t2 ∧ Acts switchTo1v8 d1 t2 r d'

theorem served_of_unserved {words : List UInt32} (h : Command.sendStatus.word.bits ∉ words) :
    Served words := by
  rintro before after rfl
  exact absurd (List.mem_append_right _ List.mem_cons_self) h

theorem Served.append {words words' : List UInt32} (h : Command.sendStatus.word.bits ∉ words)
    (haddress : Command.sendRelativeAddr.word.bits ∈ words) : Served (words ++ words') := by
  intro before after heq
  rcases append_eq_split heq with ⟨middle, rfl, -⟩ | ⟨middle, rfl, -⟩
  · exact absurd (List.mem_append_right _ List.mem_cons_self) h
  · exact List.mem_append_left _ haddress

theorem LastAnswer.mem_commands {command : Command} {v : UInt32} (h : LastAnswer command v t) :
    command.word.bits ∈ commands t := by
  obtain ⟨before, polls, after, rfl, -⟩ := h
  rw [commands_append, commands_command]
  exact List.mem_append_right _ List.mem_cons_self

/-- The words of some commands that are only for a card without an address. -/
def unnamedOnly : List UInt32 :=
  [Command.sendIfCond.word.bits, Command.sendOpCond.word.bits, Command.sendRelativeAddr.word.bits]

theorem prepareCard_commands {r : Except Error Unit} {w : UInt32}
    (h : Acts (prepareCard config) d t r d') (hd : Knows c d) (hw : w ∈ unnamedOnly) :
    w ∉ commands t := by
  have hother : w ≠ Command.sendStatus.word.bits := by
    rintro rfl
    exact absurd hw (by decide)
  simp only [unnamedOnly, List.mem_cons, List.not_mem_nil, or_false] at hw
  have hread :
      w ∉ (selection c.rca c.highCapacity ++ announced c.rca .sendScr 0).map Order.word := by
    rcases hw with rfl | rfl | rfl <;> cases c.highCapacity <;> exact of_decide_eq_true rfl
  have hwiden (wide : Bool) : w ∉ (widening c.rca wide).map Order.word := by
    rcases hw with rfl | rfl | rfl <;> cases wide <;> exact of_decide_eq_true rfl
  rcases prepareCard_follows h hd with ⟨e, -, hf⟩ |
    ⟨status, first, second, wide, t1, t2, rfl, -, -, -, -, -, hall, hpart, -⟩
  · exact not_mem_commands hf.said hother hread
  · rw [commands_append, List.mem_append]
    refine fun hmem => hmem.elim ?_ (not_mem_commands hpart hother (hwiden wide))
    exact not_mem_commands (fun a => (hall a).symm ▸ List.prefix_rfl) hother hread

section BringUp

variable {course : Course} {done : Prop}

theorem BroughtUp.of_naming (hdone : ¬done) (hserved : Served (commands t))
    (hsaid : ∀ a, own a t <+: course.naming) : BroughtUp config course t done d' where
  given a := (hsaid a).trans course.naming_in_script
  served := hserved
  named := .inl ⟨hdone, hsaid⟩
  prepared := .inl ⟨hdone, fun a => (hsaid a).trans (List.prefix_append _ _)⟩

theorem BroughtUp.of_reading {response : AddressResponse} (hdone : ¬done)
    (hserved : Served (commands t)) (hanswer : LastAnswer .sendRelativeAddr response.raw t)
    (husable : response.isUsable = true) (hrca : course.rca = response.address)
    (hsaid : ∀ a, own a t <+: course.reading) : BroughtUp config course t done d' where
  given a := (hsaid a).trans course.reading_in_script
  served := hserved
  named := .inr ⟨response.raw, hanswer, response.isUsable_iff.mp husable, hrca⟩
  prepared := .inl ⟨hdone, hsaid⟩

/-- After the configuration register the card may be told to use four data lines, and that is all.
-/
theorem BroughtUp.of_prepared {response : AddressResponse} {status : CardStatus}
    {first second : UInt32} (hdone : done) (hserved : Served (commands t))
    (hanswer : LastAnswer .sendRelativeAddr response.raw t) (husable : response.isUsable = true)
    (hrca : course.rca = response.address) (hstatus : LastAnswer .selectCard status.raw t)
    (hstate : status.state = .standby ∨ status.state = .transfer)
    (hfetches : Fetches .sendScr [first, second] t)
    (hwide : course.wide = ((Scr.ofPort first second).supportsWideBus && config.enableWideBus))
    (hown : ∀ a, ∃ a', own a t = course.reading ++ own a' t2)
    (hwidened : ∀ a, own a t2 <+: widening course.rca course.wide)
    (hwidens : course.wide = true → d'.cardRemoved = false → ∀ a, own a t2 ≠ []) :
    BroughtUp config course t done d' := by
  have hprepared : Prepared config course t d' := by
    rw [status.state_eq_standby, status.state_eq_transfer] at hstate
    refine ⟨fun a => ?_, ⟨status.raw, hstatus, hstate⟩, ⟨first, second, hfetches, hwide⟩, ?_⟩
    · obtain ⟨a', ha⟩ := hown a
      rw [ha]
      exact List.prefix_append _ _
    · intro hw hhere a heq
      obtain ⟨a', ha⟩ := hown a
      rw [ha] at heq
      exact hwidens hw hhere a' (List.append_right_eq_self.mp heq)
  refine ⟨fun a => ?_, hserved,
    .inr ⟨response.raw, hanswer, response.isUsable_iff.mp husable, hrca⟩, .inr ⟨hdone, hprepared⟩⟩
  obtain ⟨a', ha⟩ := hown a
  rw [ha]
  exact (List.prefix_append_right_inj _).mpr (hwidened a')

/-- A card that has agreed to the operating conditions is led through the rest of the course. -/
theorem bringUp_follows {r : Except Error Unit} (hf : Follows c course.opening True d0 t0 d)
    (hzero : c.rca = 0) (hcapacity : c.highCapacity = course.highCapacity)
    (h : Acts (bringUp config) d t r d') :
    Command.sendOpCond.word.bits ∉ commands t ∧ ∃ rca wide,
      BroughtUp config { course with rca, wide } (t0 ++ t) (r = .ok ()) d' := by
  have hnone : Command.sendOpCond.word.bits ∉ identification.map Order.word := by decide
  rcases acts_bind.mp h with ⟨e, rfl, hi⟩ | ⟨t1, t2, _, d1, rfl, hi, hp⟩
  · rcases identify_follows hi hf.knows hzero with ⟨e', c1, -, hc1, hf1⟩ | ⟨response, c1, hok, -⟩
    · have hall := hf.append hf1 fun _ => hzero
      refine ⟨not_mem_commands hf1.said (by decide) hnone, 0, false, ?_⟩
      exact .of_naming nofun (served_of_unserved (hall.unserved hc1)) hall.said
    · nomatch hok
  rcases identify_follows hi hf.knows hzero with
    ⟨e, c1, he, -⟩ | ⟨response, c1, -, hunserved, hpresent, hanswer, husable, hrca, hc1, hf1⟩
  · nomatch he
  have hnamed := hf.append hf1 fun _ => hzero
  -- The status of the card is asked for by its address, so not before it has one.
  have hserved : Served (commands (t0 ++ (t1 ++ t2))) := by
    rw [← List.append_assoc, commands_append]
    refine Served.append ?_ ?_
    · rw [commands_append, List.mem_append]
      exact fun hmem => hmem.elim (hf.unserved hzero) hunserved
    · rw [commands_append]
      exact List.mem_append_right _ hanswer.mem_commands
  have hlast : LastAnswer .sendRelativeAddr response.raw (t0 ++ (t1 ++ t2)) :=
    (hanswer.append_right (prepareCard_commands hp hf1.knows (by decide))).append_left t0
  refine ⟨?_, response.address, ?_⟩
  · rw [commands_append, List.mem_append]
    exact fun hmem => hmem.elim (not_mem_commands hf1.said (by decide) hnone)
      (prepareCard_commands hp hf1.knows (by decide))
  have hprepared := prepareCard_follows hp hf1.knows
  rw [hc1, hrca, hcapacity] at hprepared
  rcases hprepared with ⟨e, rfl, hf2⟩ |
    ⟨status, first, second, wide, t3, t4, rfl, rfl, hstatus, hstate, hfetches, hwide, hread,
      hwidened, hwidens⟩
  · refine ⟨false, .of_reading nofun hserved hlast husable rfl fun a => ?_⟩
    rw [Course.reading_with, ← List.append_assoc]
    exact (hnamed.append hf2 id).said a
  · refine ⟨wide, .of_prepared rfl hserved hlast husable rfl
      ((hstatus.append_left t1).append_left t0) hstate ((hfetches.append_left t1).append_left t0)
      hwide (fun a => ?_) hwidened hwidens⟩
    rw [Course.reading_with, ← List.append_assoc, ← List.append_assoc, own_append, own_append,
      hnamed.all trivial hpresent, hread]
    exact ⟨_, rfl⟩

end BringUp

section Reset

variable {course : Course} {r : Except Error (Option SwitchFailure)}

/-- A reset that does not come to the identification of the card. -/
theorem Enumerates.of_opening (hr : r ≠ .ok none) (hpolls : course.polls ≤ config.opCondPolls.toNat)
    (hasked : ∃ answered, course.argument = opCondArgument answered (wants1v8 config answered d))
    (hsaid : ∀ a, own a t <+: course.opening)
    (hunserved : Command.sendStatus.word.bits ∉ commands t)
    (hagreed : (r ≠ .ok none ∧ ∀ a, own a t <+: course.agreement) ∨ course.Agreed t)
    (hswitched : ∀ step, r = .ok (some step) → course.Agreed t ∧ course.accepts1v8 = true ∧
      ∃ t1 t2 d1, t = t1 ++ t2 ∧ Acts switchTo1v8 d1 t2 r d') :
    Enumerates config course d t r d' :=
  have hup : BroughtUp config course t (r = .ok none) d' := .of_naming hr
    (served_of_unserved hunserved) fun a => (hsaid a).trans (List.prefix_append _ _)
  { hup with polls := hpolls, asked := hasked, agreed := hagreed, switched := hswitched }

theorem Enumerates.of_failed {e : Error} (hpolls : course.polls ≤ config.opCondPolls.toNat)
    (hasked : ∃ answered, course.argument = opCondArgument answered (wants1v8 config answered d))
    (hsaid : ∀ a, own a t <+: course.opening)
    (hunserved : Command.sendStatus.word.bits ∉ commands t)
    (hagreed : (∀ a, own a t <+: course.agreement) ∨ course.Agreed t) :
    Enumerates config course d t (.error e) d' := by
  have hnever (a : Option SwitchFailure) : (.error e : Except Error _) ≠ .ok a := by simp
  have hreached := hagreed.imp_left fun hsaid => And.intro (hnever none) hsaid
  exact .of_opening (hnever none) hpolls hasked hsaid hunserved hreached
    fun step hstep => absurd hstep (hnever (some step))

/-- A negotiation keeps to a course. Where it comes to the signalling voltage, the card has agreed.
-/
theorem negotiate_agrees {base : UInt32} {r : Except Error (Option SwitchFailure)}
    (hsilent : commands t0 = []) (h : Acts (negotiate config base) d t r d') (hd : Knows c d)
    (hzero : c.rca = 0) :
    ∃ course : Course, course.polls ≤ config.opCondPolls.toNat ∧
      (∃ answered, course.argument = opCondArgument answered (wants1v8 config answered d)) ∧
      ((∃ e, r = .error e) ∧ (∀ a, own a (t0 ++ t) <+: course.agreement) ∧
          Command.sendStatus.word.bits ∉ commands (t0 ++ t) ∨
        course.Agreed (t0 ++ t) ∧ ∃ c', c'.rca = 0 ∧ c'.highCapacity = course.highCapacity ∧
          Follows c' course.opening (∃ a, r = .ok a) d (t0 ++ t) d' ∧
          ∀ step, r = .ok (some step) → course.accepts1v8 = true ∧
            ∃ t1 t2 d1, t0 ++ t = t1 ++ t2 ∧ Acts switchTo1v8 d1 t2 (.ok (some step)) d') := by
  have hbase : Follows c [] True d t0 d := (Still.mk rfl rfl hsilent).follows hd
  obtain ⟨answered, n, hpolls, hneg⟩ := negotiate_follows h hd
  rw [hzero] at hneg
  rcases hneg.after hbase with
    ⟨e, c', rfl, hrca, hf⟩ | ⟨response, c', hlast, hagreed, hrca, hf, hswitched⟩
  · exact ⟨⟨_, n, false, false, 0, false⟩, hpolls, ⟨answered, rfl⟩,
      .inl ⟨⟨e, rfl⟩, hf.said, hf.unserved (hrca.trans hzero)⟩⟩
  · refine ⟨⟨_, n, c'.accepts1v8, c'.highCapacity, 0, false⟩, hpolls, ⟨answered, rfl⟩,
      .inr ⟨⟨response, hlast, hagreed.ready, ?_, hagreed.highCapacity⟩, c', hrca.trans hzero, rfl,
        hf, hswitched⟩⟩
    show c'.accepts1v8 = (hasBits (opCondArgument answered _) _ && _)
    rw [opCondArgument_asks]
    exact hagreed.accepts1v8

theorem finishReset_acts (h : Acts (finishReset config none) d t r d') :
    ∃ t1 t2 result, t = t1 ++ t2 ∧ commands t1 = [] ∧ Acts (bringUp config) d t2 result d' ∧
      (result = .ok () ↔ r = .ok none) ∧ ∀ step, r ≠ .ok (some step) := by
  obtain ⟨t1, t2, _, d1, rfl, hv, h1⟩ := reportVoltage_succeeds.acts_bind h
  obtain ⟨rfl, hstill⟩ := keepsQuiet_still.reportVoltage.acts hv
  rcases acts_bind.mp h1 with ⟨e, rfl, hb⟩ | ⟨t3, t4, u, d2, rfl, hb, h2⟩
  · exact ⟨t1, t2, _, rfl, commands_of_still hstill, hb, ⟨nofun, nofun⟩, nofun⟩
  · obtain ⟨rfl, rfl, rfl⟩ := acts_pure.mp h2
    rw [List.append_nil]
    exact ⟨t1, t3, _, rfl, commands_of_still hstill, hb, ⟨fun _ => rfl, fun _ => rfl⟩, nofun⟩

theorem Enumerates.congr (h : Enumerates config course d1 t r d')
    (hsame : d1.switchFailed = d.switchFailed) : Enumerates config course d t r d' := by
  refine { h with asked := ?_ }
  obtain ⟨answered, hasked⟩ := h.asked
  exact ⟨answered, by rw [hasked, wants1v8_congr hsame]⟩

/-- From a controller that is ready on, a reset follows a course. -/
theorem negotiated_follows {base : UInt32} (hsilent : commands t0 = []) (h : Acts (do
      let failure ← negotiate config base
      finishReset config failure) d t r d') (hd : Knows c d) (hzero : c.rca = 0) :
    ∃ course, Enumerates config course d (t0 ++ t) r d' := by
  rcases acts_bind.mp h with ⟨e, rfl, hn⟩ | ⟨t1, t2, failure, d1, rfl, hn, hf⟩
  · obtain ⟨course, hpolls, hasked, hneg⟩ := negotiate_agrees hsilent hn hd hzero
    refine ⟨course, ?_⟩
    rcases hneg with ⟨-, hsaid, hunserved⟩ | ⟨hagreed, c', hrca, -, hall, -⟩
    · refine .of_failed hpolls hasked (fun a => ?_) hunserved (.inl hsaid)
      exact (hsaid a).trans (List.prefix_append _ _)
    · exact .of_failed hpolls hasked hall.said (hall.unserved hrca) (.inr hagreed)
  obtain ⟨course, hpolls, hasked, hneg⟩ := negotiate_agrees hsilent hn hd hzero
  rcases hneg with ⟨⟨e, he⟩, -⟩ | ⟨hagreed, c', hrca, hcapacity, hall, hswitched⟩
  · contradiction
  cases failure with
  | some step =>
    obtain ⟨rfl, rfl, rfl⟩ := acts_pure.mp hf
    rw [List.append_nil]
    have hended : (.ok (some step) : Except Error _) ≠ .ok none := by simp
    refine ⟨course, .of_opening hended hpolls hasked hall.said (hall.unserved hrca) (.inr hagreed)
      ?_⟩
    intro step' hstep
    exact ⟨hagreed, hswitched step rfl⟩
  | none =>
    have hopened : Follows c' course.opening True d (t0 ++ t1) d1 := hall.mono fun _ => ⟨none, rfl⟩
    obtain ⟨t3, t4, result, rfl, hquiet, hb, hresult, hunswitched⟩ := finishReset_acts hf
    have hvoltage := hopened.still ⟨rfl, rfl, hquiet⟩
    obtain ⟨hnone, rca, wide, hup⟩ := bringUp_follows hvoltage hrca hcapacity hb
    refine ⟨{ course with rca, wide }, ?_⟩
    have hlast : ({ course with rca, wide } : Course).Agreed (t0 ++ t1 ++ (t3 ++ t4)) := by
      obtain ⟨response, hresponse, hanswer⟩ := hagreed
      refine ⟨response, hresponse.append_right ?_, hanswer⟩
      rw [commands_append, hquiet]
      exact hnone
    rw [List.append_assoc (t0 ++ t1)] at hup
    rw [← List.append_assoc]
    exact
      { hup.congr hresult with
        polls := hpolls
        asked := hasked
        agreed := .inr hlast
        switched := fun step hstep => absurd hstep (hunswitched step) }

theorem resetOnce_follows (h : Acts (resetOnce config) d t r d') :
    ∃ course, Enumerates config course d t r d' := by
  rcases acts_bind.mp h with ⟨e, rfl, hp⟩ | ⟨t1, t2, base, d1, rfl, hp, h1⟩
  · obtain ⟨rfl, hstill⟩ := (keepsClear_still.prepareController config).acts hp
    have hsilent := commands_of_still hstill
    have hsaid (script : List Order) (a : UInt32) : own a t <+: script := by
      simp [own_of_silent hsilent]
    refine ⟨⟨opCondArgument false (wants1v8 config false d'), 0, false, false, 0, false⟩, ?_⟩
    refine .of_failed (Nat.zero_le _) ⟨false, rfl⟩ (hsaid _) ?_ (.inl (hsaid _))
    rw [hsilent]
    exact List.not_mem_nil
  · obtain ⟨rfl, hstill⟩ := (keepsClear_still.prepareController config).acts hp
    -- The controller is ready, and nothing is known of the card but that it is there.
    obtain ⟨d2, hd2⟩ : ∃ d2 : Driver, d2 = { d1 with
        card := { hostVersion := d1.card.hostVersion, baseClock := base }
        last := {}
        blockSize := sectorSize
        cardRemoved := false } := ⟨_, rfl⟩
    have h2 := acts_modify_bind.mp h1
    rw [← hd2] at h2
    have hknows : Knows d2.card d2 := by rw [Knows, hd2]; rfl
    obtain ⟨course, hcourse⟩ :=
      negotiated_follows (commands_of_still hstill) h2 hknows (by rw [hd2])
    exact ⟨course, hcourse.congr (by rw [hd2])⟩

end Reset

/-- A reset that succeeds ends with a reset of the controller that succeeds, and at most one that
fails to switch to 1.8 volts comes before it. -/
theorem cardReset_last (h : Acts (cardReset config) d t (.ok ()) d') :
    ∃ t1 t2 d1, t = t1 ++ t2 ∧ Acts (resetOnce config) d1 t2 (.ok none) d' ∧
      (t1 = [] ∧ d1 = d ∨ ∃ step before after d2, t1 = before ++ after ∧
        Acts (resetOnce config) d before (.ok (some step)) d2 ∧ commands after = [] ∧
        d1 = { d2 with switchFailed := true }) := by
  rcases resetAttempts_acts h with ⟨_, he, -⟩ | ⟨-, ho⟩ | ⟨step, t1, t2, d1, _, rfl, ho, h1⟩
  · nomatch he
  · exact ⟨[], t, d, rfl, ho, .inl ⟨rfl, rfl⟩⟩
  rcases resetAttempts_acts h1 with ⟨_, he, -⟩ | ⟨-, ho'⟩ | ⟨_, _, _, _, _, -, -, h2⟩
  · nomatch he
  · rw [← List.append_assoc]
    exact ⟨_, t2, _, rfl, ho', .inr ⟨step, t1, _, d1, rfl, ho, rfl, rfl⟩⟩
  · nomatch (acts_throw.mp h2).2.1

/-- Every reset of the controller gives its orders in the sequence of the SD protocol, as far as it
comes, and a card is reset only by one that comes to the end of the sequence. What becomes of the
wider bus there does not matter. -/
theorem enumeration_follows_course (config : Config) (d : Driver) :
    (∀ t r d', Acts (resetOnce config) d t r d' → ∃ course, Enumerates config course d t r d') ∧
    ∀ t d', Acts (cardReset config) d t (.ok ()) d' → ∃ t1 t2 d1 course, t = t1 ++ t2 ∧
      (t1 = [] ∧ d1 = d ∨ ∃ step before after d2, t1 = before ++ after ∧
        Acts (resetOnce config) d before (.ok (some step)) d2 ∧ commands after = [] ∧
        d1 = { d2 with switchFailed := true }) ∧
      Acts (resetOnce config) d1 t2 (.ok none) d' ∧
      Enumerates config course d1 t2 (.ok none) d' := by
  refine ⟨fun t r d' h => resetOnce_follows h, fun t d' h => ?_⟩
  obtain ⟨t1, t2, d1, rfl, ho, hfirst⟩ := cardReset_last h
  obtain ⟨course, hcourse⟩ := resetOnce_follows ho
  exact ⟨t1, t2, d1, course, rfl, hfirst, ho, hcourse⟩

/-- A card with four data lines that knows nothing of the switch to them. -/
def narrowCard : Device port UInt32
  | .read .data, w => some (0x00000400, w)
  | o, w => promptCard [.ioSetOpCond, .setBusWidth] 0 o w

/-- Such a card is enumerated all the same, though its last command fails. -/
theorem enumeration_follows_course_narrow :
    ∃ t d', Acts (cardReset {}) {} t (.ok ()) d' ∧
      (commands t).getLast? = some Command.setBusWidth.word.bits ∧ d'.last.success = false ∧
      ∃ t1 t2 d1, t = t1 ++ t2 ∧ Acts (resetOnce {}) d1 t2 (.ok none) d' ∧
        ∃ course, Enumerates {} course d1 t2 (.ok none) d' := by
  obtain ⟨t, r, d', hrun, hends⟩ : ∃ t r d', Runs (cardReset {}).run {} t r d' ∧
      (r.toBool && (commands t).getLast? == some Command.setBusWidth.word.bits &&
        !d'.last.success) = true :=
    exists_runs (P := fun t r d' => r.toBool &&
        (commands t).getLast? == some Command.setBusWidth.word.bits && !d'.last.success)
      (by decide +kernel : ((Prog.run narrowCard ((cardReset {}).run.run {}) 0).any _) = true)
  obtain ⟨⟨hok, hcommand⟩, hfailed⟩ : (r.toBool = true ∧
      (commands t).getLast? = some Command.setBusWidth.word.bits) ∧ d'.last.success = false := by
    simpa using hends
  cases r with
  | error => nomatch hok
  | ok =>
    obtain ⟨t1, t2, d1, -, ht, -, ho, -⟩ := (enumeration_follows_course {} {}).2 t d' hrun
    exact ⟨t, d', hrun, hcommand, hfailed, t1, t2, d1, ht, ho,
      (enumeration_follows_course {} d1).1 t2 (.ok none) d' ho⟩

end Peripherals.Sd
