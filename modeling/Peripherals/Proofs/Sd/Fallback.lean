import Peripherals.Proofs.Sd.Operation
import Peripherals.Proofs.Sd.Protocol

/-! The switch to 1.8 volts, and what follows where it fails. A reset starts over once, at 3.3
volts. The driver remembers the failure until it is initialized again, and asks no card for 1.8
volts before. -/

namespace Peripherals.Sd

open RegisterBlock (read write)

variable {config : Config} {d d1 d' : Driver} {t t1 t2 : History}

/-- Whether the order asks a card for 1.8 volts. -/
def Order.asksLow (o : Order) : Bool :=
  o.word == Command.voltageSwitch.word.bits ||
    (o.word == Command.sendOpCond.word.bits &&
      hasBits o.argument OperatingConditions.switchTo1v8)

/-- No order of the history asks a card for 1.8 volts. -/
def StaysHigh (t : History) : Prop := ∀ a, ∀ o ∈ orders a t, o.asksLow = false

theorem Order.asksLow_eq_false {o : Order} (hswitch : o.word ≠ Command.voltageSwitch.word.bits)
    (hagree : o.word ≠ Command.sendOpCond.word.bits) : o.asksLow = false := by
  simp [Order.asksLow, hswitch, hagree]

theorem StaysHigh.append (h1 : StaysHigh t1) (h2 : StaysHigh t2) : StaysHigh (t1 ++ t2) := by
  intro a o ho
  rw [orders_append] at ho
  exact (List.mem_append.mp ho).elim (h1 a o) (h2 _ o)

theorem staysHigh_of_words (h : ∀ w ∈ commands t,
    w ≠ Command.voltageSwitch.word.bits ∧ w ≠ Command.sendOpCond.word.bits) : StaysHigh t := by
  intro a o ho
  have hword : o.word ∈ commands t := by
    rw [← orders_word a t]
    exact List.mem_map_of_mem ho
  exact Order.asksLow_eq_false (h _ hword).1 (h _ hword).2

theorem staysHigh_of_silent (h : commands t = []) : StaysHigh t :=
  staysHigh_of_words (by simp [h])

theorem staysHigh_of_own (h : ∀ a, ∀ o ∈ own a t, o.asksLow = false) : StaysHigh t := by
  intro a o ho
  by_cases hstatus : o.word = Command.sendStatus.word.bits
  · exact Order.asksLow_eq_false (by rw [hstatus]; decide) (by rw [hstatus]; decide)
  · exact h a o (List.mem_filter.mpr ⟨ho, by simpa using hstatus⟩)

/-! The course of an enumeration that does not ask for 1.8 volts. -/

namespace Course

variable {course : Course}

theorem agreement_high
    (h : hasBits course.argument OperatingConditions.switchTo1v8 = false) :
    ∀ o ∈ course.agreement, o.asksLow = false := by
  have hasked : ∀ argument, hasBits argument OperatingConditions.switchTo1v8 = false →
      ∀ o ∈ announced 0 .sendOpCond argument, o.asksLow = false := by
    intro argument hargument o ho
    rcases List.mem_cons.mp ho with rfl | ho
    · rfl
    · rw [List.mem_singleton.mp ho, Order.asksLow]
      show (false || (true && hasBits argument _)) = false
      simp [hargument]
  intro o ho
  rcases List.mem_append.mp ho with hfound | hagrees
  · have hall : ([order .goIdleState 0, order .sendIfCond interfaceCheck,
        order .ioSetOpCond 0] : List Order).all (fun o => !o.asksLow) = true := by decide
    simpa using List.all_eq_true.mp hall o hfound
  rcases List.mem_append.mp hagrees with hinquiry | hpolls
  · exact hasked 0 rfl o hinquiry
  · obtain ⟨l, hl, hol⟩ := List.mem_flatten.mp hpolls
    rw [(List.mem_replicate.mp hl).2] at hol
    exact hasked _ h o hol

theorem script_high (h : hasBits course.argument OperatingConditions.switchTo1v8 = false)
    (hvoltage : course.accepts1v8 = false) : ∀ o ∈ course.script, o.asksLow = false := by
  -- None of the later commands is one of the two that can ask for 1.8 volts.
  have hrest (rca : UInt16) (highCapacity wide : Bool) :
      (identification ++ (selection rca highCapacity ++ announced rca .sendScr 0) ++
        widening rca wide).all (fun o => !o.asksLow) = true := by
    cases highCapacity <;> cases wide <;> rfl
  have hscript : course.script = course.agreement ++ (identification ++
      (selection course.rca course.highCapacity ++ announced course.rca .sendScr 0) ++
        widening course.rca course.wide) := by
    rw [script, reading, naming, opening, hvoltage]
    simp [voltage]
  intro o ho
  rw [hscript] at ho
  rcases List.mem_append.mp ho with hagreed | hlater
  · exact agreement_high h o hagreed
  · simpa using List.all_eq_true.mp (hrest _ _ _) o hlater

end Course

/-- With a failed switch in memory a reset of the controller asks for no 1.8 volts, and does not
fail to switch. -/
theorem resetOnce_high {r : Except Error (Option SwitchFailure)}
    (h : Acts (resetOnce config) d t r d') (hd : d.switchFailed = true) :
    StaysHigh t ∧ ∀ step, r ≠ .ok (some step) := by
  obtain ⟨course, hcourse⟩ := resetOnce_follows h
  have hargument : hasBits course.argument OperatingConditions.switchTo1v8 = false := by
    obtain ⟨answered, hasked⟩ := hcourse.asked
    rw [hasked, opCondArgument_asks, wants1v8, hd]
    simp
  have hrefused : course.Agreed t → course.accepts1v8 = false := by
    rintro ⟨response, -, -, haccepts, -⟩
    rw [haccepts, hargument]
    rfl
  constructor
  · refine staysHigh_of_own fun a o ho => ?_
    rcases hcourse.agreed with ⟨-, hsaid⟩ | hagreed
    · exact Course.agreement_high hargument o ((hsaid a).subset ho)
    · exact Course.script_high hargument (hrefused hagreed) o ((hcourse.given a).subset ho)
  · intro step hstep
    obtain ⟨hagreed, haccepts, -⟩ := hcourse.switched step hstep
    rw [hrefused hagreed] at haccepts
    contradiction

/-! The memory of a failed switch. -/

/-- A failed switch to 1.8 volts stays in memory. -/
def KeepsFailure (d : Driver) (_ : History) (d' : Driver) : Prop :=
  d.switchFailed = true → d'.switchFailed = true

theorem keepsIssue_failure : KeepsIssue KeepsFailure where
  refl _ h := h
  trans h1 h2 h := h2 (h1 h)
  quiet _ _ _ h := h
  last _ _ h := h
  command _ _ h := h
  received _ _ h := h
  noticed _ h := h
  acknowledged _ _ _ h := h
  forgotten _ _ h := h

theorem keepsReset_failure : KeepsReset KeepsFailure where
  toKeepsCard := keepsIssue_failure.keepsCard fun _ _ _ h => h
  cleared _ h := h
  addressed _ _ _ h := h
  scr := (keepsIssue_failure.keepsCard fun _ _ _ h => h).readScr fun _ _ h => h
  dropped _ h := h
  switched _ _ := rfl
  fresh _ _ h := h

/-- With a failed switch in memory no order asks for 1.8 volts, and the failure stays in memory. -/
def KeepsHigh (d : Driver) (t : History) (d' : Driver) : Prop :=
  d.switchFailed = true → d'.switchFailed = true ∧ StaysHigh t

theorem keepsQuiet_high : KeepsQuiet KeepsHigh where
  refl _ hd := ⟨hd, staysHigh_of_silent rfl⟩
  trans h1 h2 hd :=
    have hd1 := (h1 hd).1
    ⟨(h2 hd1).1, (h1 hd).2.append (h2 hd1).2⟩
  quiet _ _ he hd := ⟨hd, staysHigh_of_silent (commands_of_still (traffic_quiet he))⟩

theorem issue_high {command : Command} {argument timeout : UInt32} {data : Transfer}
    (hswitch : command.word.bits ≠ Command.voltageSwitch.word.bits)
    (hagree : command.word.bits ≠ Command.sendOpCond.word.bits) :
    Keeps KeepsHigh (issue command argument timeout data).run := by
  intro d t r d' h hd
  refine ⟨(keepsIssue_failure.issue ?_ command argument timeout).acts h hd, staysHigh_of_words ?_⟩
  · exact fun _ _ _ hd => hd
  · intro w hw
    rcases issue_words h w hw with rfl | rfl | rfl
    · decide
    · decide
    · exact ⟨hswitch, hagree⟩

theorem keepsAccess_high (config : Config) : KeepsAccess config KeepsHigh where
  toKeepsQuiet := keepsQuiet_high
  reset _ _ _ _ h hd := ⟨(keepsReset_failure.resetOnce config).acts h hd, (resetOnce_high h hd).1⟩
  gate hgate argument timeout := by
    have hother : ∀ command ∈ gateCommands,
        command.word.bits ≠ Command.voltageSwitch.word.bits ∧
          command.word.bits ≠ Command.sendOpCond.word.bits := by decide
    exact issue_high (hother _ hgate).1 (hother _ hgate).2
  dropped _ hd := ⟨hd, staysHigh_of_silent rfl⟩
  switched _ _ := ⟨rfl, staysHigh_of_silent rfl⟩
  version _ _ hd := ⟨hd, staysHigh_of_silent rfl⟩

theorem keepsData_high (data : Transfer) : KeepsData KeepsHigh data := by
  intro isWrite blocks argument timeout
  refine issue_high ?_ ?_
  · unfold dataCommand
    cases isWrite <;> cases decide (1 < blocks) <;> decide
  · unfold dataCommand
    cases isWrite <;> cases decide (1 < blocks) <;> decide

/-! The attempts at a reset. -/

/-- One attempt, or a second after a switch to 1.8 volts that failed. The bus is taken down in
between, and the second attempt asks for no 1.8 volts. -/
inductive Attempts (config : Config) (d : Driver) (r : Except Error Unit) (d' : Driver) :
    History → Prop
  | once {t : History} : Acts (resetOnce config) d t (r.map fun _ => none) d' →
      Attempts config d r d' t
  | twice {t0 t1 t2 : History} {d0 d1 : Driver} {step : SwitchFailure} {control : UInt32} :
      Acts (resetOnce config) d (t0 ++ t1) (.ok (some step)) d1 →
      Acts switchTo1v8 d0 t1 (.ok (some step)) d1 →
      Acts (resetOnce config) { d1 with switchFailed := true } t2 (r.map fun _ => none) d' →
      StaysHigh t2 →
      Attempts config d r d' (t0 ++ t1 ++ ([noteOf (.switchFailed step), readOf .control0 control,
        writeOf .control0 (control &&& ~~~(Control0.signal1v8 ||| Control0.busVoltage))] ++ t2))

theorem cardReset_attempts {r : Except Error Unit} (h : Acts (cardReset config) d t r d') :
    r ≠ .error .voltageSwitch ∧ Attempts config d r d' t := by
  rcases resetAttempts_acts h with
    ⟨e, rfl, ho⟩ | ⟨rfl, ho⟩ | ⟨step, t1, t2, d1, control, rfl, ho, h1⟩
  · refine ⟨fun he => ?_, .once ho⟩
    exact resetOnce_fails ho (Except.error.inj he)
  · exact ⟨nofun, .once ho⟩
  -- The second attempt knows of the failed switch: it cannot fail in the same way.
  obtain ⟨course, hcourse⟩ := resetOnce_follows ho
  obtain ⟨-, -, t3, t4, d2, rfl, hswitch⟩ := hcourse.switched step rfl
  rcases resetAttempts_acts h1 with ⟨e, rfl, ho'⟩ | ⟨rfl, ho'⟩ | ⟨step', t5, _, _, _, rfl, ho', -⟩
  · refine ⟨fun he => ?_, .twice ho hswitch ho' (resetOnce_high ho' rfl).1⟩
    exact resetOnce_fails ho' (Except.error.inj he)
  · exact ⟨nofun, .twice ho hswitch ho' (resetOnce_high ho' rfl).1⟩
  · exact absurd rfl ((resetOnce_high ho' rfl).2 step')

/-- A reset makes at most two attempts, the second at 3.3 volts, and does not fail for the voltage.
After a failed switch nothing but a new initialization makes the driver ask for 1.8 volts again. -/
theorem fallback_bounded (config : Config) (d : Driver) :
    (∀ t r d', Acts (cardReset config) d t r d' →
      r ≠ .error .voltageSwitch ∧ Attempts config d r d' t) ∧
    (d.switchFailed = true → ∀ os t d1, Session config d os t d1 → .init ∉ os →
      d1.switchFailed = true ∧ ∀ (o : Operation) (t' : History) (a : o.Answer) (d2 : Driver),
        o ≠ .init → Runs (o.step config) d1 t' a d2 → d2.switchFailed = true ∧
          ((∀ command argument timeout, o ≠ .issueCommand command argument timeout) →
            StaysHigh t')) := by
  refine ⟨fun t r d' h => cardReset_attempts h, fun hd os t d1 hs hos => ?_⟩
  have hfailure (o : Operation) (ho : o ≠ .init) : Keeps KeepsFailure (o.step config) :=
    keepsReset_failure.step (keepsIssue_failure.keepsData fun _ _ h => h) config
      (fun h => absurd h ho) fun _ _ h => h
  have hd1 : d1.switchFailed = true := by
    refine hs.keeps keepsReset_failure.toComposes (fun o ho => hfailure o ?_) hd
    rintro rfl
    exact hos ho
  refine ⟨hd1, fun o t' a d2 ho hx => ⟨hfailure o ho hx hd1, fun hcommand => ?_⟩⟩
  have hhigh : Keeps KeepsHigh (o.step config) :=
    (keepsAccess_high config).step keepsData_high
      (fun command argument timeout h => absurd h (hcommand command argument timeout))
      (fun h => absurd h ho) fun _ _ h => ⟨h, staysHigh_of_silent rfl⟩
  exact (hhigh hx hd1).2

/-- A card that accepts 1.8 volts, in a slot whose controller does not switch to them. -/
def stubbornSlot : Device port UInt32
  | .read .response0, w =>
    if w == Command.sendOpCond.word.bits then some (0x81000900, w)
    else promptCard [.ioSetOpCond] 0 (.read .response0) w
  | o, w => promptCard [.ioSetOpCond] 0 o w

/-- There the card is brought up at 3.3 volts, and found ready by the next access. -/
theorem fallback_bounded_stubborn :
    ∃ t1 d1 t2 d2, Acts (cardReset { enable1v8 := true }) {} t1 (.ok ()) d1 ∧
      Attempts { enable1v8 := true } {} (.ok ()) d1 t1 ∧ d1.switchFailed = true ∧
      Acts (ensureDataMode { enable1v8 := true }) d1 t2 (.ok ()) d2 ∧ d2.switchFailed = true ∧
      StaysHigh t2 := by
  obtain ⟨t, a, d2, hrun, hends⟩ : ∃ t a d', Runs (do
      let r ← (cardReset { enable1v8 := true }).run
      let d ← get
      let r' ← (ensureDataMode { enable1v8 := true }).run
      pure (r.toBool, d.switchFailed, r'.toBool)) {} t a d' ∧ (a == (true, true, true)) = true :=
    exists_runs (P := fun _ a _ => a == (true, true, true))
      (by decide +kernel : ((Prog.run stubbornSlot (StateT.run _ _) 0).any _) = true)
  obtain ⟨t1, t2, r, d1, rfl, hreset, h1⟩ := runs_bind.mp hrun
  obtain ⟨t3, t4, r', d3, rfl, hgate, h2⟩ := runs_bind.mp (runs_get_bind.mp h1)
  obtain ⟨rfl, rfl, rfl⟩ := runs_pure.mp h2
  obtain ⟨hreset', hfailed, hgate'⟩ :
      r.toBool = true ∧ d1.switchFailed = true ∧ r'.toBool = true := by
    simpa using hends
  cases r with
  | error => nomatch hreset'
  | ok =>
    cases r' with
    | error => nomatch hgate'
    | ok =>
      have hattempts := ((fallback_bounded { enable1v8 := true } {}).1 t1 _ d1 hreset).2
      obtain ⟨-, hsticky⟩ := (fallback_bounded { enable1v8 := true } d1).2 hfailed [] [] d1
        (.nil d1) List.not_mem_nil
      obtain ⟨hstill, hhigh⟩ := hsticky .ensureDataMode t3 (.ok ()) d2 nofun hgate
      exact ⟨t1, d1, t3, d2, hreset, hattempts, hfailed, hgate, hstill, hhigh nofun⟩

end Peripherals.Sd
