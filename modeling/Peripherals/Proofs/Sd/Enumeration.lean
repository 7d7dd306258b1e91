import Peripherals.Proofs.Sd.Issue

/-! What the steps of an enumeration keep. The steps up to the choice of an address, and those after
it, leave the address of the card alone, save where the card is removed. -/

namespace Peripherals.Sd

open RegisterBlock (read write)

variable {R : Driver → History → Driver → Prop} {α : Type}

theorem KeepsQuiet.reportAll (h : KeepsQuiet R) {notes : List Note}
    (hn : ∀ n ∈ notes, Quiet (noteOf n)) : Keeps R (notes.forM Sd.report).run := by
  induction notes with
  | nil => exact h.pure ()
  | cons n notes ih =>
    rw [List.forall_mem_cons] at hn
    exact h.bind (h.report hn.1) fun _ => ih hn.2

theorem KeepsQuiet.orFail (h : KeepsQuiet R) {x : Action α} {error : Error} {notes : List Note}
    (hx : Keeps R x.run) (hn : ∀ n ∈ notes, Quiet (noteOf n)) :
    Keeps R (Sd.orFail x error notes).run := by
  refine h.bind (.observe hx) fun result => ?_
  cases result with
  | ok a => exact h.pure a
  | error => exact h.bind (h.reportAll hn) fun _ => h.throw error

/-- The step issues one command, and whatever becomes of it makes only quiet requests after it. -/
def AsksOnce (command : Command) (argument timeout : UInt32) (x : Action α) : Prop :=
  ∃ f : Except Error Unit → Action α, x = (observe (issueCommand command argument timeout) >>= f) ∧
    ∀ R, KeepsQuiet R → ∀ result, Keeps R (f result).run

theorem checkInterfaceCondition_asks :
    AsksOnce .sendIfCond interfaceCheck commandTimeout checkInterfaceCondition := by
  refine ⟨_, rfl, fun R h result => ?_⟩
  cases result with
  | ok =>
    exact .get fun d => .ite (h.pure true) (h.bind (h.report trivial) fun _ => h.throw _)
  | error e =>
    refine .get fun d => .ite (h.bind (h.report trivial) fun _ => h.pure false) (.ite ?_ ?_)
    · refine h.bind (h.report trivial) fun _ => h.bind (h.resetLine _) fun _ => ?_
      exact h.bind (h.write rfl) fun _ => h.pure false
    · exact h.bind (h.report trivial) fun _ => h.throw _

theorem probeSdio_asks : AsksOnce .ioSetOpCond 0 sdioProbeTimeout probeSdio := by
  refine ⟨_, rfl, fun R h result => .get fun d => .ite (h.pure ()) (.ite ?_ ?_)⟩
  · exact h.bind (h.resetLine _) fun _ => h.write rfl
  · exact h.bind (h.report trivial) fun _ => h.throw _

theorem switchTo1v8_asks : AsksOnce .voltageSwitch 0 commandTimeout switchTo1v8 := by
  refine ⟨_, rfl, fun R h result => ?_⟩
  cases result with
  | error => exact h.pure _
  | ok =>
    refine h.bind (h.clearBits (fun _ => trivial) fun _ => trivial) fun _ => ?_
    refine h.bind h.dataLevel fun _ => .ite (h.pure _) ?_
    refine h.bind (h.setBits (fun _ => trivial) fun _ => trivial) fun _ => ?_
    refine h.bind (h.delay _) fun _ => h.bind (h.read fun _ => trivial) fun _ => ?_
    refine .ite (h.pure _) (h.bind (h.setBits (fun _ => trivial) fun _ => trivial) fun _ => ?_)
    exact h.bind (h.delay _) fun _ => h.bind h.dataLevel fun _ => h.pure _

theorem switchBusWidth_asks : ∃ g : UInt32 → Action Unit,
    switchBusWidth = (do
      let mask ← read Register.interruptMask
      write Register.interruptMask (mask &&& ~~~Interrupt.card)
      g mask) ∧
    ∀ mask, AsksOnce .setBusWidth wideBusArgument commandTimeout (g mask) := by
  refine ⟨_, rfl, fun mask => ⟨_, rfl, fun R h result => ?_⟩⟩
  cases result with
  | ok =>
    refine h.bind (h.setBits (fun _ => trivial) fun _ => trivial) fun _ => ?_
    exact h.bind (h.report trivial) fun _ => h.write trivial
  | error => exact h.bind (h.report trivial) fun _ => h.write trivial

/-- A relation that quiet requests and whole commands keep, and every change to the record of the
card that leaves its address alone. -/
structure KeepsCard (R : Driver → History → Driver → Prop) : Prop extends KeepsQuiet R where
  issue {data : Transfer} (hdata : data.isSend = false) (command : Command)
    (argument timeout : UInt32) : Keeps R (Sd.issue command argument timeout data).run
  card (d : Driver) {c : CardInfo} : c.rca = d.card.rca → R d [] { d with card := c }

theorem KeepsIssue.keepsCard (h : KeepsIssue R)
    (hcard : ∀ d c, c.rca = d.card.rca → R d [] { d with card := c }) : KeepsCard R where
  toKeepsQuiet := h.toKeepsQuiet
  issue hdata := h.issue (by simp [hdata])
  card d c := hcard d c

namespace KeepsCard

theorem issueCommand (h : KeepsCard R) (command : Command) (argument timeout : UInt32) :
    Keeps R (Sd.issueCommand command argument timeout).run :=
  h.issue rfl command argument timeout

theorem modifyCard (h : KeepsCard R) {f : CardInfo → CardInfo} (hf : ∀ c, (f c).rca = c.rca) :
    Keeps R (Sd.modifyCard f).run :=
  .modify fun d => h.card d (hf d.card)

theorem asksOnce (h : KeepsCard R) {command : Command} {argument timeout : UInt32} {x : Action α}
    (hx : AsksOnce command argument timeout x) : Keeps R x.run := by
  obtain ⟨f, rfl, hf⟩ := hx
  exact h.bind (.observe (h.issueCommand _ _ _)) fun result => hf R h.toKeepsQuiet result

theorem pollOpCond (h : KeepsCard R) (config : Config) (argument : UInt32) (want1v8 : Bool)
    (polls : Nat) : Keeps R (Sd.pollOpCond config argument want1v8 polls).run := by
  induction polls with
  | zero => exact h.bind (h.report trivial) fun _ => h.throw _
  | succ polls ih =>
    refine h.bind (h.orFail (h.issueCommand _ _ _) (by simp [Quiet])) fun _ => .get fun d => ?_
    refine .ite ?_ (h.bind (h.delay _) fun _ => ih)
    exact h.bind (h.modifyCard fun _ => rfl) fun _ => h.report trivial

theorem negotiateOpCond (h : KeepsCard R) (config : Config) (answered : Bool) :
    Keeps R (Sd.negotiateOpCond config answered).run := by
  refine h.bind (h.orFail (h.issueCommand _ _ _) (by simp [Quiet])) fun _ => .get fun d => ?_
  exact h.pollOpCond config _ _ _

theorem select (h : KeepsCard R) : Keeps R Sd.select.run := by
  refine .get fun d => h.bind (h.orFail (h.issueCommand _ _ _) (by simp)) fun _ => .get fun d => ?_
  exact .ite (h.pure ()) (h.bind (h.report trivial) fun _ => h.throw _)

theorem setBlockSize (h : KeepsCard R) : Keeps R Sd.setBlockSize.run := by
  have hrest : Keeps R (do
      let value ← read Register.blockSizeCount
      write Register.blockSizeCount ((value &&& ~~~0xFFF) ||| sectorSize) : Action Unit).run :=
    h.bind (h.read fun _ => trivial) fun _ => h.write trivial
  refine .get fun d => .ite ?_ hrest
  exact h.bind (h.orFail (h.issueCommand _ _ _) (by simp)) fun _ => hrest

theorem readScr (h : KeepsCard R) (hsize : ∀ d n, R d [] { d with blockSize := n }) :
    Keeps R Sd.readScr.run := by
  refine h.bind (.modify fun d => hsize d 8) fun _ => ?_
  refine h.bind (.observe (h.issue rfl _ _ _)) fun result => ?_
  refine h.bind (.modify fun d => hsize d sectorSize) fun _ => ?_
  cases result with
  | error => exact h.bind (h.report trivial) fun _ => h.throw _
  | ok => exact .get fun d => h.bind (h.modifyCard fun _ => rfl) fun _ => h.report trivial

theorem switchBusWidth (h : KeepsCard R) : Keeps R Sd.switchBusWidth.run := by
  obtain ⟨g, hg, hasks⟩ := switchBusWidth_asks
  rw [hg]
  refine h.bind (h.read fun _ => trivial) fun mask => h.bind (h.write trivial) fun _ => ?_
  exact h.asksOnce (hasks mask)

theorem negotiate (h : KeepsCard R) (config : Config) (base : UInt32) :
    Keeps R (Sd.negotiate config base).run := by
  refine h.bind (h.orFail (h.issueCommand _ _ _) (by simp [Quiet])) fun _ => ?_
  refine h.bind (h.asksOnce checkInterfaceCondition_asks) fun answered => ?_
  refine h.bind (h.asksOnce probeSdio_asks) fun _ => ?_
  refine h.bind (h.negotiateOpCond config answered) fun _ => ?_
  refine h.bind (h.switchClockRate _ _) fun _ => h.bind (h.delay _) fun _ => .get fun d => ?_
  exact .ite (h.asksOnce switchTo1v8_asks) (h.pure none)

end KeepsCard

/-- A relation that quiet requests keep, and a write that clears the whole interrupt status. -/
structure KeepsClear (R : Driver → History → Driver → Prop) : Prop extends KeepsQuiet R where
  cleared (d : Driver) : R d [writeOf .interrupt 0xFFFFFFFF] d

theorem keepsClear_still : KeepsClear fun d t d' => d' = d ∧ traffic t = [] where
  toKeepsQuiet := keepsQuiet_still
  cleared _ := ⟨rfl, rfl⟩

theorem KeepsClear.prepareController (h : KeepsClear R) (config : Config) :
    Keeps R (Sd.prepareController config).run := by
  refine h.bind h.resetController fun _ => h.bind (h.write trivial) fun _ => ?_
  refine h.bind (h.baseClock config) fun base => h.bind (h.startClock base) fun _ => ?_
  refine h.bind (h.bind (h.write trivial) fun _ => ?_) fun _ => h.pure base
  refine h.bind (.perform fun d _ => h.cleared d) fun _ => ?_
  exact h.bind (h.write trivial) fun _ => h.delay _

theorem KeepsClear.prepareCard (h : KeepsClear R) (hcard : KeepsCard R)
    (hscr : Keeps R readScr.run) (config : Config) : Keeps R (Sd.prepareCard config).run := by
  refine h.bind hcard.select fun _ => h.bind hcard.setBlockSize fun _ => h.bind hscr fun _ => ?_
  refine h.bind (.get fun d => .ite hcard.switchBusWidth (h.pure ())) fun _ => .get fun d => ?_
  exact h.bind (h.report trivial) fun _ => .perform fun d _ => h.cleared d

theorem orFail_ok {x : Action α} {error : Error} {notes : List Note} {a : α} {d d' : Driver}
    {t : History} (h : Acts (orFail x error notes) d t (.ok a) d') : Acts x d t (.ok a) d' := by
  obtain ⟨t1, t2, result, d1, rfl, hx, h1⟩ := acts_observe_bind.mp h
  cases result with
  | ok b =>
    obtain ⟨rfl, hb, rfl⟩ := acts_pure.mp h1
    rw [List.append_nil, hb]
    exact hx
  | error e =>
    obtain ⟨t3, t4, _, d2, -, -, h2⟩ := acts_bind_ok.mp h1
    obtain ⟨-, hthrow, -⟩ := acts_throw.mp h2
    nomatch hthrow

/-- A relation that all steps of an enumeration keep after the controller has been reset. A card
chooses its address only while it is there. -/
structure KeepsEnumeration (R : Driver → History → Driver → Prop) : Prop
    extends KeepsCard R, KeepsClear R where
  addressed (d : Driver) (rca : UInt16) : d.cardRemoved = false →
    R d [] { d with card := { d.card with rca } }
  scr : Keeps R readScr.run

namespace KeepsEnumeration

theorem identify (h : KeepsEnumeration R) : Keeps R Sd.identify.run := by
  refine h.bind (h.orFail (h.issueCommand _ _ _) (by simp)) fun _ => .get fun d => ?_
  refine h.bind (h.modifyCard fun _ => rfl) fun _ => ?_
  intro d t r d' hx
  have hrca : Keeps R (Sd.orFail (Sd.issueCommand .sendRelativeAddr 0 commandTimeout)
      .relativeAddress []).run := h.orFail (h.issueCommand _ _ _) (by simp)
  rcases acts_bind.mp hx with ⟨e, -, h1⟩ | ⟨t1, t2, _, d1, rfl, h1, h2⟩
  · exact hrca.acts h1
  have hpresent := (issue_started (orFail_ok h1)).1
  refine h.trans (hrca.acts h1) ?_
  have h3 := acts_get_bind.mp h2
  rw [acts_ite] at h3
  split at h3
  · obtain ⟨rfl, -, rfl⟩ := acts_modify.mp h3
    exact h.addressed d1 _ hpresent
  · obtain ⟨t3, rfl, h4⟩ := acts_report_bind.mp h3
    obtain ⟨rfl, -, rfl⟩ := acts_throw.mp h4
    exact h.quiet _ trivial

theorem bringUp (h : KeepsEnumeration R) (config : Config) : Keeps R (Sd.bringUp config).run :=
  h.bind h.identify fun _ => h.toKeepsClear.prepareCard h.toKeepsCard h.scr config

theorem finishReset (h : KeepsEnumeration R) (config : Config) (failure : Option SwitchFailure) :
    Keeps R (Sd.finishReset config failure).run := by
  cases failure with
  | some step => exact h.pure _
  | none =>
    exact h.bind h.reportVoltage fun _ => h.bind (h.bringUp config) fun _ => h.pure _

end KeepsEnumeration

/-- A relation that a whole reset keeps. -/
structure KeepsReset (R : Driver → History → Driver → Prop) : Prop extends KeepsEnumeration R where
  dropped (d : Driver) : R d [] { d with card := { d.card with rca := 0 } }
  switched (d : Driver) : R d [] { d with switchFailed := true }
  fresh (d : Driver) (base : UInt32) : R d []
    { d with
      card := { hostVersion := d.card.hostVersion, baseClock := base }
      last := {}
      blockSize := sectorSize
      cardRemoved := false }

theorem powerOff_acts {r : Except Error Unit} {d d' : Driver} {t : History}
    (h : Acts powerOff d t r d') :
    ∃ control, t = [readOf .control0 control, writeOf .control0
      (control &&& ~~~(Control0.signal1v8 ||| Control0.busVoltage))] ∧ r = .ok () ∧ d' = d := by
  obtain ⟨control, t1, rfl, h1⟩ := acts_read_bind.mp h
  obtain ⟨rfl, hr, hd⟩ := acts_write.mp h1
  exact ⟨control, rfl, hr, hd⟩

/-- A switch to 1.8 volts that fails takes the bus down, and another attempt follows. Anything else
ends the attempts. -/
theorem resetAttempts_acts {config : Config} {attempts : Nat} {r : Except Error Unit}
    {d d' : Driver} {t : History} (h : Acts (resetAttempts config (attempts + 1)) d t r d') :
    (∃ e, r = .error e ∧ Acts (resetOnce config) d t (.error e) d') ∨
    (r = .ok () ∧ Acts (resetOnce config) d t (.ok none) d') ∨
    ∃ step t1 t2 d1 control,
      t = t1 ++ ([noteOf (.switchFailed step), readOf .control0 control, writeOf .control0
        (control &&& ~~~(Control0.signal1v8 ||| Control0.busVoltage))] ++ t2) ∧
      Acts (resetOnce config) d t1 (.ok (some step)) d1 ∧
      Acts (resetAttempts config attempts) { d1 with switchFailed := true } t2 r d' := by
  rcases acts_bind.mp h with ⟨e, rfl, ho⟩ | ⟨t1, t2, failure, d1, rfl, ho, h1⟩
  · exact .inl ⟨e, rfl, ho⟩
  cases failure with
  | none =>
    obtain ⟨rfl, rfl, rfl⟩ := acts_pure.mp h1
    rw [List.append_nil]
    exact .inr (.inl ⟨rfl, ho⟩)
  | some step =>
    obtain ⟨t3, rfl, h2⟩ := acts_report_bind.mp h1
    rcases acts_bind.mp (acts_modify_bind.mp h2) with ⟨e, -, hoff⟩ | ⟨t4, t5, _, d2, rfl, hoff, h3⟩
    · obtain ⟨control, -, hok, -⟩ := powerOff_acts hoff
      nomatch hok
    · obtain ⟨control, rfl, -, rfl⟩ := powerOff_acts hoff
      exact .inr (.inr ⟨step, t1, t5, d1, control, rfl, ho, h3⟩)

theorem KeepsReset.resetOnce (h : KeepsReset R) (config : Config) :
    Keeps R (Sd.resetOnce config).run := by
  refine h.bind (h.prepareController config) fun base => ?_
  refine h.bind (.modify fun d => h.fresh d base) fun _ => ?_
  exact h.bind (h.negotiate config base) fun failure => h.finishReset config failure

end Peripherals.Sd
