import Peripherals.Proofs.Coupled
import Peripherals.Proofs.Sd.Completion

/-! A reset forgets the card that was in the slot. Up to the point where the driver forgets it,
nothing depends on what the driver knows; from there on nothing depends on whether a change of the
medium is still to be reported, which is all that is left over. -/

namespace Peripherals.Sd

open RegisterBlock (read write setBits clearBits)

variable {R : Driver → Driver → Prop} {α β : Type} {config : Config}

/-- From drivers that `R` relates, the step makes the same requests, and where these are answered
alike it ends alike, with drivers that `Q` relates at this end. -/
def Couples (R : Driver → Driver → Prop) (Q : Except Error α → Driver → Driver → Prop)
    (x : Action α) : Prop :=
  ∀ ⦃d e⦄, R d e →
    (x.run.run d).Coupled (fun a b => a.1 = b.1 ∧ Q a.1 a.2 b.2) (x.run.run e)

/-- Drivers that `R` relates stay so, however the step ends. -/
abbrev Alike (R : Driver → Driver → Prop) (x : Action α) : Prop := Couples R (fun _ => R) x

theorem Couples.bind {P : Except Error α → Driver → Driver → Prop}
    {Q : Except Error β → Driver → Driver → Prop} {x : Action α} {f : α → Action β}
    (hx : Couples R P x) (hf : ∀ a, Couples (P (.ok a)) Q (f a))
    (herror : ∀ e d d', P (.error e) d d' → Q (.error e) d d') : Couples R Q (x >>= f) := by
  intro d e hde
  refine (hx hde).bind fun a b ⟨hend, hab⟩ => ?_
  obtain ⟨r, d1⟩ := a
  obtain ⟨r', e1⟩ := b
  obtain rfl : r = r' := hend
  cases r with
  | error err => exact .pure ⟨rfl, herror err _ _ hab⟩
  | ok a => exact hf a hab

namespace Alike

theorem pure {a : α} : Alike R (Pure.pure a) := fun _ _ h => .pure ⟨rfl, h⟩

theorem throw {e : Error} : Alike R (MonadExcept.throw e : Action α) := fun _ _ h => .pure ⟨rfl, h⟩

theorem bind {x : Action α} {f : α → Action β} (hx : Alike R x) (hf : ∀ a, Alike R (f a)) :
    Alike R (x >>= f) :=
  Couples.bind hx hf fun _ _ _ h => h

theorem perform {o : Op} : Alike R (Sd.perform o) := fun _ _ h => .op fun _ => .pure ⟨rfl, h⟩

theorem observe {x : Action α} (hx : Alike R x) : Alike R (Sd.observe x) :=
  fun _ _ h => (hx h).bind fun _ _ hab => .pure ⟨congrArg Except.ok hab.1, hab.2⟩

theorem ite {c : Prop} [Decidable c] {x y : Action α} (hx : Alike R x) (hy : Alike R y) :
    Alike R (if c then x else y) := by
  split
  · exact hx
  · exact hy

theorem orFault {o : Option α} : Alike R (Sd.orFault o) := by
  cases o with
  | some a => exact pure
  | none => exact fun _ _ _ => .wedged

theorem read {r : Register} : Alike R (RegisterBlock.read r) := perform (o := .read r)

theorem write {r : Register} {v : UInt32} : Alike R (RegisterBlock.write r v) :=
  perform (o := .write r v)

theorem delay {us : UInt32} : Alike R (Sd.delay us) := perform (o := .delay us)

theorem report {n : Note} : Alike R (Sd.report n) := perform (o := .note n)

theorem setBits {r : Register} {bits : UInt32} :
    Alike R (RegisterBlock.setBits r bits : Action Unit) :=
  read.bind fun _ => write

theorem clearBits {r : Register} {bits : UInt32} :
    Alike R (RegisterBlock.clearBits r bits : Action Unit) :=
  read.bind fun _ => write

end Alike

/-! Steps that neither read nor change what the driver knows. -/

section Stateless

theorem waitRegister_alike {reg : Register} {mask timeout : UInt32} {set : Bool} :
    Alike R (waitRegister reg mask set timeout) := by
  unfold waitRegister Clock.waitFor
  generalize timeout.toNat / 1000 + 1 = rounds
  induction rounds with
  | zero => exact .pure
  | succ rounds ih =>
    refine .bind .delay fun _ => .bind (.bind .read fun _ => .pure) fun found => ?_
    exact .ite .pure (.bind .delay fun _ => ih)

theorem sampleStatus_alike {bits timeout : UInt32} : Alike R (sampleStatus bits timeout) :=
  .bind waitRegister_alike fun _ => .bind .read fun _ => .bind .write fun _ => .pure

theorem receiveWords_alike {count : Nat} {ws : Array UInt32} : Alike R (receiveWords count ws) := by
  induction count generalizing ws with
  | zero => exact .pure
  | succ count ih => exact .bind .read fun _ => ih

theorem sendWords_alike {words : Array UInt32} {count first : Nat} :
    Alike R (sendWords words count first) := by
  induction count generalizing first with
  | zero => exact .pure
  | succ count ih => exact .bind .write fun _ => ih

theorem moveBlocks_alike {data : Transfer} {blockWords blocks first : Nat} {ready timeout : UInt32}
    {ws : Array UInt32} : Alike R (moveBlocks data blockWords ready timeout blocks first ws) := by
  induction blocks generalizing first ws with
  | zero => exact .pure
  | succ blocks ih =>
    refine .bind sampleStatus_alike fun sample => .ite .pure ?_
    cases data with
    | none => exact ih
    | receive count => exact .bind receiveWords_alike fun _ => ih
    | send words => exact .bind sendWords_alike fun _ => ih

theorem resetLine_alike {reset : UInt32} : Alike R (resetLine reset) := by
  refine .bind .setBits fun _ => .bind waitRegister_alike fun result => ?_
  cases result with
  | ok => exact .pure
  | error => exact .bind .report fun _ => .throw

theorem orFail_alike {x : Action α} {error : Error} {notes : List Note} (hx : Alike R x) :
    Alike R (orFail x error notes) := by
  have hreport : Alike R (notes.forM report) := by
    induction notes with
    | nil => exact .pure
    | cons n notes ih => exact .bind .report fun _ => ih
  refine .bind (.observe hx) fun result => ?_
  cases result with
  | ok => exact .pure
  | error => exact .bind hreport fun _ => .throw

theorem switchClockRate_alike {base target : UInt32} : Alike R (switchClockRate base target) := by
  refine .bind .orFault fun field => .bind waitRegister_alike fun result => ?_
  cases result with
  | error => exact .throw
  | ok =>
    refine .bind .read fun _ => .bind .write fun _ => .bind .delay fun _ => ?_
    refine .bind .write fun _ => .bind .delay fun _ => .bind .write fun _ => ?_
    exact .bind .delay fun _ => .report

theorem resetController_alike : Alike R resetController := by
  refine .bind .read fun _ => .bind .write fun _ => .bind waitRegister_alike fun result => ?_
  cases result with
  | error => exact .bind .report fun _ => .throw
  | ok =>
    refine .bind waitRegister_alike fun _ => .bind .read fun status => ?_
    exact .ite (.bind .report fun _ => .throw) .pure

theorem startClock_alike {base : UInt32} : Alike R (startClock base) := by
  refine .bind .read fun _ => .bind .write fun _ => .bind waitRegister_alike fun result => ?_
  cases result with
  | error => exact .bind .report fun _ => .throw
  | ok => exact .bind .delay fun _ => .bind .setBits fun _ => .delay

theorem prepareController_alike : Alike R (prepareController config) := by
  have hbase : Alike R (baseClock config) := by
    refine .bind .perform fun answer => ?_
    cases answer with
    | ok => exact .ite (.bind .report fun _ => .pure) .pure
    | error => exact .bind .report fun _ => .pure
  have hinterrupts : Alike R (prepareInterrupts config) :=
    .bind .write fun _ => .bind .write fun _ => .bind .write fun _ => .delay
  refine .bind resetController_alike fun _ => .bind .write fun _ => .bind hbase fun base => ?_
  exact .bind startClock_alike fun _ => .bind hinterrupts fun _ => .pure

end Stateless

/-! Steps of a driver that may still have a change of the medium to report. -/

/-- The drivers differ at most in whether a change of the medium is still to be reported. -/
def OnlyMedia (d e : Driver) : Prop := e = { d with mediaChanged := e.mediaChanged }

theorem Alike.get {f : Driver → Action β} (hsame : ∀ d m, f { d with mediaChanged := m } = f d)
    (hf : ∀ d, Alike OnlyMedia (f d)) : Alike OnlyMedia (MonadState.get >>= f) := by
  intro d e hde
  have hfe : f e = f d := by
    rw [hde]
    exact hsame d _
  show ((f d).run.run d).Coupled _ ((f e).run.run e)
  rw [hfe]
  exact hf d hde

theorem Alike.modify {g : Driver → Driver}
    (hg : ∀ d m, OnlyMedia (g d) (g { d with mediaChanged := m })) :
    Alike OnlyMedia (modify g : Action Unit) := by
  intro d e hde
  refine .pure ⟨rfl, ?_⟩
  show OnlyMedia (g d) (g e)
  rw [hde]
  exact hg d _

section Issue

variable {command : Command} {word : CommandWord} {argument timeout : UInt32}
  {data : Transfer}

theorem modifyLast_alike {f : Outcome → Outcome} : Alike OnlyMedia (modifyLast f) :=
  .modify fun _ _ => rfl

theorem failAt_alike {sample : UInt32} : Alike OnlyMedia (failAt command sample) :=
  .bind modifyLast_alike fun _ => .throw

theorem readResponse_alike : Alike OnlyMedia (readResponse word) := by
  unfold readResponse
  cases word.response with
  | none => exact .pure
  | short | shortBusy => exact .bind .read fun _ => modifyLast_alike
  | long =>
    refine .bind .read fun _ => .bind .read fun _ => ?_
    exact .bind .read fun _ => .bind .read fun _ => modifyLast_alike

theorem moveData_alike {blockWords blocks : Nat} :
    Alike OnlyMedia (moveData command word data blockWords blocks timeout) := by
  refine .ite (.bind moveBlocks_alike fun phase => .bind modifyLast_alike fun _ => ?_) .pure
  cases phase.stoppedAt with
  | none => exact .pure
  | some sample => exact failAt_alike

theorem start_alike : Alike OnlyMedia (start command word argument timeout data) := by
  have hcommand : Alike OnlyMedia (awaitCommand command timeout) :=
    .bind sampleStatus_alike fun _ => .ite failAt_alike .pure
  have htransfer : Alike OnlyMedia (awaitTransfer command word timeout) :=
    .ite (.bind sampleStatus_alike fun _ => .ite .write failAt_alike) .pure
  refine .bind modifyLast_alike fun _ => .get (fun _ _ => rfl) fun d => ?_
  refine .bind .write fun _ => .bind .write fun _ => .bind .write fun _ => ?_
  refine .bind hcommand fun _ => .bind readResponse_alike fun _ => ?_
  exact .bind moveData_alike fun _ => .bind htransfer fun _ => modifyLast_alike

theorem serveCardInterrupt_alike : Alike OnlyMedia serveCardInterrupt := by
  refine .get (fun _ _ => rfl) fun d => .ite .report (.bind (.observe start_alike) fun result => ?_)
  cases result with
  | ok => exact .get (fun _ _ => rfl) fun d => .report
  | error => exact .report

/-- A removal is noticed whether or not one is still to be reported. -/
theorem sweep_alike : Alike OnlyMedia sweep := by
  have hstale {status : UInt32} : Alike OnlyMedia (noticeStale status) := .ite .report .pure
  have hbuffer {status : UInt32} : Alike OnlyMedia (noticeBuffer status) :=
    .ite (.bind .report fun _ => .bind (.observe resetLine_alike) fun _ => .pure) .pure
  have hremoval {status : UInt32} : Alike OnlyMedia (noticeRemoval status) :=
    .ite (.bind .report fun _ => .modify fun _ _ => rfl) .pure
  have hacknowledge {status : UInt32} : Alike OnlyMedia (acknowledge status) :=
    .ite (.bind .report fun _ => .write) .write
  refine .bind .read fun sample => .bind hstale fun _ => .bind hbuffer fun _ => ?_
  refine .bind hremoval fun _ => .bind (.ite serveCardInterrupt_alike .pure) fun _ => hacknowledge

theorem issue_alike : Alike OnlyMedia (issue command argument timeout data) := by
  have hinvalid : Alike OnlyMedia (refuseInvalid command data) := by
    refine .get (fun _ _ => rfl) fun d => .ite ?_ (.ite (.bind .report fun _ => .throw) .pure)
    exact .bind .report fun _ => .bind modifyLast_alike fun _ => .throw
  have hremoved : Alike OnlyMedia refuseRemoved := by
    refine .get (fun _ _ => rfl) fun d => .ite (.bind ?_ fun _ => ?_) .pure
    · exact .modify fun _ _ => rfl
    · exact .bind modifyLast_alike fun _ => .throw
  have hannounce : Alike OnlyMedia (announce command timeout) :=
    .get (fun _ _ => rfl) fun d => .ite start_alike .pure
  have hstart : Alike OnlyMedia (startReported command argument timeout data) := by
    refine .bind (.observe start_alike) fun result => ?_
    cases result with
    | ok => exact .pure
    | error => exact .get (fun _ _ => rfl) fun d => .bind .report fun _ => .throw
  refine .bind hinvalid fun _ => .bind sweep_alike fun _ => .bind hremoved fun _ => ?_
  exact .bind hannounce fun _ => hstart

end Issue

section Enumeration

theorem checkInterfaceCondition_alike : Alike OnlyMedia checkInterfaceCondition := by
  refine .bind (.observe issue_alike) fun result => ?_
  cases result with
  | ok =>
    refine .get (fun _ _ => rfl) fun d => ?_
    exact .ite .pure (.bind .report fun _ => .throw)
  | error =>
    refine .get (fun _ _ => rfl) fun d => .ite (.bind .report fun _ => .pure) (.ite ?_ ?_)
    · refine .bind .report fun _ => .bind resetLine_alike fun _ => ?_
      exact .bind .write fun _ => .pure
    · exact .bind .report fun _ => .throw

theorem probeSdio_alike : Alike OnlyMedia probeSdio := by
  refine .bind (.observe issue_alike) fun result => .get (fun _ _ => rfl) fun d => ?_
  refine .ite .pure (.ite (.bind resetLine_alike fun _ => .write) ?_)
  exact .bind .report fun _ => .throw

theorem pollOpCond_alike {argument : UInt32} {want1v8 : Bool} {polls : Nat} :
    Alike OnlyMedia (pollOpCond config argument want1v8 polls) := by
  induction polls with
  | zero => exact .bind .report fun _ => .throw
  | succ polls ih =>
    refine .bind (orFail_alike issue_alike) fun _ => .get (fun _ _ => rfl) fun d => ?_
    refine .ite (.bind ?_ fun _ => .report) (.bind .delay fun _ => ih)
    exact .modify fun _ _ => rfl

theorem switchTo1v8_alike : Alike OnlyMedia switchTo1v8 := by
  have hlevel : Alike OnlyMedia dataLevel := .bind .read fun _ => .pure
  refine .bind (.observe issue_alike) fun result => ?_
  cases result with
  | error => exact .pure
  | ok =>
    refine .bind .clearBits fun _ => .bind hlevel fun _ => .ite .pure ?_
    refine .bind .setBits fun _ => .bind .delay fun _ => .bind .read fun _ => .ite .pure ?_
    exact .bind .setBits fun _ => .bind .delay fun _ => .bind hlevel fun _ => .pure

theorem negotiate_alike {base : UInt32} : Alike OnlyMedia (negotiate config base) := by
  have hopCond {answered : Bool} : Alike OnlyMedia (negotiateOpCond config answered) :=
    .bind (orFail_alike issue_alike) fun _ => .get (fun _ _ => rfl) fun d => pollOpCond_alike
  refine .bind (orFail_alike issue_alike) fun _ => .bind checkInterfaceCondition_alike fun _ => ?_
  refine .bind probeSdio_alike fun _ => .bind hopCond fun _ => ?_
  refine .bind switchClockRate_alike fun _ => .bind .delay fun _ => ?_
  exact .get (fun _ _ => rfl) fun d => .ite switchTo1v8_alike .pure

theorem identify_alike : Alike OnlyMedia identify := by
  refine .bind (orFail_alike issue_alike) fun _ => .get (fun _ _ => rfl) fun d => ?_
  refine .bind (.modify fun _ _ => rfl) fun _ => .bind (orFail_alike issue_alike) fun _ => ?_
  refine .get (fun _ _ => rfl) fun d => .ite (.modify fun _ _ => rfl) ?_
  exact .bind .report fun _ => .throw

theorem select_alike : Alike OnlyMedia select := by
  refine .get (fun _ _ => rfl) fun d => .bind (orFail_alike issue_alike) fun _ => ?_
  exact .get (fun _ _ => rfl) fun d => .ite .pure (.bind .report fun _ => .throw)

theorem setBlockSize_alike : Alike OnlyMedia setBlockSize := by
  have hcontroller : Alike OnlyMedia (do
      let value ← read Register.blockSizeCount
      write Register.blockSizeCount ((value &&& ~~~0xFFF) ||| sectorSize) : Action Unit) :=
    .bind .read fun _ => .write
  refine .get (fun _ _ => rfl) fun d => .ite (.bind ?_ fun _ => hcontroller) hcontroller
  exact orFail_alike issue_alike

theorem readScr_alike : Alike OnlyMedia readScr := by
  refine .bind (.modify fun _ _ => rfl) fun _ => .bind (.observe issue_alike) fun result => ?_
  refine .bind (.modify fun _ _ => rfl) fun _ => ?_
  cases result with
  | error => exact .bind .report fun _ => .throw
  | ok =>
    refine .get (fun _ _ => rfl) fun d => .bind ?_ fun _ => .report
    exact .modify fun _ _ => rfl

theorem widenBus_alike : Alike OnlyMedia (widenBus config) := by
  have hswitch : Alike OnlyMedia switchBusWidth := by
    refine .bind .read fun _ => .bind .write fun _ => .bind (.observe issue_alike) fun result => ?_
    cases result with
    | ok => exact .bind .setBits fun _ => .bind .report fun _ => .write
    | error => exact .bind .report fun _ => .write
  exact .get (fun _ _ => rfl) fun d => .ite hswitch .pure

theorem bringUp_alike : Alike OnlyMedia (bringUp config) := by
  refine .bind identify_alike fun _ => .bind select_alike fun _ => ?_
  refine .bind setBlockSize_alike fun _ => .bind readScr_alike fun _ => ?_
  refine .bind widenBus_alike fun _ => .get (fun _ _ => rfl) fun d => ?_
  exact .bind .report fun _ => .write

theorem finishReset_alike {failure : Option SwitchFailure} :
    Alike OnlyMedia (finishReset config failure) := by
  have hvoltage : Alike OnlyMedia reportVoltage :=
    .get (fun _ _ => rfl) fun d => .ite .report .pure
  cases failure with
  | some step => exact .pure
  | none => exact .bind hvoltage fun _ => .bind bringUp_alike fun _ => .pure

/-! A reset, from drivers that share little. -/

/-- What a reset goes by: the version of the controller, and whether 1.8 volts may be tried. -/
structure SameSlot (d e : Driver) : Prop where
  hostVersion : e.card.hostVersion = d.card.hostVersion
  switchFailed : e.switchFailed = d.switchFailed

theorem OnlyMedia.sameSlot {d e : Driver} (h : OnlyMedia d e) : SameSlot d e := by
  rw [h]
  exact ⟨rfl, rfl⟩

/-- The drivers know the same card, unless the step has failed. -/
def SameCard : Except Error α → Driver → Driver → Prop
  | .ok _ => OnlyMedia
  | .error _ => fun _ _ => True

theorem Alike.sameCard {x : Action α} (hx : Alike OnlyMedia x) : Couples OnlyMedia SameCard x := by
  refine fun d e hde => (hx hde).mono fun a b ⟨hend, hab⟩ => ⟨hend, ?_⟩
  cases a.1 with
  | ok => exact hab
  | error => exact trivial

theorem forgetCard_couples {base : UInt32} :
    Couples SameSlot (fun _ => OnlyMedia) (forgetCard base) := by
  rintro d e ⟨hversion, hswitch⟩
  refine .pure ⟨rfl, ?_⟩
  simp [OnlyMedia, hversion, hswitch]

theorem resetOnce_couples : Couples SameSlot SameCard (resetOnce config) := by
  refine Couples.bind prepareController_alike (fun base => ?_) fun _ _ _ _ => trivial
  refine Couples.bind forgetCard_couples (fun _ => ?_) fun _ _ _ _ => trivial
  exact (negotiate_alike.bind fun _ => finishReset_alike).sameCard

theorem resetAttempts_couples {attempts : Nat} :
    Couples SameSlot SameCard (resetAttempts config attempts) := by
  induction attempts with
  | zero => exact fun _ _ _ => .pure ⟨rfl, trivial⟩
  | succ attempts ih =>
    refine Couples.bind resetOnce_couples (fun failure => ?_) fun _ _ _ _ => trivial
    cases failure with
    | none => exact Alike.sameCard .pure
    | some step =>
      refine Couples.bind (Alike.report (R := OnlyMedia)) (fun _ => ?_) fun _ _ _ _ => trivial
      refine Couples.bind (Alike.modify fun _ _ => rfl) (fun _ => ?_) fun _ _ _ _ => trivial
      refine Couples.bind (Alike.clearBits (R := OnlyMedia)) (fun _ => ?_) fun _ _ _ _ => trivial
      -- Another attempt starts from drivers that have more in common than the first needed.
      exact fun d e hde => ih hde.sameSlot

end Enumeration

/-- A reset goes by the version of the controller and by whether 1.8 volts may be tried, and by
nothing else that the driver knows. It makes the same requests of a machine and ends alike, and
where it succeeds, the driver knows the same card. It comes to no end only on a machine that leaves
a request without an answer. -/
theorem cardReset_forgets (config : Config) {σ : Type} (machine : Device port σ) (s : σ)
    {d e : Driver} (hversion : e.card.hostVersion = d.card.hostVersion)
    (hswitch : e.switchFailed = d.switchFailed) :
    ((cardReset config).run.run e).requests machine s =
        ((cardReset config).run.run d).requests machine s ∧
      ((∃ r d' e' s', ((cardReset config).run.run d).run machine s = some ((r, d'), s') ∧
          ((cardReset config).run.run e).run machine s = some ((r, e'), s') ∧
          (r = .ok () → e' = { d' with mediaChanged := e'.mediaChanged })) ∨
        ((cardReset config).run.run d).run machine s = none ∧
          ((cardReset config).run.run e).run machine s = none ∧
          ∃ o s', machine o s' = none) := by
  have hcouples : Couples SameSlot SameCard (cardReset config) := resetAttempts_couples
  have hcoupled := hcouples ⟨hversion, hswitch⟩
  refine ⟨(hcoupled.requests_eq machine s).symm, ?_⟩
  rcases hcoupled.run machine s with ⟨hd, he⟩ | ⟨⟨r, d'⟩, ⟨_, e'⟩, s', hd, he, rfl, hsame⟩
  · refine .inr ⟨hd, he, ?_⟩
    by_cases hanswers : ∀ o s', (machine o s').isSome = true
    · have hends : (((cardReset config).run.run d).run machine s).isSome = true :=
        (cardReset_completes (fun _ _ => trivial) d : CompletesFrom (fun _ => True) _ d).run_isSome
          hanswers s
      rw [hd] at hends
      nomatch hends
    · simpa using hanswers
  · refine .inl ⟨r, d', e', s', hd, he, ?_⟩
    rintro rfl
    exact hsame

/-- A driver that knows much of another card that was taken out of the slot. -/
def busyDriver : Driver where
  card := { rca := 0x1234, ocr := 0x80FF, highCapacity := true, accepts1v8 := true }
  last := { command := some .readSingleBlock, error := Interrupt.dataCrc, received := #[1, 2, 3] }
  blockSize := 8
  cardRemoved := true
  mediaChanged := true

theorem cardReset_forgets_busy :
    ∃ d' e' w, ((cardReset {}).run.run {}).run (promptCard [.ioSetOpCond]) 0 =
        some ((.ok (), d'), w) ∧
      ((cardReset {}).run.run busyDriver).run (promptCard [.ioSetOpCond]) 0 =
        some ((.ok (), e'), w) ∧ e' = { d' with mediaChanged := e'.mediaChanged } := by
  have hreset : (((cardReset {}).run.run {}).run (promptCard [.ioSetOpCond]) 0).any
      (·.1.1.toBool) = true := by
    decide +kernel
  obtain ⟨-, ⟨r, d', e', w, hd, he, hsame⟩ | ⟨hd, -⟩⟩ := cardReset_forgets {}
    (promptCard [.ioSetOpCond]) 0 (d := {}) (e := busyDriver) rfl rfl
  · rw [hd] at hreset
    cases r with
    | error => nomatch hreset
    | ok => exact ⟨d', e', w, hd, he, hsame rfl⟩
  · rw [hd] at hreset
    nomatch hreset

end Peripherals.Sd
