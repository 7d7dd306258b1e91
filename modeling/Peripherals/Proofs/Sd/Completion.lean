import Peripherals.Proofs.Sd.DataCommand
import Peripherals.Proofs.Sd.Divider
import Peripherals.Proofs.Total

/-! Every step of the driver ends, whatever the controller answers: each wait is bounded, and so is
each loop. The only way not to end is to ask for a clock of zero on a base clock of zero. With it
goes which errors a step can come to, be it that it fails with them or that it reports them. -/

namespace Peripherals.Sd

open RegisterBlock (read write setBits clearBits)

/-- The error that a report tells of. -/
def Note.error? : Note → Option Error
  | .tooManyBlocks _ => some .tooManyBlocks
  | .commandFailed e _ | .cardInterruptLost e | .failed e | .wideBusFailed e | .statusFailed e
  | .attemptFailed _ _ _ e | .badBuffer e | .requestFailed _ _ e | .unready e => some e
  | _ => none

/-- The request reports only errors of `E`. -/
def Op.Reports (E : Error → Prop) : Op → Prop
  | .note n => ∀ e, n.error? = some e → E e
  | _ => True

/-- The error is about the size of a transfer. -/
def Error.isOfSize : Error → Bool
  | .tooManyBlocks | .emptyTransfer => true
  | _ => false

variable {E : Error → Prop} {α β : Type} {d : Driver}

theorem reports {n : Note} {e : Error} (hn : n.error? = some e) (he : E e) :
    (Op.note n).Reports E := by
  intro e' hn'
  rw [hn] at hn'
  rwa [← Option.some.inj hn']

/-- From `d` the step ends, whatever it is answered, with a result of `Q`. It reports only errors of
`E`. -/
def Ends (E : Error → Prop) (Q : α → Prop) (x : Step α) (d : Driver) : Prop :=
  (x.run d).Ensures (Op.Reports E) fun r => Q r.1

/-- From `d` the step ends, whatever it is answered. It reports only errors of `E`, and fails only
with such errors. -/
def CompletesFrom (E : Error → Prop) (x : Action α) (d : Driver) : Prop :=
  Ends E (fun r => ∀ e, r = .error e → E e) x.run d

/-- The step completes from every state. -/
def Completes (E : Error → Prop) (x : Action α) : Prop := ∀ d, CompletesFrom E x d

section Step

variable {Q : α → Prop} {R : β → Prop}

theorem Ends.pure {a : α} (ha : Q a) : Ends E Q (Pure.pure a) d :=
  Prog.Ensures.pure ha

theorem Ends.bind {x : Step α} {f : α → Step β} (hx : Ends E Q x d)
    (hf : ∀ t a d1, Runs x d t a d1 → Q a → Ends E R (f a) d1) : Ends E R (x >>= f) d :=
  Prog.Ensures.bind hx fun t a ha hQ => hf t a.1 a.2 ha hQ

theorem Ends.get {f : Driver → Step β} (hf : Ends E R (f d) d) :
    Ends E R (MonadState.get >>= f) d :=
  hf

theorem Ends.modify {g : Driver → Driver} {f : Unit → Step β} (hf : Ends E R (f ()) (g d)) :
    Ends E R (modify g >>= f) d :=
  hf

theorem Ends.set {s : Driver} {f : PUnit → Step β} (hf : Ends E R (f ()) s) :
    Ends E R (MonadStateOf.set s >>= f) d :=
  hf

theorem Ends.say {n : Note} {f : Unit → Step β} (hn : (Op.note n).Reports E)
    (hf : Ends E R (f ()) d) : Ends E R (Sd.say n >>= f) d :=
  Prog.Ensures.op hn fun _ => hf

theorem Ends.ite {c : Prop} [Decidable c] {x y : Step α} (hx : Ends E Q x d) (hy : Ends E Q y d) :
    Ends E Q (if c then x else y) d := by
  split
  · exact hx
  · exact hy

/-- What is reported, and what the step ends with. -/
theorem Ends.runs {x : Step α} {d' : Driver} {t : History} {a : α} (h : Ends E Q x d)
    (hx : Runs x d t a d') : (∀ e ∈ t, e.request.Reports E) ∧ Q a :=
  Prog.Ensures.ends (Q := fun r : α × Driver => Q r.1) h hx

end Step

theorem CompletesFrom.bind {x : Action α} {f : α → Action β} (hx : CompletesFrom E x d)
    (hf : ∀ a, Completes E (f a)) : CompletesFrom E (x >>= f) d := by
  refine Ends.bind hx fun t r d1 _ hr => ?_
  cases r with
  | error e =>
    have he : E e := hr e rfl
    exact .pure (by simpa using he)
  | ok a => exact hf a d1

namespace Completes

theorem pure {a : α} : Completes E (Pure.pure a) :=
  fun _ => .pure (by simp)

theorem throw {e : Error} (he : E e) : Completes E (MonadExcept.throw e : Action α) := by
  refine fun _ => .pure fun e' he' => ?_
  rwa [← Except.error.inj he']

theorem perform {o : Op} (ho : o.Reports E) : Completes E (Sd.perform o) :=
  fun _ => Prog.Ensures.op ho fun _ => .pure (by simp)

theorem orFault {a : α} {o : Option α} (ho : o = some a) : Completes E (Sd.orFault o) :=
  ho ▸ pure

theorem read {r : Register} : Completes E (RegisterBlock.read r) := perform (o := .read r) trivial

theorem write {r : Register} {v : UInt32} : Completes E (RegisterBlock.write r v) :=
  perform (o := .write r v) trivial

theorem delay {us : UInt32} : Completes E (Sd.delay us) := perform (o := .delay us) trivial

theorem report {n : Note} (hn : (Op.note n).Reports E) : Completes E (Sd.report n) := perform hn

theorem modify {f : Driver → Driver} : Completes E (modify f : Action Unit) :=
  fun _ => Prog.Ensures.pure (by simp)

theorem get {f : Driver → Action β} (hf : ∀ d, Completes E (f d)) :
    Completes E (MonadState.get >>= f) :=
  fun d => hf d d

theorem bind {x : Action α} {f : α → Action β} (hx : Completes E x)
    (hf : ∀ a, Completes E (f a)) : Completes E (x >>= f) :=
  fun d => (hx d).bind hf

theorem observe {x : Action α} {f : Except Error α → Action β} (hx : Completes E x)
    (hok : ∀ a, Completes E (f (.ok a))) (herror : ∀ e, E e → Completes E (f (.error e))) :
    Completes E (Sd.observe x >>= f) := by
  intro d
  rw [CompletesFrom, Sd.observe, ExceptT.run_bind_lift]
  refine Ends.bind (hx d) fun t r d1 _ hr => ?_
  cases r with
  | error e => exact herror e (hr e rfl) d1
  | ok a => exact hok a d1

theorem ite {c : Prop} [Decidable c] {x y : Action α} (hx : Completes E x) (hy : Completes E y) :
    Completes E (if c then x else y) := by
  split
  · exact hx
  · exact hy

end Completes

theorem waitRegister_completes {reg : Register} {mask timeout : UInt32} {set : Bool} :
    Completes E (waitRegister reg mask set timeout) := by
  unfold waitRegister Clock.waitFor
  generalize timeout.toNat / 1000 + 1 = rounds
  induction rounds with
  | zero => exact .pure
  | succ rounds ih =>
    refine .bind .delay fun _ => .bind (.bind .read fun _ => .pure) fun found => ?_
    exact .ite .pure (.bind .delay fun _ => ih)

theorem setBits_completes {r : Register} {bits : UInt32} :
    Completes E (setBits r bits : Action Unit) :=
  .bind .read fun _ => .write

theorem clearBits_completes {r : Register} {bits : UInt32} :
    Completes E (clearBits r bits : Action Unit) :=
  .bind .read fun _ => .write

theorem sampleStatus_completes {bits timeout : UInt32} :
    Completes E (sampleStatus bits timeout) :=
  .bind waitRegister_completes fun _ => .bind .read fun _ => .bind .write fun _ => .pure

theorem readResponse_completes {word : CommandWord} : Completes E (readResponse word) := by
  unfold readResponse
  cases word.response with
  | none => exact .pure
  | short | shortBusy => exact .bind .read fun _ => .modify
  | long =>
    refine .bind .read fun _ => .bind .read fun _ => ?_
    exact .bind .read fun _ => .bind .read fun _ => .modify

theorem receiveWords_completes {count : Nat} {ws : Array UInt32} :
    Completes E (receiveWords count ws) := by
  induction count generalizing ws with
  | zero => exact .pure
  | succ count ih => exact .bind .read fun _ => ih

theorem sendWords_completes {words : Array UInt32} {count first : Nat} :
    Completes E (sendWords words count first) := by
  induction count generalizing first with
  | zero => exact .pure
  | succ count ih => exact .bind .write fun _ => ih

theorem moveBlocks_completes {data : Transfer} {blockWords blocks first : Nat}
    {ready timeout : UInt32} {ws : Array UInt32} :
    Completes E (moveBlocks data blockWords ready timeout blocks first ws) := by
  induction blocks generalizing first ws with
  | zero => exact .pure
  | succ blocks ih =>
    refine .bind sampleStatus_completes fun sample => .ite .pure ?_
    cases data with
    | none => exact ih
    | receive count => exact .bind receiveWords_completes fun _ => ih
    | send words => exact .bind sendWords_completes fun _ => ih

/-! What follows holds for every `E` with all the errors that are not about the size of a
transfer. -/

section Issue

variable (hE : ∀ e : Error, e.isOfSize = false → E e) {command : Command} {word : CommandWord}
  {argument timeout : UInt32} {data : Transfer}
include hE

theorem failAt_completes {sample : UInt32} : Completes E (failAt command sample) := by
  refine .bind .modify fun _ => .throw (hE _ ?_)
  split
  · rfl
  · rfl

theorem moveData_completes {blockWords blocks : Nat} :
    Completes E (moveData command word data blockWords blocks timeout) := by
  refine .ite (.bind moveBlocks_completes fun phase => .bind .modify fun _ => ?_) .pure
  cases phase.stoppedAt with
  | none => exact .pure
  | some sample => exact failAt_completes hE

theorem start_completes : Completes E (start command word argument timeout data) := by
  have hcommand : Completes E (awaitCommand command timeout) :=
    .bind sampleStatus_completes fun _ => .ite (failAt_completes hE) .pure
  have htransfer : Completes E (awaitTransfer command word timeout) :=
    .ite (.bind sampleStatus_completes fun _ => .ite .write (failAt_completes hE)) .pure
  refine .bind .modify fun _ => .get fun d => .bind .write fun _ => .bind .write fun _ => ?_
  refine .bind .write fun _ => .bind hcommand fun _ => .bind readResponse_completes fun _ => ?_
  exact .bind (moveData_completes hE) fun _ => .bind htransfer fun _ => .modify

theorem resetLine_completes {reset : UInt32} : Completes E (resetLine reset) := by
  refine .bind setBits_completes fun _ => .bind waitRegister_completes fun result => ?_
  cases result with
  | ok => exact .pure
  | error => exact .bind (.report nofun) fun _ => .throw (hE _ rfl)

theorem serveCardInterrupt_completes : Completes E serveCardInterrupt := by
  refine .get fun d => .ite (.report nofun) (.observe (start_completes hE) ?_ ?_)
  · exact fun _ => .get fun d => .report nofun
  · exact fun e he => .report (reports rfl he)

theorem sweep_completes : Completes E sweep := by
  refine .bind .read fun sample => .bind (.ite (.report nofun) .pure) fun _ => ?_
  have hbuffer : Completes E (noticeBuffer (sample &&& Interrupt.named)) := by
    refine .ite (.bind (.report nofun) fun _ => ?_) .pure
    exact .observe (resetLine_completes hE) (fun _ => .pure) fun _ _ => .pure
  have hacknowledge : Completes E (acknowledge (sample &&& Interrupt.named)) :=
    .ite (.bind (.report nofun) fun _ => .write) .write
  have hremoval : Completes E (noticeRemoval (sample &&& Interrupt.named)) :=
    .ite (.bind (.report nofun) fun _ => .modify) .pure
  refine .bind hbuffer fun _ => .bind hremoval fun _ => ?_
  exact .bind (.ite (serveCardInterrupt_completes hE) .pure) fun _ => hacknowledge

/-- A command completes. It is about the size of its transfer only where that has too many blocks.
-/
theorem issue_completes (hblocks : E .tooManyBlocks ∨ data.size / d.blockWords ≤ maxBlocks) :
    CompletesFrom E (issue command argument timeout data) d := by
  have hinvalid : CompletesFrom E (refuseInvalid command data) d := by
    show CompletesFrom E (if _ then _ else if _ then _ else _) d
    by_cases hreserved : command.word.isReserved = true
    · rw [if_pos hreserved]
      exact Completes.bind (.report nofun) (fun _ => .bind .modify fun _ => .throw (hE _ rfl)) d
    rw [if_neg hreserved]
    by_cases hmany : maxBlocks < data.size / d.blockWords
    · have he : E .tooManyBlocks := hblocks.resolve_right (Nat.not_le.mpr hmany)
      rw [if_pos hmany]
      exact Completes.bind (.report (reports rfl he))
        (fun _ => .throw he) d
    · rw [if_neg hmany]
      exact Completes.pure d
  have hremoved : Completes E refuseRemoved := by
    refine .get fun d => .ite ?_ .pure
    exact .bind .modify fun _ => .bind .modify fun _ => .throw (hE _ rfl)
  have hannounce : Completes E (announce command timeout) :=
    .get fun d => .ite (start_completes hE) .pure
  have hstart : Completes E (startReported command argument timeout data) := by
    refine .observe (start_completes hE) (fun _ => .pure) fun e he => .get fun d => ?_
    exact .bind (.report (reports rfl he)) fun _ => .throw he
  refine hinvalid.bind fun _ => ?_
  exact .bind (sweep_completes hE) fun _ => .bind hremoved fun _ => .bind hannounce fun _ => hstart

theorem issueCommand_completes : Completes E (issueCommand command argument timeout) :=
  fun _ => issue_completes hE (.inr (by simp [Transfer.size]))

end Issue

theorem orFail_completes {x : Action α} {error : Error} {notes : List Note} (hx : Completes E x)
    (he : E error) (hnotes : ∀ n ∈ notes, n.error? = none) :
    Completes E (orFail x error notes) := by
  have hreport : Completes E (notes.forM report) := by
    induction notes with
    | nil => exact .pure
    | cons n notes ih =>
      rw [List.forall_mem_cons] at hnotes
      exact .bind (.report (by simp [Op.Reports, hnotes.1])) fun _ => ih hnotes.2
  exact .observe hx (fun _ => .pure) fun _ _ => .bind hreport fun _ => .throw he

section Enumeration

variable (hE : ∀ e : Error, e.isOfSize = false → E e) {config : Config}
include hE

theorem powerOn_completes : Completes E powerOn := by
  refine .bind (.perform trivial) fun answer => ?_
  cases answer with
  | ok status => exact .ite .pure (.bind (.report nofun) fun _ => .throw (hE _ rfl))
  | error => exact .bind (.report nofun) fun _ => .throw (hE _ rfl)

theorem switchClockRate_completes {base target : UInt32} (hrates : base ≠ 0 ∨ target ≠ 0) :
    Completes E (switchClockRate base target) := by
  refine .bind (.orFault (Divider.field?_eq_some hrates)) fun field => ?_
  refine .bind waitRegister_completes fun result => ?_
  cases result with
  | error => exact .throw (hE _ rfl)
  | ok =>
    refine .bind .read fun _ => .bind .write fun _ => .bind .delay fun _ => ?_
    refine .bind .write fun _ => .bind .delay fun _ => .bind .write fun _ => ?_
    exact .bind .delay fun _ => .report nofun

theorem resetController_completes : Completes E resetController := by
  refine .bind .read fun _ => .bind .write fun _ => .bind waitRegister_completes fun result => ?_
  cases result with
  | error => exact .bind (.report nofun) fun _ => .throw (hE _ rfl)
  | ok =>
    refine .bind waitRegister_completes fun _ => .bind .read fun status => ?_
    exact .ite (.bind (.report nofun) fun _ => .throw (hE _ rfl)) .pure

theorem startClock_completes {base : UInt32} : Completes E (startClock base) := by
  refine .bind .read fun _ => .bind .write fun _ => .bind waitRegister_completes fun result => ?_
  cases result with
  | error => exact .bind (.report nofun) fun _ => .throw (hE _ rfl)
  | ok => exact .bind .delay fun _ => .bind setBits_completes fun _ => .delay

theorem prepareController_completes : Completes E (prepareController config) := by
  have hbase : Completes E (baseClock config) := by
    refine .bind (.perform trivial) fun answer => ?_
    cases answer with
    | ok => exact .ite (.bind (.report nofun) fun _ => .pure) .pure
    | error => exact .bind (.report nofun) fun _ => .pure
  have hinterrupts : Completes E (prepareInterrupts config) :=
    .bind .write fun _ => .bind .write fun _ => .bind .write fun _ => .delay
  refine .bind (resetController_completes hE) fun _ => .bind .write fun _ => ?_
  refine .bind hbase fun base => .bind (startClock_completes hE) fun _ => ?_
  exact .bind hinterrupts fun _ => .pure

theorem checkInterfaceCondition_completes : Completes E checkInterfaceCondition := by
  refine .observe (issueCommand_completes hE) (fun _ => .get fun d => ?_) fun e he =>
    .get fun d => ?_
  · exact .ite .pure (.bind (.report nofun) fun _ => .throw (hE _ rfl))
  · refine .ite (.bind (.report nofun) fun _ => .pure) (.ite ?_ ?_)
    · refine .bind (.report nofun) fun _ => .bind (resetLine_completes hE) fun _ => ?_
      exact .bind .write fun _ => .pure
    · exact .bind (.report (reports rfl he)) fun _ => .throw (hE _ rfl)

theorem probeSdio_completes : Completes E probeSdio := by
  have hanswer (result : Except Error Unit) : Completes E (do
      let d ← get
      if !result.toBool && d.last.timedOut then
        pure ()
      else if d.last.commandTimeout then
        resetLine Control1.resetCommand
        write Register.interrupt Interrupt.commandTimeout
      else
        report .sdioCard
        throw .sdioCard) := by
    refine .get fun d => .ite .pure (.ite ?_ ?_)
    · exact .bind (resetLine_completes hE) fun _ => .write
    · exact .bind (.report nofun) fun _ => .throw (hE _ rfl)
  exact .observe (issueCommand_completes hE) (fun _ => hanswer _) fun _ _ => hanswer _

theorem negotiateOpCond_completes {answered : Bool} :
    Completes E (negotiateOpCond config answered) := by
  have hpoll {argument : UInt32} {want1v8 : Bool} {polls : Nat} :
      Completes E (pollOpCond config argument want1v8 polls) := by
    induction polls with
    | zero => exact .bind (.report nofun) fun _ => .throw (hE _ rfl)
    | succ polls ih =>
      refine .bind (orFail_completes (issueCommand_completes hE) (hE _ rfl) (by simp [Note.error?]))
        fun _ => .get fun d => .ite ?_ (.bind .delay fun _ => ih)
      exact .bind .modify fun _ => .report nofun
  refine .bind (orFail_completes (issueCommand_completes hE) (hE _ rfl) (by simp [Note.error?]))
    fun _ => ?_
  exact .get fun d => hpoll

theorem switchTo1v8_completes : Completes E switchTo1v8 := by
  have hlevel : Completes E dataLevel := .bind .read fun _ => .pure
  refine .observe (issueCommand_completes hE) (fun _ => ?_) fun _ _ => .pure
  refine .bind clearBits_completes fun _ => .bind hlevel fun _ => .ite .pure ?_
  refine .bind setBits_completes fun _ => .bind .delay fun _ => .bind .read fun _ => .ite .pure ?_
  exact .bind setBits_completes fun _ => .bind .delay fun _ => .bind hlevel fun _ => .pure

theorem negotiate_completes {base : UInt32} : Completes E (negotiate config base) := by
  refine .bind (orFail_completes (issueCommand_completes hE) (hE _ rfl) (by simp [Note.error?]))
    fun _ => ?_
  refine .bind (checkInterfaceCondition_completes hE) fun answered => ?_
  refine .bind (probeSdio_completes hE) fun _ => .bind (negotiateOpCond_completes hE) fun _ => ?_
  have hclock : Completes E (switchClockRate base Divider.normalHz) :=
    switchClockRate_completes hE (.inr (by decide))
  refine .bind hclock fun _ => .bind .delay fun _ => .get fun d => ?_
  exact .ite (switchTo1v8_completes hE) .pure

theorem identify_completes : Completes E identify := by
  have hissue {command : Command} {error : Error} (he : E error) :
      Completes E (orFail (issueCommand command 0 commandTimeout) error []) :=
    orFail_completes (issueCommand_completes hE) he (by simp)
  refine .bind (hissue (hE _ rfl)) fun _ => .get fun d => .bind .modify fun _ => ?_
  refine .bind (hissue (hE _ rfl)) fun _ => .get fun d => .ite .modify ?_
  exact .bind (.report nofun) fun _ => .throw (hE _ rfl)

theorem select_completes : Completes E select := by
  refine .get fun d => ?_
  refine .bind (orFail_completes (issueCommand_completes hE) (hE _ rfl) (by simp)) fun _ => ?_
  exact .get fun d => .ite .pure (.bind (.report nofun) fun _ => .throw (hE _ rfl))

theorem setBlockSize_completes : Completes E setBlockSize := by
  have hcontroller : Completes E (do
      let value ← read Register.blockSizeCount
      write Register.blockSizeCount ((value &&& ~~~0xFFF) ||| sectorSize) : Action Unit) :=
    .bind .read fun _ => .write
  refine .get fun d => .ite (.bind ?_ fun _ => hcontroller) hcontroller
  exact orFail_completes (issueCommand_completes hE) (hE _ rfl) (by simp)

theorem readScr_completes : Completes E readScr := by
  have hissue : Completes E (issue .sendScr 0 commandTimeout (.receive 2)) := by
    refine fun d => issue_completes hE (.inr (Nat.le_trans (Nat.div_le_self _ _) ?_))
    decide
  refine .bind .modify fun _ => .observe hissue (fun _ => ?_) fun e he => ?_
  · exact .bind .modify fun _ => .get fun d => .bind .modify fun _ => .report nofun
  · refine .bind .modify fun _ => ?_
    exact .bind (.report (reports rfl he)) fun _ => .throw (hE _ rfl)

theorem switchBusWidth_completes : Completes E switchBusWidth := by
  refine .bind .read fun _ => .bind .write fun _ => .observe (issueCommand_completes hE) ?_ ?_
  · exact fun _ => .bind setBits_completes fun _ => .bind (.report nofun) fun _ => .write
  · exact fun e he => .bind (.report (reports rfl he)) fun _ => .write

theorem widenBus_completes : Completes E (widenBus config) :=
  .get fun _ => .ite (switchBusWidth_completes hE) .pure

theorem bringUp_completes : Completes E (bringUp config) := by
  refine .bind (identify_completes hE) fun _ => .bind (select_completes hE) fun _ => ?_
  refine .bind (setBlockSize_completes hE) fun _ => .bind (readScr_completes hE) fun _ => ?_
  refine .bind (widenBus_completes hE) fun _ => .get fun d => ?_
  exact .bind (.report nofun) fun _ => .write

theorem resetOnce_completes : Completes E (resetOnce config) := by
  refine .bind (prepareController_completes hE) fun base => .bind .modify fun _ => ?_
  refine .bind (negotiate_completes hE) fun failure => ?_
  cases failure with
  | some step => exact .pure
  | none =>
    have hvoltage : Completes E reportVoltage := .get fun d => .ite (.report nofun) .pure
    exact .bind hvoltage fun _ => .bind (bringUp_completes hE) fun _ => .pure

theorem cardReset_completes : Completes E (cardReset config) := by
  have hattempts (attempts : Nat) : Completes E (resetAttempts config attempts) := by
    induction attempts with
    | zero => exact .throw (hE _ rfl)
    | succ attempts ih =>
      refine .bind (resetOnce_completes hE) fun failure => ?_
      cases failure with
      | none => exact .pure
      | some step =>
        refine .bind (.report nofun) fun _ => .bind .modify fun _ => ?_
        exact .bind clearBits_completes fun _ => ih
  exact hattempts 2

theorem init_completes : Completes E (init config) := by
  refine .bind .modify fun _ => .bind (powerOn_completes hE) fun _ => .bind .read fun version => ?_
  refine .bind .modify fun _ => .bind (.report nofun) fun _ => .ite ?_ (cardReset_completes hE)
  exact .bind (.report nofun) fun _ => cardReset_completes hE

theorem queryStatus_completes : Completes E queryStatus := by
  refine .get fun d => .observe (issueCommand_completes hE) (fun _ => ?_) fun e he => ?_
  · exact .get fun d => .ite (.bind (.report nofun) fun _ => .pure) .pure
  · refine .bind (.report (reports rfl he)) fun _ => ?_
    exact .bind .modify fun _ => .throw (hE _ rfl)

theorem ensureDataMode_completes : Completes E (ensureDataMode config) := by
  have hrecover {command : Command} {argument : UInt32} {note : Note} {error : Error}
      (hnote : note.error? = none) (he : E error) :
      Completes E (recover command argument note error) := by
    refine .observe (issueCommand_completes hE) (fun _ => .pure) fun _ _ => ?_
    refine .bind (.report (by simp [Op.Reports, hnote])) fun _ => .bind .modify fun _ => .throw he
  have hleave (state : CardState) : Completes E (leave config state) := by
    cases state with
    | standby => exact .get fun d => hrecover rfl (hE _ rfl)
    | data =>
      refine .bind (hrecover rfl (hE _ rfl)) fun _ => ?_
      exact .observe (resetLine_completes hE) (fun _ => .pure) fun _ _ => .pure
    | _ => exact cardReset_completes hE
  have hconfirm : Completes E confirmTransfer := by
    refine .bind (queryStatus_completes hE) fun status => .ite .pure ?_
    exact .bind (.report nofun) fun _ => .bind .modify fun _ => .throw (hE _ rfl)
  have henter : Completes E (enterTransfer config) := by
    refine .bind (queryStatus_completes hE) fun status => .ite .pure ?_
    exact .bind (hleave _) fun _ => hconfirm
  exact .get fun d => .ite (.bind (cardReset_completes hE) fun _ => henter) henter

end Enumeration

theorem unusable_notOfSize {buffer : Buffer} {size : Nat} {e : Error}
    (h : buffer.unusable? size = some e) : e.isOfSize = false := by
  unfold Buffer.unusable? at h
  split at h
  · obtain rfl := Option.some.inj h
    rfl
  · split at h
    · obtain rfl := Option.some.inj h
      rfl
    · nomatch h

/-- The blocks are not too many for a command, or else `E` has the error for that. -/
def Fits (E : Error → Prop) (data : Transfer) (d : Driver) : Prop :=
  E .tooManyBlocks ∨ d.blockSize = sectorSize ∧ data.size / sectorWords ≤ maxBlocks

theorem transfer_size (direction : Direction) (buffer : Buffer) (words : Nat) :
    (direction.transfer buffer words).size = words := by
  cases direction with
  | read => rfl
  | write => simp [Direction.transfer, Transfer.size, Buffer.words, Word.arrayOfBytes]

section Request

variable (hE : ∀ e : Error, e.isOfSize = false → E e) {config : Config} {data : Transfer}
  {sector : UInt32}
include hE

theorem attemptData_ends {command : Command} {address timeout : UInt32}
    {attempts left made : Nat} {arrived : Array UInt32} (hfits : Fits E data d) :
    Ends E (fun _ => True) (attemptData command address timeout data attempts left made arrived)
      d := by
  induction left generalizing d made arrived with
  | zero => exact .pure trivial
  | succ left ih =>
    have hblocks : E .tooManyBlocks ∨ data.size / d.blockWords ≤ maxBlocks := by
      refine hfits.imp_right fun ⟨hsize, hfew⟩ => ?_
      rwa [blockWords_eq hsize]
    refine Ends.bind (issue_completes hE hblocks) fun t r d1 hissue hr => ?_
    have hfits1 : Fits E data d1 := by
      refine hfits.imp_right fun ⟨hsize, hfew⟩ => ⟨?_, hfew⟩
      exact (keepsIssue_sectorSized.issue (fun _ _ _ h => h) _ _ _).acts hissue hsize
    refine Ends.get ?_
    cases r with
    | ok => exact .pure trivial
    | error e =>
      have he : E e := hr e rfl
      exact Ends.say (reports rfl he) (ih hfits1)

theorem transferBlocks_ends (hfits : Fits E data d)
    (hsome : E .emptyTransfer ∨ 1 ≤ data.size / sectorWords) :
    Ends E (fun r => ∀ e, r.1 = .error e → E e) (transferBlocks config data sector) d := by
  refine Ends.get ?_
  cases blockAddress d.card.highCapacity sector with
  | none => exact .pure (by simpa using hE .addressOutOfRange rfl)
  | some address =>
    dsimp only
    by_cases hempty : data.size / sectorWords < 1
    · rw [if_pos hempty]
      exact .pure (by simpa using hsome.resolve_right (Nat.not_le.mpr hempty))
    rw [if_neg hempty]
    refine Ends.bind (attemptData_ends hE hfits) fun t result d1 _ _ => ?_
    obtain ⟨done, arrived⟩ := result
    cases done with
    | true => exact .pure (by simp)
    | false => exact .say nofun (.modify (.pure (by simpa using hE .retriesExhausted rfl)))

theorem accessBlocks_ends (hfits : Fits E data d)
    (hsome : E .emptyTransfer ∨ 1 ≤ data.size / sectorWords) :
    Ends E (fun r => ∀ e, r.1 = .error e → E e) (accessBlocks config data sector) d := by
  refine Ends.bind (ensureDataMode_completes hE d) fun t r d1 hgate hr => ?_
  cases r with
  | error e => exact .pure (by simpa using hr)
  | ok =>
    refine transferBlocks_ends hE (hfits.imp_right fun ⟨hsize, hfew⟩ => ⟨?_, hfew⟩) hsome
    exact (keepsReset_sectorSized.ensureDataMode config).acts hgate hsize

/-- The sectors of a request are neither too few nor too many. -/
theorem accessSectors_ends {direction : Direction} {buffer : Buffer} {count : UInt16}
    (hsize : E .tooManyBlocks ∨ d.blockSize = sectorSize) (hcount : count ≠ 0) :
    Ends E (fun r => ∀ e, r.1 = .error e → E e) (accessBlocks config
      (direction.transfer buffer (count.toNat * sectorWords)) sector) d := by
  have hsectors : (direction.transfer buffer (count.toNat * sectorWords)).size / sectorWords =
      count.toNat := by
    rw [transfer_size]
    exact Nat.mul_div_cancel _ (by decide)
  refine accessBlocks_ends hE (hsize.imp_right fun hsize => ⟨hsize, ?_⟩) (.inr ?_)
  · rw [hsectors]
    exact count_le_maxBlocks count
  · rw [hsectors]
    exact Nat.pos_of_ne_zero fun h0 => hcount (UInt16.toNat_inj.mp h0)

theorem readWrite_ends {direction : Direction} {buffer : Buffer} {count device : UInt16}
    (hsize : E .tooManyBlocks ∨ d.blockSize = sectorSize) :
    Ends E (fun _ => True) (readWrite config direction buffer sector count device) d := by
  refine .ite (.pure trivial) ?_
  by_cases hcount : count = 0
  · rw [if_pos hcount]
    exact .pure trivial
  rw [if_neg hcount]
  refine .ite (.say nofun (.pure trivial)) ?_
  cases hbuffer : buffer.unusable? (4 * (count.toNat * sectorWords)) with
  | some e =>
    have he : E e := hE e (unusable_notOfSize hbuffer)
    exact .say (reports rfl he) (.pure trivial)
  | none =>
    refine Ends.bind (accessSectors_ends hE hsize hcount) fun t r d1 _ hr => ?_
    obtain ⟨outcome, arrived⟩ := r
    cases outcome with
    | ok => exact .pure trivial
    | error e =>
      have he : E e := hr e rfl
      exact .say (reports rfl he) (.pure trivial)

theorem ioctl_ends {device : UInt16} {request : IoctlRequest} :
    Ends E (fun _ => True) (ioctl config device request) d := by
  have hanswer (d : Driver) : Ends E (fun _ => True) (answerRequest request) d := by
    refine .get (.ite ?_ ?_)
    · cases request with
      | mediaChange => exact Ends.set (.pure trivial)
      | _ => exact .pure trivial
    · cases request with
      | mediaChange => exact Ends.set (.pure trivial)
      | other code => exact .say nofun (.pure trivial)
      | diskName =>
        cases diskName? d.card.cid with
        | none | some => exact .pure trivial
      | diskInfo => exact .pure trivial
  refine .ite (.pure trivial) (Ends.bind (ensureDataMode_completes hE d) fun t r d1 _ hr => ?_)
  cases r with
  | ok => exact hanswer d1
  | error e =>
    have he : E e := hr e rfl
    exact .say (reports rfl he) (hanswer d1)

end Request

/-- Every operation but one ends, from whatever state. -/
theorem Operation.step_ends (config : Config) {o : Operation} (ho : o ≠ .switchClockRate 0 0)
    (d : Driver) : Ends (fun _ => True) (fun _ => True) (o.step config) d := by
  have hE : ∀ e : Error, e.isOfSize = false → True := fun _ _ => trivial
  have hany {α : Type} {x : Action α} (hx : Completes (fun _ => True) x) :
      Ends (fun _ => True) (fun _ => True) x.run d :=
    Prog.Ensures.mono (hx d) fun _ _ => trivial
  cases o with
  | init => exact hany (init_completes hE)
  | cardReset => exact hany (cardReset_completes hE)
  | ensureDataMode => exact hany (ensureDataMode_completes hE)
  | issueCommand command argument timeout => exact hany (issueCommand_completes hE)
  | switchClockRate base target =>
    have hrates : base ≠ 0 ∨ target ≠ 0 := by
      rw [← not_and_or]
      rintro ⟨rfl, rfl⟩
      exact ho rfl
    exact hany (switchClockRate_completes hE hrates)
  | readWrite direction buffer sector count device => exact readWrite_ends hE (.inl trivial)
  | ioctl device request => exact ioctl_ends hE

/-- On a controller that answers every request, every operation returns, except where no field can
be computed for the clock. -/
theorem Operation.returns_iff {σ : Type} {machine : Device port σ}
    (hanswers : ∀ o s, (machine o s).isSome) (config : Config) (o : Operation) (d : Driver)
    (s : σ) : (((o.step config).run d).run machine s).isSome ↔ o ≠ .switchClockRate 0 0 := by
  constructor
  · rintro hreturns rfl
    cases hreturns
  · exact fun ho => Prog.Ensures.run_isSome (step_ends config ho d) hanswers s

end Peripherals.Sd
