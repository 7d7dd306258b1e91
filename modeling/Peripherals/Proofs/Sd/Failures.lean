import Peripherals.Proofs.Sd.Enumeration

/-! With which errors the steps of an enumeration fail, and what that says of how far it came. -/

namespace Peripherals.Sd

/-- How far an enumeration came. -/
inductive Stage where
  /-- The controller was reset, and no command was started yet. -/
  | controller
  /-- The card had not chosen an address yet. -/
  | negotiation
  /-- The card had chosen its address. -/
  | selection
  deriving DecidableEq

/-- How far an enumeration came that failed with this error. -/
def Error.stage : Error → Stage
  | .controllerResetTimeout | .noCard | .clockStableTimeout => .controller
  | .select | .selectState _ | .blockLength | .readScr => .selection
  | _ => .negotiation

/-- The step fails only with errors of this stage, and not for the voltage, which is an error of all
attempts together. -/
abbrev FailsAt {α : Type} (stage : Stage) (x : Action α) : Prop :=
  FailsOnly (fun e => e.stage = stage ∧ e ≠ .voltageSwitch) x

variable {α : Type} {E : Error → Prop}

theorem reportAll_succeeds {notes : List Note} : Succeeds (notes.forM report) := by
  induction notes with
  | nil => exact .pure
  | cons n notes ih => exact .bind .perform fun _ => ih

theorem orFail_failsOnly {x : Action α} {error : Error} {notes : List Note}
    (he : E error) : FailsOnly E (orFail x error notes) := by
  refine .bind .observe fun result => ?_
  cases result with
  | ok a => exact .pure
  | error => exact .bind (.never reportAll_succeeds) fun _ => .throw he

theorem resetController_fails : FailsAt .controller resetController := by
  refine .bind .perform fun _ => .bind .perform fun _ => ?_
  refine .bind (.never waitRegister_succeeds) fun result => ?_
  cases result with
  | error => exact .bind .perform fun _ => .throw ⟨rfl, nofun⟩
  | ok =>
    refine .bind (.never waitRegister_succeeds) fun _ => .bind .perform fun status => ?_
    exact .ite (.bind .perform fun _ => .throw ⟨rfl, nofun⟩) .pure

theorem baseClock_succeeds {config : Config} : Succeeds (baseClock config) := by
  refine .bind .perform fun answer => ?_
  cases answer with
  | ok => exact .ite (.bind .perform fun _ => .pure) .pure
  | error => exact .bind .perform fun _ => .pure

theorem startClock_fails {base : UInt32} : FailsAt .controller (startClock base) := by
  refine .bind .perform fun _ => .bind .perform fun _ => ?_
  refine .bind (.never waitRegister_succeeds) fun result => ?_
  cases result with
  | error => exact .bind .perform fun _ => .throw ⟨rfl, nofun⟩
  | ok =>
    refine .bind .perform fun _ => .bind (.bind .perform fun _ => .perform) fun _ => .perform

theorem prepareInterrupts_succeeds {config : Config} : Succeeds (prepareInterrupts config) :=
  .bind .perform fun _ => .bind .perform fun _ => .bind .perform fun _ => .perform

theorem resetLine_fails {reset : UInt32} (hstuck : E .lineResetTimeout) :
    FailsOnly E (resetLine reset) := by
  refine .bind (.bind .perform fun _ => .perform) fun _ => ?_
  refine .bind (.never waitRegister_succeeds) fun result => ?_
  cases result with
  | ok => exact .pure
  | error => exact .bind .perform fun _ => .throw hstuck

theorem checkInterfaceCondition_fails : FailsAt .negotiation checkInterfaceCondition := by
  refine .bind .observe fun result => ?_
  cases result with
  | ok => exact .get fun d => .ite .pure (.bind .perform fun _ => .throw ⟨rfl, nofun⟩)
  | error e =>
    refine .get fun d => .ite (.bind .perform fun _ => .pure) (.ite ?_ ?_)
    · refine .bind .perform fun _ => .bind (resetLine_fails ⟨rfl, nofun⟩) fun _ => ?_
      exact .bind .perform fun _ => .pure
    · exact .bind .perform fun _ => .throw ⟨rfl, nofun⟩

theorem probeSdio_fails (hstuck : E .lineResetTimeout) (hsdio : E .sdioCard) :
    FailsOnly E probeSdio := by
  refine .bind .observe fun result => .get fun d => .ite .pure (.ite ?_ ?_)
  · exact .bind (resetLine_fails hstuck) fun _ => .perform
  · exact .bind .perform fun _ => .throw hsdio

theorem pollOpCond_fails {config : Config} {argument : UInt32} {want1v8 : Bool} {polls : Nat}
    (hasked : E .opCond) (hbusy : E .opCondTimeout) :
    FailsOnly E (pollOpCond config argument want1v8 polls) := by
  induction polls with
  | zero => exact .bind .perform fun _ => .throw hbusy
  | succ polls ih =>
    refine .bind (orFail_failsOnly hasked) fun _ => .get fun d => .ite ?_ ?_
    · exact .bind .modify fun _ => .perform
    · exact .bind .perform fun _ => ih

theorem negotiateOpCond_fails {config : Config} {answered : Bool} (hinquiry : E .opCondInquiry)
    (hasked : E .opCond) (hbusy : E .opCondTimeout) :
    FailsOnly E (negotiateOpCond config answered) :=
  .bind (orFail_failsOnly hinquiry) fun _ => .get fun _ => pollOpCond_fails hasked hbusy

theorem switchClockRate_fails {base target : UInt32} (hinhibited : E .inhibitTimeout) :
    FailsOnly E (switchClockRate base target) := by
  refine .bind .orFault fun field => .bind (.never waitRegister_succeeds) fun result => ?_
  cases result with
  | error => exact .throw hinhibited
  | ok =>
    refine .bind .perform fun _ => .bind .perform fun _ => .bind .perform fun _ => ?_
    refine .bind .perform fun _ => .bind .perform fun _ => .bind .perform fun _ => ?_
    exact .bind .perform fun _ => .perform

theorem dataLevel_succeeds : Succeeds dataLevel := .bind .perform fun _ => .pure

theorem switchTo1v8_succeeds : Succeeds switchTo1v8 := by
  refine .bind .observe fun result => ?_
  cases result with
  | error => exact .pure
  | ok =>
    refine .bind (.bind .perform fun _ => .perform) fun _ => ?_
    refine .bind dataLevel_succeeds fun _ => .ite .pure ?_
    refine .bind (.bind .perform fun _ => .perform) fun _ => ?_
    refine .bind .perform fun _ => .bind .perform fun _ => .ite .pure ?_
    refine .bind (.bind .perform fun _ => .perform) fun _ => .bind .perform fun _ => ?_
    exact .bind dataLevel_succeeds fun _ => .pure

theorem identify_fails (hunknown : E .identify) (hunnamed : E .relativeAddress)
    (hunusable : ∀ raw, E (.addressResponse raw)) : FailsOnly E identify := by
  refine .bind (orFail_failsOnly hunknown) fun _ => .get fun d => .bind .modify fun _ => ?_
  refine .bind (orFail_failsOnly hunnamed) fun _ => .get fun d => .ite .modify ?_
  exact .bind .perform fun _ => .throw (hunusable _)

theorem select_fails : FailsAt .selection select := by
  refine .get fun d => .bind (orFail_failsOnly ⟨rfl, nofun⟩) fun _ => .get fun d => .ite .pure ?_
  exact .bind .perform fun _ => .throw ⟨rfl, nofun⟩

theorem setBlockSize_fails : FailsAt .selection setBlockSize := by
  refine .get fun d => .ite ?_ (.bind .perform fun _ => .perform)
  exact .bind (orFail_failsOnly ⟨rfl, nofun⟩) fun _ => .bind .perform fun _ => .perform

theorem readScr_fails : FailsAt .selection readScr := by
  refine .bind .modify fun _ => .bind .observe fun result => .bind .modify fun _ => ?_
  cases result with
  | error => exact .bind .perform fun _ => .throw ⟨rfl, nofun⟩
  | ok => exact .get fun d => .bind .modify fun _ => .perform

theorem switchBusWidth_succeeds : Succeeds switchBusWidth := by
  refine .bind .perform fun _ => .bind .perform fun _ => .bind .observe fun result => ?_
  cases result with
  | ok =>
    refine .bind (.bind .perform fun _ => .perform) fun _ => ?_
    exact .bind .perform fun _ => .perform
  | error => exact .bind .perform fun _ => .perform

theorem reportVoltage_succeeds : Succeeds reportVoltage := .get fun _ => .ite .perform .pure

/-! The three parts of a reset. -/

theorem prepareController_fails {config : Config} :
    FailsAt .controller (prepareController config) := by
  refine .bind resetController_fails fun _ => .bind .perform fun _ => ?_
  refine .bind (.never baseClock_succeeds) fun base => .bind startClock_fails fun _ => ?_
  exact .bind (.never prepareInterrupts_succeeds) fun _ => .pure

theorem negotiate_fails {config : Config} {base : UInt32} :
    FailsAt .negotiation (negotiate config base) := by
  refine .bind (orFail_failsOnly ⟨rfl, nofun⟩) fun _ => ?_
  refine .bind checkInterfaceCondition_fails fun _ => ?_
  refine .bind (probeSdio_fails ⟨rfl, nofun⟩ ⟨rfl, nofun⟩) fun _ => ?_
  refine .bind (negotiateOpCond_fails ⟨rfl, nofun⟩ ⟨rfl, nofun⟩ ⟨rfl, nofun⟩) fun _ => ?_
  refine .bind (switchClockRate_fails ⟨rfl, nofun⟩) fun _ => .bind .perform fun _ => ?_
  refine .get fun d => ?_
  exact .ite (.never switchTo1v8_succeeds) .pure

theorem prepareCard_fails {config : Config} : FailsAt .selection (prepareCard config) := by
  refine .bind select_fails fun _ => .bind setBlockSize_fails fun _ => ?_
  refine .bind readScr_fails fun _ => .bind (.get fun d => ?_) fun _ => .get fun d => ?_
  · exact .ite (.never switchBusWidth_succeeds) .pure
  · exact .bind .perform fun _ => .perform

theorem finishReset_fails {config : Config} {failure : Option SwitchFailure}
    (hunknown : E .identify) (hunnamed : E .relativeAddress)
    (hunusable : ∀ raw, E (.addressResponse raw)) (hlater : ∀ e, e.stage = .selection → E e) :
    FailsOnly E (finishReset config failure) := by
  cases failure with
  | some step => exact .pure
  | none =>
    refine .bind (.never reportVoltage_succeeds) fun _ => ?_
    refine .bind (.bind ?_ fun _ => ?_) fun _ => .pure
    · exact identify_fails hunknown hunnamed hunusable
    · exact prepareCard_fails.mono fun e h => hlater e h.1

theorem resetOnce_fails {config : Config} :
    FailsOnly (fun e => e ≠ .voltageSwitch) (resetOnce config) := by
  refine .bind (prepareController_fails.mono fun _ h => h.2) fun base => .bind .modify fun _ => ?_
  refine .bind (negotiate_fails.mono fun _ h => h.2) fun failure => ?_
  refine finishReset_fails nofun nofun nofun ?_
  rintro _ hstage rfl
  nomatch hstage

end Peripherals.Sd
