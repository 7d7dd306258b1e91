import Peripherals.Proofs.Sd.Enumeration
import Peripherals.Sd.Block

/-! What is kept by everything that leads to the data of a card: the attempts at a reset, the gate
in front of an access, the data commands and the control requests. None of it looks into a reset. -/

namespace Peripherals.Sd

open RegisterBlock (read write)

variable {R : Driver → History → Driver → Prop} {α : Type} {config : Config}

namespace Keeps

theorem getStep {f : Driver → Step α} (hf : ∀ d, Keeps R (f d)) :
    Keeps R (MonadState.get >>= f) :=
  fun d _ _ _ hx => hf d (runs_get_bind.mp hx)

theorem iteStep {c : Prop} [Decidable c] {x y : Step α} (hx : Keeps R x) (hy : Keeps R y) :
    Keeps R (if c then x else y) := by
  split
  · exact hx
  · exact hy

end Keeps

theorem keeps_modify {f : Driver → Driver} (hf : ∀ d, R d [] (f d)) :
    Keeps R (modify f : Step Unit) := by
  intro d t u d' hx
  obtain ⟨rfl, rfl⟩ := runs_modify.mp hx
  exact hf d

theorem KeepsQuiet.say (h : KeepsQuiet R) {n : Note} (hn : Quiet (noteOf n)) :
    Keeps R (Sd.say n) := by
  intro d t u d' hx
  obtain ⟨rfl, rfl⟩ := runs_say.mp hx
  exact h.quiet _ hn

/-- The commands of the gate: one asks a card for its status, the others lead it to the transfer
state. -/
def gateCommands : List Command := [.sendStatus, .selectCard, .stopTransmission]

/-- A relation that a reset keeps, and everything else that brings a card to the transfer state. -/
structure KeepsAccess (config : Config) (R : Driver → History → Driver → Prop) : Prop
    extends KeepsQuiet R where
  reset : Keeps R (Sd.resetOnce config).run
  gate {command : Command} (hgate : command ∈ gateCommands) (argument timeout : UInt32) :
    Keeps R (Sd.issueCommand command argument timeout).run
  dropped (d : Driver) : R d [] { d with card := { d.card with rca := 0 } }
  switched (d : Driver) : R d [] { d with switchFailed := true }
  version (d : Driver) (v : UInt32) : R d [] { d with card := { d.card with hostVersion := v } }

theorem KeepsReset.access (h : KeepsReset R) (config : Config) : KeepsAccess config R where
  toKeepsQuiet := h.toKeepsQuiet
  reset := h.resetOnce config
  gate _ := h.issueCommand _
  dropped := h.dropped
  switched := h.switched
  version d _ := h.card d rfl

/-- Every data command with the data phase `data` keeps the relation. -/
def KeepsData (R : Driver → History → Driver → Prop) (data : Transfer) : Prop :=
  ∀ isWrite blocks argument timeout,
    Keeps R (issue (dataCommand isWrite blocks) argument timeout data).run

/-- What the sending of a word keeps, and all else in the course of a command, the data commands
keep. -/
theorem KeepsIssue.keepsData (h : KeepsIssue R) (hsent : ∀ d v, R d [writeOf .data v] d)
    (data : Transfer) : KeepsData R data :=
  fun _ _ => h.issue (fun _ => hsent) _

/-- Every data command of a request that is not refused keeps the relation. -/
def KeepsSectors (config : Config) (R : Driver → History → Driver → Prop) : Prop :=
  ∀ {direction : Direction}, ¬(direction = .write ∧ config.writeProtect) →
    ∀ buffer words blocks argument timeout,
      Keeps R (issue (dataCommand (direction.transfer buffer words).isSend blocks) argument timeout
        (direction.transfer buffer words)).run

theorem keepsSectors_of_data (h : ∀ data, KeepsData R data) : KeepsSectors config R :=
  fun _ _ _ => h _ _

namespace KeepsAccess

theorem forgetAddress (h : KeepsAccess config R) : Keeps R Sd.forgetAddress.run :=
  .modify h.dropped

theorem resetAttempts (h : KeepsAccess config R) (attempts : Nat) :
    Keeps R (Sd.resetAttempts config attempts).run := by
  induction attempts with
  | zero => exact h.throw _
  | succ attempts ih =>
    refine h.bind h.reset fun failure => ?_
    cases failure with
    | none => exact h.pure ()
    | some step =>
      refine h.bind (h.report trivial) fun _ => h.bind (.modify h.switched) fun _ => ?_
      exact h.bind h.powerOff fun _ => ih

theorem cardReset (h : KeepsAccess config R) : Keeps R (Sd.cardReset config).run :=
  h.resetAttempts 2

theorem init (h : KeepsAccess config R) (hallowed : ∀ d, R d [] { d with switchFailed := false }) :
    Keeps R (Sd.init config).run := by
  refine h.bind (.modify hallowed) fun _ => h.bind h.powerOn fun _ => ?_
  refine h.bind (h.read fun _ => trivial) fun version => ?_
  refine h.bind (.modify fun d => h.version d _) fun _ => ?_
  refine h.bind (h.report trivial) fun _ => .ite ?_ h.cardReset
  exact h.bind (h.report trivial) fun _ => h.cardReset

theorem queryStatus (h : KeepsAccess config R) : Keeps R Sd.queryStatus.run := by
  refine .get fun d => h.bind (.observe (h.gate (by simp [gateCommands]) _ _)) fun result => ?_
  cases result with
  | error =>
    exact h.bind (h.report trivial) fun _ => h.bind h.forgetAddress fun _ => h.throw _
  | ok => exact .get fun d => .ite (h.bind (h.report trivial) fun _ => h.pure _) (h.pure _)

theorem recover (h : KeepsAccess config R) {command : Command} (hgate : command ∈ gateCommands)
    (argument : UInt32) (note : Note) (hnote : Quiet (noteOf note)) (error : Error) :
    Keeps R (Sd.recover command argument note error).run := by
  refine h.bind (.observe (h.gate hgate _ _)) fun result => ?_
  cases result with
  | ok => exact h.pure ()
  | error =>
    exact h.bind (h.report hnote) fun _ => h.bind h.forgetAddress fun _ => h.throw _

theorem leave (h : KeepsAccess config R) (state : CardState) :
    Keeps R (Sd.leave config state).run := by
  cases state with
  | standby => exact .get fun d => h.recover (by simp [gateCommands]) _ .selectFailed trivial _
  | data =>
    refine h.bind (h.recover (by simp [gateCommands]) _ .stopFailed trivial _) fun _ => ?_
    exact h.bind (.observe (h.resetLine _)) fun _ => h.pure ()
  | _ => exact h.cardReset

theorem confirmTransfer (h : KeepsAccess config R) : Keeps R Sd.confirmTransfer.run := by
  refine h.bind h.queryStatus fun status => .ite (h.pure ()) ?_
  exact h.bind (h.report trivial) fun _ => h.bind h.forgetAddress fun _ => h.throw _

theorem enterTransfer (h : KeepsAccess config R) : Keeps R (Sd.enterTransfer config).run := by
  refine h.bind h.queryStatus fun status => .ite (h.pure ()) ?_
  exact h.bind (h.leave _) fun _ => h.confirmTransfer

theorem ensureDataMode (h : KeepsAccess config R) : Keeps R (Sd.ensureDataMode config).run := by
  have henter := h.enterTransfer
  exact .get fun d => .ite (h.bind h.cardReset fun _ => henter) henter

theorem attemptData (h : KeepsAccess config R) {data : Transfer} {command : Command}
    (hissue : ∀ argument timeout, Keeps R (issue command argument timeout data).run)
    (address timeout : UInt32) (attempts left made : Nat) (arrived : Array UInt32) :
    Keeps R (Sd.attemptData command address timeout data attempts left made arrived) := by
  induction left generalizing made arrived with
  | zero => exact h.pureStep _
  | succ left ih =>
    refine h.bindStep (hissue address timeout) fun result => .getStep fun d => ?_
    cases result with
    | ok => exact h.pureStep _
    | error => exact h.bindStep (h.say trivial) fun _ => ih (made + 1) _

theorem transferBlocks (h : KeepsAccess config R) {data : Transfer}
    (hissue : ∀ blocks argument timeout,
      Keeps R (issue (dataCommand data.isSend blocks) argument timeout data).run)
    (block : UInt32) : Keeps R (Sd.transferBlocks config data block) := by
  refine .getStep fun d => ?_
  cases blockAddress d.card.highCapacity block with
  | none => exact h.pureStep _
  | some address =>
    refine .iteStep (h.pureStep _) ?_
    refine h.bindStep (h.attemptData (hissue _) _ _ _ _ _ _) fun result => ?_
    refine .iteStep (h.pureStep _) (h.bindStep (h.say trivial) fun _ => ?_)
    exact h.bindStep (keeps_modify h.dropped) fun _ => h.pureStep _

theorem accessBlocks (h : KeepsAccess config R) {data : Transfer}
    (hissue : ∀ blocks argument timeout,
      Keeps R (issue (dataCommand data.isSend blocks) argument timeout data).run)
    (block : UInt32) : Keeps R (Sd.accessBlocks config data block) := by
  refine h.bindStep h.ensureDataMode fun result => ?_
  cases result with
  | error => exact h.pureStep _
  | ok => exact h.transferBlocks hissue block

theorem readWrite (h : KeepsAccess config R) (hsectors : KeepsSectors config R)
    (direction : Direction) (buffer : Buffer) (sector : UInt32) (count device : UInt16) :
    Keeps R (Sd.readWrite config direction buffer sector count device) := by
  refine .iteStep (h.pureStep _) (.iteStep (h.pureStep _) ?_)
  by_cases hrefused : direction = .write ∧ config.writeProtect
  · rw [if_pos hrefused]
    exact h.bindStep (h.say trivial) fun _ => h.pureStep _
  · rw [if_neg hrefused]
    cases buffer.unusable? (4 * (count.toNat * sectorWords)) with
    | some e => exact h.bindStep (h.say trivial) fun _ => h.pureStep _
    | none =>
      refine h.bindStep (h.accessBlocks (hsectors hrefused _ _) sector) fun result => ?_
      obtain ⟨result, arrived⟩ := result
      cases result with
      | ok => exact h.pureStep _
      | error => exact h.bindStep (h.say trivial) fun _ => h.pureStep _

end KeepsAccess

/-- The answer to whether the medium has changed forgets that it has. No other answer changes the
driver, and none other is given while the card is known to be removed. -/
theorem answerRequest_runs {request : IoctlRequest} {a : Except BiosError IoctlResponse}
    {d d' : Driver} {t : History} (h : Runs (answerRequest request) d t a d') :
    (∀ e ∈ t, Quiet e) ∧
      (request ≠ .mediaChange ∧ d' = d ∧ (∀ state, a ≠ .ok (.mediaChange state)) ∧
          (d.cardRemoved = true → a = .error .mediaChanged) ∨
        request = .mediaChange ∧ d' = { d with mediaChanged := false } ∧
          a = .ok (.mediaChange
            (if d.cardRemoved || d.mediaChanged then .changed else .unchanged))) := by
  have h1 := runs_get_bind.mp h
  by_cases hgone : d.cardRemoved = true
  · rw [if_pos hgone] at h1
    cases request with
    | mediaChange =>
      have h2 := runs_set_bind.mp h1
      obtain ⟨rfl, rfl, rfl⟩ := runs_pure.mp h2
      exact ⟨by simp, .inr ⟨rfl, rfl, by simp [hgone]⟩⟩
    | _ =>
      obtain ⟨rfl, rfl, rfl⟩ := runs_pure.mp h1
      exact ⟨by simp, .inl ⟨by simp, rfl, by simp, fun _ => rfl⟩⟩
  · rw [if_neg hgone] at h1
    cases request with
    | mediaChange =>
      have h2 := runs_set_bind.mp h1
      obtain ⟨rfl, rfl, rfl⟩ := runs_pure.mp h2
      exact ⟨by simp, .inr ⟨rfl, rfl, by simp [hgone]⟩⟩
    | other code =>
      obtain ⟨t1, rfl, h2⟩ := runs_say_bind.mp h1
      obtain ⟨rfl, rfl, rfl⟩ := runs_pure.mp h2
      exact ⟨by simp [Quiet], .inl ⟨by simp, rfl, by simp, fun h => absurd h hgone⟩⟩
    | diskName =>
      revert h1
      cases diskName? d.card.cid with
      | none | some =>
        intro h1
        obtain ⟨rfl, rfl, rfl⟩ := runs_pure.mp h1
        exact ⟨by simp, .inl ⟨by simp, rfl, by simp, fun h => absurd h hgone⟩⟩
    | diskInfo =>
      obtain ⟨rfl, rfl, rfl⟩ := runs_pure.mp h1
      exact ⟨by simp, .inl ⟨by simp, rfl, by simp, fun h => absurd h hgone⟩⟩

/-- A control request on the card brings it to the transfer state, as far as that goes, and is then
answered. -/
theorem ioctl_runs {config : Config} {request : IoctlRequest}
    {a : Except BiosError IoctlResponse} {d d' : Driver} {t : History}
    (h : Runs (ioctl config 0 request) d t a d') :
    ∃ t1 t2 r d1, t = t1 ++ t2 ∧ Acts (ensureDataMode config) d t1 r d1 ∧ (∀ e ∈ t2, Quiet e) ∧
      (request ≠ .mediaChange ∧ d' = d1 ∧ (∀ state, a ≠ .ok (.mediaChange state)) ∧
          (d1.cardRemoved = true → a = .error .mediaChanged) ∨
        request = .mediaChange ∧ d' = { d1 with mediaChanged := false } ∧
          a = .ok (.mediaChange
            (if d1.cardRemoved || d1.mediaChanged then .changed else .unchanged))) := by
  rw [ioctl, if_neg (by simp)] at h
  obtain ⟨t1, t2, r, d1, rfl, hgate, h1⟩ := runs_bind.mp h
  cases r with
  | ok =>
    obtain ⟨hquiet, hanswer⟩ := answerRequest_runs h1
    exact ⟨t1, t2, _, d1, rfl, hgate, hquiet, hanswer⟩
  | error e =>
    obtain ⟨t3, rfl, h2⟩ := runs_say_bind.mp h1
    obtain ⟨hquiet, hanswer⟩ := answerRequest_runs h2
    refine ⟨t1, _, _, _, rfl, hgate, ?_, hanswer⟩
    rw [List.forall_mem_cons]
    exact ⟨trivial, hquiet⟩

namespace KeepsAccess

theorem ioctl (h : KeepsAccess config R) {device : UInt16} {request : IoctlRequest}
    (hasked : device = 0 → request = .mediaChange → ∀ d, R d [] { d with mediaChanged := false }) :
    Keeps R (Sd.ioctl config device request) := by
  by_cases hdevice : device = 0
  case neg =>
    rw [Sd.ioctl, if_pos hdevice]
    exact h.pureStep _
  subst hdevice
  intro d t a d' hx
  obtain ⟨t1, t2, r, d1, rfl, hgate, hquiet, hanswer⟩ := ioctl_runs hx
  refine h.trans (h.ensureDataMode.acts hgate) ?_
  rcases hanswer with ⟨-, rfl, -⟩ | ⟨rfl, rfl, -⟩
  · exact h.quietAll _ hquiet
  · rw [← t2.append_nil]
    exact h.trans (h.quietAll _ hquiet) (hasked rfl rfl d1)

end KeepsAccess

theorem KeepsReset.ensureDataMode (h : KeepsReset R) (config : Config) :
    Keeps R (Sd.ensureDataMode config).run :=
  (h.access config).ensureDataMode

end Peripherals.Sd
