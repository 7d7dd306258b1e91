import Peripherals.Proofs.Sd.Access

/-! The operations of the driver, one after the other. What every operation keeps, a whole session
keeps. -/

namespace Peripherals.Sd

/-- What the driver can be asked to do. -/
inductive Operation where
  | init
  | cardReset
  | ensureDataMode
  | issueCommand (command : Command) (argument timeout : UInt32)
  | switchClockRate (base target : UInt32)
  | readWrite (direction : Direction) (buffer : Buffer) (sector : UInt32) (count device : UInt16)
  | ioctl (device : UInt16) (request : IoctlRequest)
  deriving DecidableEq

namespace Operation

/-- What an operation answers. -/
abbrev Answer : Operation → Type
  | readWrite .. => Except BiosError Unit × Buffer
  | ioctl .. => Except BiosError IoctlResponse
  | _ => Except Error Unit

/-- The operation as a step of the driver. -/
def step (config : Config) : (o : Operation) → Step o.Answer
  | init => (Sd.init config).run
  | cardReset => (Sd.cardReset config).run
  | ensureDataMode => (Sd.ensureDataMode config).run
  | issueCommand command argument timeout => (Sd.issueCommand command argument timeout).run
  | switchClockRate base target => (Sd.switchClockRate base target).run
  | readWrite direction buffer sector count device =>
    Sd.readWrite config direction buffer sector count device
  | ioctl device request => Sd.ioctl config device request

/-- Whether the operation asks whether the medium has changed. -/
def asksForChange : Operation → Bool
  | ioctl device .mediaChange => device == 0
  | _ => false

end Operation

/-- The driver can be taken from one state to another by the operations of a list, with the requests
of a history. -/
inductive Session (config : Config) : Driver → List Operation → History → Driver → Prop
  | nil (d : Driver) : Session config d [] [] d
  | cons {d d1 d' : Driver} {o : Operation} {os : List Operation} {t1 t2 : History} {a : o.Answer} :
    Runs (o.step config) d t1 a d1 → Session config d1 os t2 d' →
      Session config d (o :: os) (t1 ++ t2) d'

/-- The driver can come to this state. -/
def Reachable (config : Config) (d : Driver) : Prop := ∃ os t, Session config {} os t d

theorem reachable_start (config : Config) : Reachable config {} := ⟨[], [], .nil {}⟩

theorem Session.snoc {config : Config} {d d1 d' : Driver} {o : Operation} {os : List Operation}
    {t1 t2 : History} {a : o.Answer} (h : Session config d os t1 d1)
    (hstep : Runs (o.step config) d1 t2 a d') : Session config d (os ++ [o]) (t1 ++ t2) d' := by
  induction h with
  | nil d =>
    have hone : Session config d [o] (t2 ++ []) d' := .cons hstep (.nil d')
    rw [List.append_nil] at hone
    exact hone
  | cons hfirst _ ih =>
    rw [List.append_assoc]
    exact .cons hfirst (ih hstep)

theorem Reachable.step {config : Config} {d d' : Driver} {o : Operation} {t : History}
    {a : o.Answer} (h : Reachable config d) (hstep : Runs (o.step config) d t a d') :
    Reachable config d' := by
  obtain ⟨os, t0, hs⟩ := h
  exact ⟨os ++ [o], t0 ++ t, hs.snoc hstep⟩

variable {R : Driver → History → Driver → Prop} {α : Type}

theorem KeepsAccess.stepSectors {config : Config} (h : KeepsAccess config R)
    (hsectors : KeepsSectors config R) {o : Operation}
    (hissue : ∀ command argument timeout, o = .issueCommand command argument timeout →
      Keeps R (Sd.issueCommand command argument timeout).run)
    (hallowed : o = .init → ∀ d, R d [] { d with switchFailed := false })
    (hasked : o.asksForChange = true → ∀ d, R d [] { d with mediaChanged := false }) :
    Keeps R (o.step config) := by
  cases o with
  | init => exact h.init (hallowed rfl)
  | cardReset => exact h.cardReset
  | ensureDataMode => exact h.ensureDataMode
  | issueCommand command argument timeout => exact hissue _ _ _ rfl
  | switchClockRate base target => exact h.switchClockRate base target
  | readWrite direction buffer sector count device =>
    exact h.readWrite hsectors direction buffer sector count device
  | ioctl device request =>
    refine h.ioctl fun hdevice hrequest => hasked ?_
    subst hdevice hrequest
    rfl

theorem KeepsAccess.step {config : Config} (h : KeepsAccess config R)
    (hdata : ∀ data, KeepsData R data) {o : Operation}
    (hissue : ∀ command argument timeout, o = .issueCommand command argument timeout →
      Keeps R (Sd.issueCommand command argument timeout).run)
    (hallowed : o = .init → ∀ d, R d [] { d with switchFailed := false })
    (hasked : o.asksForChange = true → ∀ d, R d [] { d with mediaChanged := false }) :
    Keeps R (o.step config) :=
  h.stepSectors (keepsSectors_of_data hdata) hissue hallowed hasked

theorem KeepsReset.step (h : KeepsReset R) (hdata : ∀ data, KeepsData R data) (config : Config)
    {o : Operation} (hallowed : o = .init → ∀ d, R d [] { d with switchFailed := false })
    (hasked : o.asksForChange = true → ∀ d, R d [] { d with mediaChanged := false }) :
    Keeps R (o.step config) :=
  (h.access config).step hdata (fun _ _ _ _ => h.issueCommand _ _ _) hallowed hasked

theorem Session.keeps {config : Config} {d d' : Driver} {os : List Operation} {t : History}
    (h : Composes R) (hstep : ∀ o ∈ os, Keeps R (o.step config)) (hs : Session config d os t d') :
    R d t d' := by
  induction hs with
  | nil d => exact h.refl d
  | cons hx _ ih =>
    rw [List.forall_mem_cons] at hstep
    exact h.trans (hstep.1 hx) (ih hstep.2)

/-! The size of a block changes only while the configuration register of a card is read. -/

theorem readScr_blockSize {d d' : Driver} {t : History} {r : Except Error Unit}
    (h : Acts readScr d t r d') : d'.blockSize = sectorSize := by
  obtain ⟨t1, t2, result, d1, -, -, h1⟩ := acts_observe_bind.mp (acts_modify_bind.mp h)
  have h2 := acts_modify_bind.mp h1
  cases result with
  | error e =>
    obtain ⟨t3, -, h3⟩ := acts_report_bind.mp h2
    obtain ⟨-, -, rfl⟩ := acts_throw.mp h3
    rfl
  | ok =>
    obtain ⟨-, -, rfl⟩ := acts_report.mp (acts_modify_bind.mp (acts_get_bind.mp h2))
    rfl

/-- The size of a block, once that of a sector, stays so. -/
def SectorSized (d : Driver) (_ : History) (d' : Driver) : Prop :=
  d.blockSize = sectorSize → d'.blockSize = sectorSize

theorem keepsIssue_sectorSized : KeepsIssue SectorSized where
  refl _ h := h
  trans h1 h2 h := h2 (h1 h)
  quiet _ _ _ h := h
  last _ _ h := h
  command _ _ h := h
  received _ _ h := h
  noticed _ h := h
  acknowledged _ _ _ h := h
  forgotten _ _ h := h

theorem keepsReset_sectorSized : KeepsReset SectorSized where
  toKeepsCard := keepsIssue_sectorSized.keepsCard fun _ _ _ h => h
  addressed _ _ _ h := h
  dropped _ h := h
  switched _ h := h
  cleared _ h := h
  fresh _ _ _ := rfl
  scr _ _ _ _ hx _ := readScr_blockSize hx

/-- Between two operations the size of a block is that of a sector. -/
theorem Reachable.blockSize {config : Config} {d : Driver} (h : Reachable config d) :
    d.blockSize = sectorSize := by
  obtain ⟨os, t, hs⟩ := h
  have hkeeps (o : Operation) (_ : o ∈ os) :=
    keepsReset_sectorSized.step (keepsIssue_sectorSized.keepsData fun _ _ h => h) config (o := o)
      (fun _ _ h => h) fun _ _ h => h
  exact hs.keeps keepsReset_sectorSized.toComposes hkeeps rfl

/-! A machine on which the operations can be run. -/

/-- A controller with a card that answers every command at once, save those that it does not know.
The interrupt status has the bits `stuck` at all times. The state is the word of the last command.
-/
def promptCard (unknown : List Command) (stuck : UInt32 := 0) : Device port UInt32
  | .write .command v, _ => some ((), v)
  | .write _ _, w | .delay _, w | .note _, w => some ((), w)
  | .read .interrupt, w =>
    some (stuck ||| if unknown.any (·.word.bits == w) then
        Interrupt.error ||| Interrupt.commandTimeout
      else Interrupt.commandDone ||| Interrupt.dataDone ||| bufferBits, w)
  | .read .response0, w =>
    some (if w == Command.sendIfCond.word.bits then interfaceCheck else 0x80000900, w)
  | .read .control1, w => some (Control1.clockStable, w)
  | .read .status, w => some (Status.cardInserted, w)
  | .read .data, w => some (0x04030201, w)
  | .read _, w => some (0, w)
  | .clockRate _, w => some (.ok 250000000, w)
  | .setPower _ _, w => some (.ok Mailbox.PowerStatus.on, w)

/-- What a step does on a machine is one of the ways in which it can end. -/
theorem exists_runs {σ : Type} {device : Device port σ} {s : σ} {x : Step α} {d : Driver}
    {P : History → α → Driver → Bool}
    (h : ((x.run d).run device s).any (fun r => P ((x.run d).requests device s) r.1.1 r.1.2) =
      true) :
    ∃ t a d', Runs x d t a d' ∧ P t a d' = true := by
  cases hrun : (x.run d).run device s with
  | none => simp [hrun] at h
  | some r =>
    rw [hrun] at h
    exact ⟨_, r.1.1, r.1.2, Prog.ends_of_run hrun, h⟩

/-- So is what one step does after another, on a machine of its own. -/
theorem exists_runs_after {σ τ β : Type} (device : Device port σ) (s : σ) (later : Device port τ)
    (s' : τ) {x : Step α} {y : Step β} {d : Driver} {P : Driver → History → β → Bool}
    (h : ((x.run d).run device s).any (fun r => ((y.run r.1.2).run later s').any fun r' =>
      P r.1.2 ((y.run r.1.2).requests later s') r'.1.1) = true) :
    ∃ t1 a d1 t2 b d', Runs x d t1 a d1 ∧ Runs y d1 t2 b d' ∧ P d1 t2 b = true := by
  obtain ⟨t1, a, d1, hx, hlater⟩ := exists_runs (P := fun _ _ d1 =>
    ((y.run d1).run later s').any fun r => P d1 ((y.run d1).requests later s') r.1.1) h
  obtain ⟨t2, b, d', hy, hP⟩ := exists_runs (P := fun t b _ => P d1 t b) hlater
  exact ⟨t1, a, d1, t2, b, d', hx, hy, hP⟩

/-- The error with which a step ended, if it failed. -/
def failure? : Except Error α → Option Error
  | .error e => some e
  | .ok _ => none

theorem exists_fails {σ : Type} {device : Device port σ} {s : σ} {x : Action α} {d : Driver}
    {e : Error} {P : Driver → Bool}
    (h : ((x.run.run d).run device s).any (fun r => failure? r.1.1 == some e && P r.1.2) = true) :
    ∃ t d', Acts x d t (.error e) d' ∧ P d' = true := by
  obtain ⟨t, r, d', hrun, hfails⟩ := exists_runs (P := fun _ r d' => failure? r == some e && P d') h
  obtain ⟨hfailure, hP⟩ := Bool.and_eq_true_iff.mp hfails
  cases r with
  | ok a => nomatch hfailure
  | error e' =>
    have he : e' = e := by simpa [failure?] using hfailure
    exact ⟨t, d', he ▸ hrun, hP⟩

end Peripherals.Sd
