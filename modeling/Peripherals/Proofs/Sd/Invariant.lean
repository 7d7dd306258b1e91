import Peripherals.Proofs.Sd.Address
import Peripherals.Proofs.Sd.Operation

/-! What holds of the driver between two operations, however they end: the size of a block is that
of a sector, a card that is known to be removed has no address, and a command that is recorded as a
success is recorded without an error. -/

namespace Peripherals.Sd

variable {config : Config} {command : Command} {argument timeout : UInt32} {data : Transfer}
  {d d' : Driver} {t : History} {α β : Type}

/-! The record of the last command. Only a failure writes error bits into it, and only the last step
of a command makes it a success. -/

section Outcome

/-- The record of a command that has neither failed nor succeeded. -/
structure Outcome.Open (o : Outcome) : Prop where
  success : o.success = false
  error : o.error = 0
  interrupt : o.interrupt = 0

/-- A success is recorded without an error. -/
def Outcome.Clean (o : Outcome) : Prop := o.success = true → o.error = 0 ∧ o.interrupt = 0

theorem Outcome.clean_of_failed {o : Outcome} (h : o.success = false) : o.Clean := by
  intro hsuccess
  rw [h] at hsuccess
  nomatch hsuccess

/-- An open command stays open through the step, or fails in it. -/
def StaysOpen (x : Action α) : Prop :=
  ∀ ⦃d t r d'⦄, Acts x d t r d' → d.last.Open →
    d'.last.success = false ∧ ∀ a, r = .ok a → d'.last.Open

namespace StaysOpen

theorem bind {x : Action α} {f : α → Action β} (hx : StaysOpen x) (hf : ∀ a, StaysOpen (f a)) :
    StaysOpen (x >>= f) := by
  intro d t r d' h hd
  rcases acts_bind.mp h with ⟨e, rfl, h1⟩ | ⟨t1, t2, a, d1, rfl, h1, h2⟩
  · exact ⟨(hx h1 hd).1, nofun⟩
  · exact hf a h2 ((hx h1 hd).2 a rfl)

theorem of_unchanged {x : Action α} (hx : Keeps (fun d _ d' => d' = d) x.run) : StaysOpen x := by
  intro d t r d' h hd
  have hsame : d' = d := hx.acts h
  subst hsame
  exact ⟨hd.success, fun _ _ => hd⟩

theorem ite {c : Prop} [Decidable c] {x y : Action α} (hx : StaysOpen x) (hy : StaysOpen y) :
    StaysOpen (if c then x else y) := by
  split
  · exact hx
  · exact hy

theorem modifyLast {f : Outcome → Outcome} (hf : ∀ o, o.Open → (f o).Open) :
    StaysOpen (Sd.modifyLast f) := by
  intro d t r d' h hd
  obtain ⟨-, -, rfl⟩ := acts_modify.mp h
  exact ⟨(hf _ hd).success, fun _ _ => hf _ hd⟩

theorem failAt {sample : UInt32} : StaysOpen (Sd.failAt command sample) := by
  intro d t r d' h hd
  obtain ⟨-, rfl, rfl⟩ := acts_throw.mp (acts_modify_bind.mp h)
  exact ⟨rfl, nofun⟩

end StaysOpen

theorem keepsPort_unchanged : KeepsPort fun d _ d' => d' = d where
  refl _ := rfl
  trans h1 h2 := h2.trans h1
  quiet _ _ _ := rfl
  received _ _ := rfl

theorem awaitCommand_staysOpen : StaysOpen (awaitCommand command timeout) := by
  refine .bind (.of_unchanged (keepsPort_unchanged.sampleStatus rfl timeout)) fun sample => ?_
  exact .ite .failAt (.of_unchanged (keepsPort_unchanged.pure ()))

theorem readResponse_staysOpen {word : CommandWord} : StaysOpen (readResponse word) := by
  have hread (r : Register) (hr : ∀ v, Quiet (readOf r v)) :
      StaysOpen (RegisterBlock.read r : Action UInt32) :=
    .of_unchanged (keepsPort_unchanged.read hr)
  have hrecord (response : Vector UInt32 4) :
      StaysOpen (modifyLast fun o => { o with response }) :=
    .modifyLast fun o ho => ⟨ho.success, ho.error, ho.interrupt⟩
  unfold readResponse
  cases word.response with
  | none => exact .of_unchanged (keepsPort_unchanged.pure ())
  | short | shortBusy => exact .bind (hread _ fun _ => trivial) fun _ => hrecord _
  | long =>
    refine .bind (hread _ fun _ => trivial) fun _ => .bind (hread _ fun _ => trivial) fun _ => ?_
    refine .bind (hread _ fun _ => trivial) fun _ => .bind (hread _ fun _ => trivial) fun _ => ?_
    exact hrecord _

theorem moveData_staysOpen {word : CommandWord} {blockWords blocks : Nat} :
    StaysOpen (moveData command word data blockWords blocks timeout) := by
  refine .ite (.bind (.of_unchanged ?_) fun phase => ?_)
    (.of_unchanged (keepsPort_unchanged.pure ()))
  · refine keepsPort_unchanged.moveBlocks (fun _ _ _ => rfl) _ ?_ _ _ _ _
    cases word.isRead <;> rfl
  · refine .bind (.modifyLast fun o ho => ⟨ho.success, ho.error, ho.interrupt⟩) fun _ => ?_
    cases phase.stoppedAt with
    | none => exact .of_unchanged (keepsPort_unchanged.pure ())
    | some sample => exact .failAt

theorem awaitTransfer_staysOpen {word : CommandWord} :
    StaysOpen (awaitTransfer command word timeout) := by
  refine .ite (.bind ?_ fun sample => .ite ?_ .failAt) (.of_unchanged (keepsPort_unchanged.pure ()))
  · exact .of_unchanged (keepsPort_unchanged.sampleStatus rfl timeout)
  · exact .of_unchanged (keepsPort_unchanged.write rfl)

/-- However the step ends for a command that is open, its record is clean. -/
def EndsClean (x : Action α) : Prop :=
  ∀ ⦃d t r d'⦄, Acts x d t r d' → d.last.Open → d'.last.Clean

theorem StaysOpen.endsClean {x : Action α} {f : α → Action β} (hx : StaysOpen x)
    (hf : ∀ a, EndsClean (f a)) : EndsClean (x >>= f) := by
  intro d t r d' h hd
  rcases acts_bind.mp h with ⟨e, -, h1⟩ | ⟨t1, t2, a, d1, -, h1, h2⟩
  · exact Outcome.clean_of_failed (hx h1 hd).1
  · exact hf a h2 ((hx h1 hd).2 a rfl)

theorem succeed_endsClean : EndsClean (modifyLast fun o => { o with success := true }) := by
  intro d t r d' h hd
  obtain ⟨-, -, rfl⟩ := acts_modify.mp h
  exact fun _ => ⟨hd.error, hd.interrupt⟩

theorem start_clean {word : CommandWord} {r : Except Error Unit}
    (h : Acts (start command word argument timeout data) d t r d') : d'.last.Clean := by
  obtain ⟨after, -, h1⟩ := start_opens h
  -- The record is opened anew, and stays open up to the step that makes it a success.
  have hopen : Outcome.Open { command := some command } := ⟨rfl, rfl, rfl⟩
  have hrest : EndsClean (do
      awaitCommand command timeout
      readResponse word
      moveData command word data d.blockWords (data.size / d.blockWords) timeout
      awaitTransfer command word timeout
      modifyLast fun o => { o with success := true }) :=
    awaitCommand_staysOpen.endsClean fun _ => readResponse_staysOpen.endsClean fun _ =>
      moveData_staysOpen.endsClean fun _ => awaitTransfer_staysOpen.endsClean fun _ =>
        succeed_endsClean
  exact hrest h1 hopen

theorem sweep_clean {r : Except Error Unit} (h : Acts sweep d t r d') (hd : d.last.Clean) :
    d'.last.Clean := by
  obtain ⟨-, sample, v, before, noted, served, after, d1, -, -, -, -, hn, hc⟩ := sweep_acts h
  have hd1 : d1.last = d.last := by
    obtain ⟨-, ⟨-, -, rfl⟩ | ⟨-, -, rfl⟩⟩ := noticeRemoval_acts hn
    · rfl
    · rfl
  obtain ⟨-, ⟨-, -, t1, t2, r1, -, -, hstart⟩ | ⟨-, -, rfl⟩⟩ := noticeCard_acts hc
  · exact start_clean hstart
  · rwa [hd1]

theorem announced_clean {r : Except Error Unit} (h : Acts (do
    announce command timeout
    startReported command argument timeout data) d t r d') (hd : d.last.Clean) :
    d'.last.Clean := by
  rcases acts_bind.mp h with ⟨e, -, ha⟩ | ⟨t1, t2, _, d1, rfl, -, h1⟩
  · have h2 := acts_get_bind.mp ha
    rw [acts_ite] at h2
    split at h2
    · exact start_clean h2
    · obtain ⟨-, -, rfl⟩ := acts_pure.mp h2
      exact hd
  · obtain ⟨t3, t4, -, hstart, -⟩ := startReported_acts h1
    exact start_clean hstart

theorem issue_clean {r : Except Error Unit}
    (h : Acts (issue command argument timeout data) d t r d') (hd : d.last.Clean) :
    d'.last.Clean := by
  by_cases hvalid : command.word.isReserved = false ∧ data.size / d.blockWords ≤ maxBlocks
  · obtain ⟨t1, t2, d1, -, hs, ⟨-, -, -, rfl⟩ | ⟨-, h1⟩⟩ := issue_acts hvalid.1 hvalid.2 h
    · exact Outcome.clean_of_failed rfl
    · exact announced_clean h1 (sweep_clean hs hd)
  · obtain ⟨-, ⟨-, rfl, -⟩ | ⟨-, -, rfl⟩ | ⟨-, -, rfl⟩⟩ :=
      refuseInvalid_acts (issue_refused hvalid h).1
    · exact hd
    · exact Outcome.clean_of_failed rfl
    · exact hd

/-- The step leaves a clean record clean. -/
def KeepsClean (d : Driver) (_ : History) (d' : Driver) : Prop := d.last.Clean → d'.last.Clean

theorem keepsCard_clean : KeepsCard KeepsClean where
  refl _ h := h
  trans h1 h2 h := h2 (h1 h)
  quiet _ _ _ h := h
  issue _ _ _ _ _ _ _ _ hx := issue_clean hx
  card _ _ _ h := h

theorem keepsReset_clean : KeepsReset KeepsClean where
  toKeepsCard := keepsCard_clean
  cleared _ h := h
  addressed _ _ _ h := h
  scr := keepsCard_clean.readScr fun _ _ h => h
  dropped _ h := h
  switched _ h := h
  fresh _ _ _ := Outcome.clean_of_failed rfl

end Outcome

/-- The step leaves a card without an address that is known to be removed. -/
def KeepsForgotten (d : Driver) (_ : History) (d' : Driver) : Prop := Forgotten d → Forgotten d'

theorem keepsCard_forgotten : KeepsCard KeepsForgotten where
  refl _ h := h
  trans h1 h2 h := h2 (h1 h)
  quiet _ _ _ h := h
  issue _ _ _ _ _ _ _ _ hx := issue_forgotten hx
  card _ _ hc h hremoved := hc.trans (h hremoved)

theorem keepsReset_forgotten : KeepsReset KeepsForgotten where
  toKeepsCard := keepsCard_forgotten
  cleared _ h := h
  addressed d rca hpresent _ hremoved := by
    rw [hpresent] at hremoved
    nomatch hremoved
  scr := keepsCard_forgotten.readScr fun _ _ h => h
  dropped _ _ _ := rfl
  switched _ h := h
  fresh _ _ _ _ := rfl

/-- What holds of the driver between two operations. -/
structure Sound (d : Driver) : Prop where
  blockSize : d.blockSize = 512
  forgotten : d.cardRemoved = true → d.card.rca = 0
  clean : d.last.success = true → d.last.error = 0 ∧ d.last.interrupt = 0

theorem sound_start : Sound {} := ⟨rfl, nofun, nofun⟩

/-- An operation leaves a sound driver sound, whatever it answers. -/
theorem step_sound {o : Operation} {a : o.Answer} (h : Runs (o.step config) d t a d')
    (hd : Sound d) : Sound d' where
  blockSize := keepsReset_sectorSized.step (keepsIssue_sectorSized.keepsData fun _ _ h => h) config
    (fun _ _ h => h) (fun _ _ h => h) h hd.blockSize
  forgotten := keepsReset_forgotten.step (fun _ _ _ _ _ _ _ _ _ hx => issue_forgotten hx) config
    (fun _ _ h => h) (fun _ _ h => h) h hd.forgotten
  clean := keepsReset_clean.step (fun _ _ _ _ _ _ _ _ _ hx => issue_clean hx) config
    (fun _ _ h => h) (fun _ _ h => h) h hd.clean

theorem Session.sound {os : List Operation} (hs : Session config d os t d') (hd : Sound d) :
    Sound d' := by
  have hkeeps : Composes fun d _ d' => Sound d → Sound d' :=
    { refl := fun _ h => h
      trans := fun h1 h2 h => h2 (h1 h) }
  exact hs.keeps hkeeps (fun o _ _ _ _ _ hx => step_sound hx) hd

/-- The driver is sound in every state that it can come to, and after every operation there, whether
it succeeds or fails. -/
theorem reachable_sound (h : Reachable config d) :
    Sound d ∧ ∀ (o : Operation) (t : History) (a : o.Answer) (d' : Driver),
      Runs (o.step config) d t a d' → Sound d' := by
  obtain ⟨os, t, hs⟩ := h
  have hd := hs.sound sound_start
  exact ⟨hd, fun o t a d' hx => step_sound hx hd⟩

/-- A card that is removed as it is enumerated, and one that is enumerated. -/
theorem reachable_sound_reset :
    (∃ d, Reachable {} d ∧ d.cardRemoved = true ∧ Sound d) ∧
    ∃ d, Reachable {} d ∧ d.last.success = true ∧ Sound d := by
  have hreach {t : History} {r : Except Error Unit} {d : Driver}
      (h : Runs (cardReset {}).run {} t r d) : Reachable {} d := by
    have hs := Session.cons (o := .cardReset) h (.nil d)
    exact ⟨_, _, hs⟩
  constructor
  · obtain ⟨t, r, d, hrun, hremoved⟩ : ∃ t r d, Runs (cardReset {}).run {} t r d ∧
        d.cardRemoved = true :=
      exists_runs (P := fun _ _ d => d.cardRemoved)
        (by decide +kernel : ((Prog.run (promptCard [] Interrupt.cardRemoval)
          ((cardReset {}).run.run {}) 0).any _) = true)
    exact ⟨d, hreach hrun, hremoved, (reachable_sound (hreach hrun)).1⟩
  · obtain ⟨t, r, d, hrun, hsuccess⟩ : ∃ t r d, Runs (cardReset {}).run {} t r d ∧
        d.last.success = true :=
      exists_runs (P := fun _ _ d => d.last.success)
        (by decide +kernel : ((Prog.run (promptCard [.ioSetOpCond])
          ((cardReset {}).run.run {}) 0).any _) = true)
    exact ⟨d, hreach hrun, hsuccess, (reachable_sound (hreach hrun)).1⟩

end Peripherals.Sd
