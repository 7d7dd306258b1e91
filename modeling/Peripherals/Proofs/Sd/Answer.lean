import Peripherals.Proofs.Sd.Issue

/-! What a command is answered: the short response that follows its word, and what of it the driver
records. -/

namespace Peripherals.Sd

open RegisterBlock (read write)

variable {command : Command} {argument timeout : UInt32} {data : Transfer} {d d' : Driver}
  {t : History}

/-- The exchange belongs to a wait for the interrupt status. -/
def Polls : Exchange port → Prop
  | readOf .interrupt _ | writeOf .interrupt _ | ⟨.delay _, _⟩ => True
  | _ => False

/-- The history starts `command` and reads `v` as its short response. -/
def Answers (command : Command) (v : UInt32) (t : History) : Prop :=
  ∃ before polls after,
    t = before ++ writeOf .command command.word.bits :: (polls ++ readOf .response0 v :: after) ∧
      ∀ e ∈ polls, Polls e

theorem Answers.append_left {v : UInt32} (t1 : History) (h : Answers command v t) :
    Answers command v (t1 ++ t) := by
  obtain ⟨before, polls, after, rfl, hpolls⟩ := h
  exact ⟨t1 ++ before, polls, after, by simp, hpolls⟩

theorem Answers.append_right {v : UInt32} (t2 : History) (h : Answers command v t) :
    Answers command v (t ++ t2) := by
  obtain ⟨before, polls, after, rfl, hpolls⟩ := h
  exact ⟨before, polls, after ++ t2, by simp, hpolls⟩

/-- The history starts `command` for the last time and reads `v` as its short response. -/
def LastAnswer (command : Command) (v : UInt32) (t : History) : Prop :=
  ∃ before polls after,
    t = before ++ writeOf .command command.word.bits :: (polls ++ readOf .response0 v :: after) ∧
      (∀ e ∈ polls, Polls e) ∧ command.word.bits ∉ commands after

theorem LastAnswer.answers {v : UInt32} (h : LastAnswer command v t) : Answers command v t := by
  obtain ⟨before, polls, after, rfl, hpolls, -⟩ := h
  exact ⟨before, polls, after, rfl, hpolls⟩

theorem LastAnswer.append_left {v : UInt32} (t1 : History) (h : LastAnswer command v t) :
    LastAnswer command v (t1 ++ t) := by
  obtain ⟨before, polls, after, rfl, hrest⟩ := h
  exact ⟨t1 ++ before, polls, after, by simp, hrest⟩

theorem LastAnswer.append_right {v : UInt32} {t2 : History} (h : LastAnswer command v t)
    (h2 : command.word.bits ∉ commands t2) : LastAnswer command v (t ++ t2) := by
  obtain ⟨before, polls, after, rfl, hpolls, hafter⟩ := h
  refine ⟨before, polls, after ++ t2, by simp, hpolls, ?_⟩
  rw [commands_append, List.mem_append]
  exact fun hmem => hmem.elim hafter h2

/-- Why a command fails at a sample of the interrupt status. -/
def reason (command : Command) (sample : UInt32) : Error :=
  let error := sample &&& Interrupt.errorMask &&& Interrupt.named
  if error = 0 then .timeout command else .command command error

theorem failAt_acts {sample : UInt32} {r : Except Error Unit}
    (h : Acts (failAt command sample) d t r d') :
    t = [] ∧ r = .error (reason command sample) ∧ d' = { d with last := { d.last with
      success := false
      error := sample &&& Interrupt.errorMask &&& Interrupt.named
      interrupt := sample } } :=
  acts_throw.mp (acts_modify_bind.mp h)

/-- The history waits for a command, up to `sample`. -/
def Awaits (sample : UInt32) (t : History) : Prop :=
  ∃ polls, t = polls ++ [readOf .interrupt sample,
      writeOf .interrupt (Interrupt.errorMask ||| Interrupt.commandDone)] ∧
    ∀ e ∈ polls, Polls e

/-- A wait for a command ends with a sample, and the command fails unless the sample shows it done
and no error. -/
theorem awaitCommand_acts {r : Except Error Unit}
    (h : Acts (awaitCommand command timeout) d t r d') :
    ∃ sample t1 t2, t = t1 ++ t2 ∧ Awaits sample t1 ∧
      (isClean sample Interrupt.commandDone = true ∧ t2 = [] ∧ r = .ok () ∧ d' = d ∨
        isClean sample Interrupt.commandDone = false ∧ Acts (failAt command sample) d t2 r d') := by
  rw [awaitCommand, sampleStatus, bind_assoc] at h
  obtain ⟨t1, _, result, d1, rfl, hw, h1⟩ := waitRegister_succeeds.acts_bind h
  obtain ⟨rfl, -⟩ := waitRegister_acts hw
  rw [bind_assoc] at h1
  obtain ⟨sample, _, rfl, h2⟩ := acts_read_bind.mp h1
  rw [bind_assoc] at h2
  obtain ⟨t2, rfl, h3⟩ := acts_write_bind.mp h2
  rw [acts_pure_bind, acts_ite] at h3
  have hpolls := waitRegister_all (P := Polls) hw (fun _ => trivial) fun _ => trivial
  refine ⟨sample, _, t2, by simp, ⟨t1, rfl, hpolls⟩, ?_⟩
  cases hclean : isClean sample Interrupt.commandDone with
  | false =>
    rw [hclean, if_pos (by rfl)] at h3
    exact .inr ⟨rfl, h3⟩
  | true =>
    rw [hclean, if_neg (by simp)] at h3
    obtain ⟨rfl, rfl, rfl⟩ := acts_pure.mp h3
    exact .inl ⟨rfl, rfl, rfl, rfl⟩

theorem readResponse_succeeds {word : CommandWord} : Succeeds (readResponse word) := by
  unfold readResponse
  cases word.response with
  | none => exact .pure
  | short | shortBusy => exact .bind .perform fun _ => .modify
  | long =>
    refine .bind .perform fun _ => .bind .perform fun _ => ?_
    exact .bind .perform fun _ => .bind .perform fun _ => .modify

theorem readResponse_short {word : CommandWord} {r : Except Error Unit}
    (hshort : word.response = .short ∨ word.response = .shortBusy)
    (h : Acts (readResponse word) d t r d') :
    ∃ v, t = [readOf .response0 v] ∧
      d' = { d with last := { d.last with response := #v[v, 0, 0, 0] } } := by
  rcases hshort with hshape | hshape
  all_goals
    rw [readResponse, hshape] at h
    obtain ⟨v, t1, rfl, h1⟩ := acts_read_bind.mp h
    obtain ⟨rfl, -, rfl⟩ := acts_modify.mp h1
    exact ⟨v, rfl, rfl⟩

/-- A command with nothing to wait for after its response is decided by one sample. -/
theorem start_plain {r : Except Error Unit} (hplain : command.word.waitsForTransfer = false)
    (h : Acts (start command command.word argument timeout data) d t r d') :
    ∃ sample wait rest, t = opening d command.word argument data ++ (wait ++ rest) ∧
      Awaits sample wait ∧
      (isClean sample Interrupt.commandDone = true ∧ r = .ok () ∧
          (∃ d0 d1, Acts (readResponse command.word) d0 rest (.ok ()) d1) ∨
        isClean sample Interrupt.commandDone = false ∧ rest = [] ∧
          r = .error (reason command sample) ∧ d'.last =
            { command := some command
              error := sample &&& Interrupt.errorMask &&& Interrupt.named
              interrupt := sample }) := by
  have hnodata : command.word.hasData = false := (Bool.or_eq_false_iff.mp hplain).1
  obtain ⟨after, rfl, h1⟩ := start_opens h
  rcases acts_bind.mp h1 with ⟨e, rfl, hc⟩ | ⟨t1, t2, _, d1, rfl, hc, h2⟩
  · obtain ⟨sample, wait, rest, rfl, hawaits, ⟨-, -, hok, -⟩ | ⟨hfault, hfail⟩⟩ :=
      awaitCommand_acts hc
    · nomatch hok
    · obtain ⟨rfl, hreason, rfl⟩ := failAt_acts hfail
      exact ⟨sample, wait, [], rfl, hawaits, .inr ⟨hfault, rfl, hreason, rfl⟩⟩
  obtain ⟨sample, wait, rest, rfl, hawaits, ⟨hclean, rfl, -, -⟩ | ⟨-, hfail⟩⟩ :=
    awaitCommand_acts hc
  case inr => exact absurd hfail failAt_fails
  refine ⟨sample, wait, t2, by simp, hawaits, .inl ⟨hclean, ?_⟩⟩
  obtain ⟨t3, t4, _, d2, rfl, hr, h3⟩ := readResponse_succeeds.acts_bind h2
  rw [moveData, hnodata, if_neg Bool.false_ne_true, acts_pure_bind, awaitTransfer, hplain,
    if_neg Bool.false_ne_true, acts_pure_bind] at h3
  obtain ⟨rfl, rfl, -⟩ := acts_modify.mp h3
  rw [List.append_nil]
  exact ⟨rfl, d1, d2, hr⟩

theorem awaitTransfer_unchanged {word : CommandWord} {u : Unit}
    (h : Acts (awaitTransfer command word timeout) d t (.ok u) d') : d' = d := by
  rw [awaitTransfer, acts_ite] at h
  split at h
  · obtain ⟨t1, t2, sample, d1, rfl, hs, h1⟩ := acts_bind_ok.mp h
    obtain ⟨polls, sample', -, rfl, -, -⟩ := sampleStatus_acts hs
    rw [acts_ite] at h1
    split at h1
    · exact (acts_write.mp h1).2.2
    · exact absurd h1 failAt_fails
  · exact (acts_pure.mp h).2.2

/-- A command with a short response and no data, which does not fail, is seen to be done at a sample
without an error, and records what it is answered. The card may then be waited for. -/
theorem start_responds {u : Unit}
    (hshort : command.word.response = .short ∨ command.word.response = .shortBusy)
    (hnodata : command.word.hasData = false)
    (h : Acts (start command command.word argument timeout data) d t (.ok u) d') :
    ∃ polls sample after, t = opening d command.word argument data ++
        (polls ++ [readOf .interrupt sample,
          writeOf .interrupt (Interrupt.errorMask ||| Interrupt.commandDone),
          readOf .response0 d'.last.reply] ++ after) ∧
      (∀ e ∈ polls, Polls e) ∧ isClean sample Interrupt.commandDone = true ∧
      commands after = [] ∧ (command.word.response = .short → after = []) := by
  obtain ⟨after, rfl, h4⟩ := start_opens h
  obtain ⟨t1, t2, _, d1, rfl, hc, h5⟩ := acts_bind_ok.mp h4
  obtain ⟨sample, _, _, rfl, ⟨polls, rfl, hpolls⟩, ⟨hclean, rfl, -⟩ | ⟨-, hfail⟩⟩ :=
    awaitCommand_acts hc
  case inr => exact absurd hfail failAt_fails
  obtain ⟨t3, t4, _, d2, rfl, hr, h6⟩ := acts_bind_ok.mp h5
  obtain ⟨v, rfl, rfl⟩ := readResponse_short hshort hr
  -- There is no data phase, and what is waited for after it changes nothing.
  rw [moveData, hnodata, if_neg Bool.false_ne_true, acts_pure_bind] at h6
  obtain ⟨t5, t6, _, d3, rfl, hw, h7⟩ := acts_bind_ok.mp h6
  obtain rfl := awaitTransfer_unchanged hw
  obtain ⟨rfl, -, rfl⟩ := acts_modify.mp h7
  refine ⟨polls, sample, t5, ?_, hpolls, hclean, ?_, fun hshape => ?_⟩
  · simp only [List.append_nil, List.append_assoc]
    rfl
  · exact commands_of_still ((keepsRecord_settles.awaitTransfer _ _ _).acts hw).still
  · rw [awaitTransfer, CommandWord.waitsForTransfer, hnodata, hshape] at hw
    exact (acts_pure.mp hw).1

/-- A command with a short response and no data, which does not fail, records what it is answered.
-/
theorem start_answers {u : Unit}
    (hshort : command.word.response = .short ∨ command.word.response = .shortBusy)
    (hnodata : command.word.hasData = false)
    (h : Acts (start command command.word argument timeout data) d t (.ok u) d') :
    LastAnswer command d'.last.reply t := by
  obtain ⟨polls, sample, after, rfl, hpolls, -, hsilent, -⟩ := start_responds hshort hnodata h
  refine ⟨[writeOf .blockSizeCount
        (d.blockSize ||| (UInt32.ofNat (data.size / d.blockWords) <<< 16)),
      writeOf .argument argument],
    polls ++ [readOf .interrupt sample,
      writeOf .interrupt (Interrupt.errorMask ||| Interrupt.commandDone)], after, by simp [opening],
    fun e he => ?_, ?_⟩
  · rcases List.mem_append.mp he with he | he
    · exact hpolls e he
    · have hseen : e = readOf .interrupt sample ∨
          e = writeOf .interrupt (Interrupt.errorMask ||| Interrupt.commandDone) := by
        simpa using he
      rcases hseen with rfl | rfl
      · trivial
      · trivial
  · rw [hsilent]
    exact List.not_mem_nil

theorem issue_answers {u : Unit}
    (hshort : command.word.response = .short ∨ command.word.response = .shortBusy)
    (hnodata : command.word.hasData = false)
    (h : Acts (issue command argument timeout data) d t (.ok u) d') :
    LastAnswer command d'.last.reply t := by
  obtain ⟨-, t1, t2, d1, rfl, hstart⟩ := issue_started h
  exact (start_answers hshort hnodata hstart).append_left t1

theorem issue_commands {u : Unit}
    (h : Acts (issue command argument timeout data) d t (.ok u) d') : commands t ≠ [] := by
  obtain ⟨-, t1, t2, d1, rfl, hstart⟩ := issue_started h
  obtain ⟨after, rfl, -⟩ := start_acts hstart
  rw [commands_append, commands_opening]
  simp

end Peripherals.Sd
