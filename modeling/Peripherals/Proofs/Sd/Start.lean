import Peripherals.Proofs.Sd.DataPhase

/-! Starting a command: what every phase of it keeps, and what a whole command sends, receives and
records. -/

namespace Peripherals.Sd

open RegisterBlock (read write)

/-- A relation that quiet requests keep, and every change to the record of the last command that
leaves the received words in it. -/
structure KeepsRecord (R : Driver → History → Driver → Prop) : Prop extends KeepsQuiet R where
  record (d : Driver) {o : Outcome} : o.received = d.last.received → R d [] { d with last := o }

namespace KeepsRecord

variable {R : Driver → History → Driver → Prop}

theorem modifyLast (h : KeepsRecord R) {f : Outcome → Outcome}
    (hf : ∀ o, (f o).received = o.received) : Keeps R (Sd.modifyLast f).run :=
  .modify fun d => h.record d (hf d.last)

theorem failAt (h : KeepsRecord R) (command : Command) (sample : UInt32) :
    Keeps R (Sd.failAt command sample).run :=
  h.bind (h.modifyLast fun _ => rfl) fun _ => h.throw _

theorem awaitCommand (h : KeepsRecord R) (command : Command) (timeout : UInt32) :
    Keeps R (Sd.awaitCommand command timeout).run := by
  refine h.bind (h.sampleStatus rfl timeout) fun sample => ?_
  exact .ite (h.failAt command sample) (h.pure ())

theorem readResponse (h : KeepsRecord R) (word : CommandWord) :
    Keeps R (Sd.readResponse word).run := by
  unfold Sd.readResponse
  cases word.response with
  | none => exact h.pure ()
  | short | shortBusy => exact h.bind (h.read fun _ => trivial) fun _ => h.modifyLast fun _ => rfl
  | long =>
    refine h.bind (h.read fun _ => trivial) fun _ => h.bind (h.read fun _ => trivial) fun _ => ?_
    refine h.bind (h.read fun _ => trivial) fun _ => h.bind (h.read fun _ => trivial) fun _ => ?_
    exact h.modifyLast fun _ => rfl

theorem awaitCompletion (h : KeepsRecord R) (command : Command) (timeout : UInt32) :
    Keeps R (Sd.awaitCompletion command timeout).run := by
  refine h.bind (h.sampleStatus rfl timeout) fun sample => ?_
  exact .ite (h.write rfl) (h.failAt command sample)

theorem awaitTransfer (h : KeepsRecord R) (command : Command) (word : CommandWord)
    (timeout : UInt32) : Keeps R (Sd.awaitTransfer command word timeout).run :=
  .ite (h.awaitCompletion command timeout) (h.pure ())

end KeepsRecord

/-- A relation that quiet requests keep, and the arrival of a word. -/
structure KeepsPort (R : Driver → History → Driver → Prop) : Prop extends KeepsQuiet R where
  received (d : Driver) (v : UInt32) : R d [readOf .data v] d

namespace KeepsPort

variable {R : Driver → History → Driver → Prop}

theorem receiveWords (h : KeepsPort R) (count : Nat) (ws : Array UInt32) :
    Keeps R (Sd.receiveWords count ws).run := by
  induction count generalizing ws with
  | zero => exact h.pure ws
  | succ count ih => exact h.bind (.perform h.received) fun word => ih (ws.push word)

theorem sendWords (h : KeepsPort R) (hsent : ∀ d v, R d [writeOf .data v] d)
    (words : Array UInt32) (count first : Nat) :
    Keeps R (Sd.sendWords words count first).run := by
  induction count generalizing first with
  | zero => exact h.pure ()
  | succ count ih => exact h.bind (.perform fun d _ => hsent d _) fun _ => ih (first + 1)

theorem moveBlocks (h : KeepsPort R) {data : Transfer}
    (hsent : data.isSend = true → ∀ d v, R d [writeOf .data v] d) (blockWords : Nat)
    {ready : UInt32}
    (hready : hasBits (Interrupt.errorMask ||| ready) Interrupt.cardRemoval = false)
    (timeout : UInt32) (blocks first : Nat) (ws : Array UInt32) :
    Keeps R (Sd.moveBlocks data blockWords ready timeout blocks first ws).run := by
  induction blocks generalizing first ws with
  | zero => exact h.pure _
  | succ blocks ih =>
    refine h.bind (h.sampleStatus hready timeout) fun sample => .ite (h.pure _) ?_
    cases data with
    | none => exact ih (first + 1) ws
    | receive count => exact h.bind (h.receiveWords _ _) fun new => ih (first + 1) new
    | send words => exact h.bind (h.sendWords (hsent rfl) _ _ _) fun _ => ih (first + 1) ws

end KeepsPort

/-- A relation that everything keeps in the course of a command that has been started: quiet
requests, the arrival of a word, and every change to the record of the last command. -/
structure KeepsPhases (R : Driver → History → Driver → Prop) : Prop extends KeepsPort R where
  last (d : Driver) (o : Outcome) : R d [] { d with last := o }

namespace KeepsPhases

variable {R : Driver → History → Driver → Prop}

theorem keepsRecord (h : KeepsPhases R) : KeepsRecord R where
  toKeepsQuiet := h.toKeepsQuiet
  record d o _ := h.last d o

theorem moveData (h : KeepsPhases R) {data : Transfer}
    (hsent : data.isSend = true → ∀ d v, R d [writeOf .data v] d) (command : Command)
    (word : CommandWord) (blockWords blocks : Nat) (timeout : UInt32) :
    Keeps R (Sd.moveData command word data blockWords blocks timeout).run := by
  refine .ite (h.bind (h.moveBlocks hsent _ ?_ _ _ _ _) fun phase => ?_) (h.pure ())
  · cases word.isRead <;> rfl
  · refine h.bind (.modify fun d => h.last d _) fun _ => ?_
    cases phase.stoppedAt with
    | none => exact h.pure ()
    | some sample => exact h.keepsRecord.failAt command sample

theorem rest (h : KeepsPhases R) {data : Transfer}
    (hsent : data.isSend = true → ∀ d v, R d [writeOf .data v] d) (command : Command)
    (word : CommandWord) (blockWords blocks : Nat) (timeout : UInt32) :
    Keeps R (do
      Sd.awaitCommand command timeout
      Sd.readResponse word
      Sd.moveData command word data blockWords blocks timeout
      Sd.awaitTransfer command word timeout
      Sd.modifyLast fun o => { o with success := true } : Action Unit).run := by
  refine h.bind (h.keepsRecord.awaitCommand command timeout) fun _ => ?_
  refine h.bind (h.keepsRecord.readResponse word) fun _ => ?_
  refine h.bind (h.moveData hsent command word _ _ timeout) fun _ => ?_
  refine h.bind (h.keepsRecord.awaitTransfer command word timeout) fun _ => ?_
  exact .modify fun d => h.last d _

end KeepsPhases

/-- A relation that the start of a command keeps, and everything in its course. -/
structure KeepsTransfer (R : Driver → History → Driver → Prop) : Prop extends KeepsPhases R where
  command (d : Driver) (w : UInt32) : R d [writeOf .command w] d

/-- What the phases of a command keep, the whole command keeps. -/
theorem KeepsTransfer.start {R : Driver → History → Driver → Prop} (h : KeepsTransfer R)
    {data : Transfer} (hsent : data.isSend = true → ∀ d v, R d [writeOf .data v] d)
    (command : Command) (word : CommandWord) (argument timeout : UInt32) :
    Keeps R (Sd.start command word argument timeout data).run := by
  refine h.bind (.modify fun d => h.last d _) fun _ => .get fun d => ?_
  refine h.bind (h.write trivial) fun _ => h.bind (h.write trivial) fun _ => ?_
  exact h.bind (.perform fun d _ => h.command d _) fun _ => h.rest hsent command word _ _ timeout

/-- Only the record of the last command changes. -/
def OnlyLast (d d' : Driver) : Prop := d' = { d with last := d'.last }

theorem OnlyLast.trans {d d1 d2 : Driver} (h1 : OnlyLast d d1) (h2 : OnlyLast d1 d2) :
    OnlyLast d d2 := by
  rw [OnlyLast, h2, h1]

theorem keepsTransfer_onlyLast : KeepsTransfer fun d _ d' => OnlyLast d d' where
  refl _ := rfl
  trans := .trans
  quiet _ _ _ := rfl
  last _ _ := rfl
  command _ _ := rfl
  received _ _ := rfl

theorem start_onlyLast {command : Command} {word : CommandWord} {argument timeout : UInt32}
    {data : Transfer} {d d' : Driver} {t : History} {r : Except Error Unit}
    (h : Acts (start command word argument timeout data) d t r d') : OnlyLast d d' :=
  (keepsTransfer_onlyLast.start (fun _ _ _ => rfl) command word argument timeout).acts h

/-- The step moves no data and starts nothing, and changes nothing but the record of the last
command, in which the received words stay. -/
structure Settles (d : Driver) (t : History) (d' : Driver) : Prop where
  onlyLast : OnlyLast d d'
  received : d'.last.received = d.last.received
  still : traffic t = []

theorem keepsRecord_settles : KeepsRecord Settles where
  refl _ := ⟨rfl, rfl, rfl⟩
  trans h1 h2 :=
    ⟨h1.onlyLast.trans h2.onlyLast, h2.received.trans h1.received, by simp [h1.still, h2.still]⟩
  quiet _ _ h := ⟨rfl, rfl, traffic_quiet h⟩
  record _ _ ho := ⟨rfl, ho, rfl⟩

section Phases

variable {command : Command} {word : CommandWord} {argument timeout : UInt32} {data : Transfer}
  {d d' : Driver} {t : History} {r : Except Error Unit}

/-- The three writes that open a command. -/
def opening (d : Driver) (word : CommandWord) (argument : UInt32) (data : Transfer) : History :=
  [writeOf .blockSizeCount
      (d.blockSize ||| (UInt32.ofNat (data.size / d.blockWords) <<< 16)),
    writeOf .argument argument, writeOf .command word.bits]

theorem commands_opening :
    commands (opening d word argument data ++ t) = word.bits :: commands t := rfl

theorem start_opens (h : Acts (start command word argument timeout data) d t r d') :
    ∃ after, t = opening d word argument data ++ after ∧
      Acts (do
        awaitCommand command timeout
        readResponse word
        moveData command word data d.blockWords (data.size / d.blockWords) timeout
        awaitTransfer command word timeout
        modifyLast fun o => { o with success := true })
        { d with last := { command := some command } } after r d' := by
  have h1 := acts_get_bind.mp (acts_modify_bind.mp h)
  obtain ⟨_, rfl, h2⟩ := acts_write_bind.mp h1
  obtain ⟨_, rfl, h3⟩ := acts_write_bind.mp h2
  obtain ⟨after, rfl, h4⟩ := acts_write_bind.mp h3
  exact ⟨after, rfl, h4⟩

/-- A command opens with three writes. Either it fails before its data phase and has moved nothing,
or its data phase follows. -/
theorem start_acts (h : Acts (start command word argument timeout data) d t r d') :
    ∃ after, t = opening d word argument data ++ after ∧
      ((∃ e, r = .error e) ∧ traffic after = [] ∧ d'.last.received = #[] ∨
        ∃ t1 t2 d1, after = t1 ++ t2 ∧ traffic t1 = [] ∧ d1.last.received = #[] ∧
          Acts (do
            moveData command word data d.blockWords (data.size / d.blockWords) timeout
            awaitTransfer command word timeout
            modifyLast fun o => { o with success := true }) d1 t2 r d') := by
  obtain ⟨after, rfl, h4⟩ := start_opens h
  refine ⟨after, rfl, ?_⟩
  rcases acts_bind.mp h4 with ⟨e, rfl, hc⟩ | ⟨t1, t2, _, d1, rfl, hc, h5⟩
  · have hs := (keepsRecord_settles.awaitCommand command timeout).acts hc
    exact .inl ⟨⟨e, rfl⟩, hs.still, hs.received⟩
  have hs1 := (keepsRecord_settles.awaitCommand command timeout).acts hc
  rcases acts_bind.mp h5 with ⟨e, rfl, hr⟩ | ⟨t3, t4, _, d2, rfl, hr, h6⟩
  · have hs := keepsRecord_settles.trans hs1 ((keepsRecord_settles.readResponse word).acts hr)
    exact .inl ⟨⟨e, rfl⟩, hs.still, hs.received⟩
  have hs := keepsRecord_settles.trans hs1 ((keepsRecord_settles.readResponse word).acts hr)
  exact .inr ⟨t1 ++ t3, t4, d2, by simp, hs.still, hs.received, h6⟩

theorem keepsPhases_silent : KeepsPhases fun _ t _ => commands t = [] where
  refl _ := rfl
  trans h1 h2 := by simp [h1, h2]
  quiet _ _ he := commands_of_still (traffic_quiet he)
  last _ _ := rfl
  received _ _ := rfl

theorem start_commands (h : Acts (start command word argument timeout data) d t r d') :
    ∃ after, t = opening d word argument data ++ after ∧ commands after = [] := by
  obtain ⟨after, rfl, h1⟩ := start_opens h
  exact ⟨after, rfl,
    (keepsPhases_silent.rest (fun _ _ _ => rfl) command word _ _ timeout).acts h1⟩

theorem failAt_fails {sample : UInt32} : ¬Acts (failAt command sample) d t (.ok ()) d' := by
  intro h
  obtain ⟨-, h1, -⟩ := acts_throw.mp (acts_modify_bind.mp h)
  nomatch h1

/-- A data phase that receives records the words that have arrived, all of them where it does not
fail. -/
theorem moveData_receive {n blockWords blocks : Nat} (hdata : word.hasData = true)
    (h : Acts (moveData command word (.receive n) blockWords blocks timeout) d t r d') :
    ∃ new : List UInt32, d'.last.received = new.toArray ∧ traffic t = new.map .received ∧
      new.length ≤ blocks * blockWords ∧ (r = .ok () → new.length = blocks * blockWords) := by
  rw [moveData, if_pos hdata] at h
  rcases acts_bind.mp h with ⟨e, -, hm⟩ | ⟨t1, t2, phase, d1, rfl, hm, h1⟩
  · obtain ⟨_, _, hm, -⟩ := moveBlocks_receive hm
    nomatch hm
  obtain ⟨new, stop, hphase, rfl, ht, hle, hall⟩ := moveBlocks_receive hm
  obtain rfl := Except.ok.inj hphase
  have h2 := acts_modify_bind.mp h1
  cases stop with
  | none =>
    obtain ⟨rfl, rfl, rfl⟩ := acts_pure.mp h2
    exact ⟨new, by simp, by simp [ht], hle, fun _ => hall rfl⟩
  | some sample =>
    have hs := (keepsRecord_settles.failAt command sample).acts h2
    refine ⟨new, by simp [hs.received], by simp [ht, hs.still], hle, ?_⟩
    rintro rfl
    exact absurd h2 failAt_fails

/-- A data phase that sends writes whole blocks from the first on, each after a sample in which the
card is ready, and all of them where it does not fail. -/
theorem moveData_send {words : Array UInt32} {blockWords blocks : Nat} (hdata : word.hasData = true)
    (hread : word.isRead = false) (hfit : blocks * blockWords ≤ words.size)
    (h : Acts (moveData command word (.send words) blockWords blocks timeout) d t r d') :
    ∃ k ≤ blocks, d'.last.received = #[] ∧
      traffic t = (words.toList.take (k * blockWords)).map .sent ∧
      (r = .ok () → k = blocks ∧ ∀ i < blocks,
        SampledAfter t (words.toList.take (i * blockWords)) Interrupt.writeReady
          (isClean · Interrupt.writeReady)) := by
  rw [moveData, if_pos hdata] at h
  rcases acts_bind.mp h with ⟨e, -, hm⟩ | ⟨t1, t2, phase, d1, rfl, hm, h1⟩
  · obtain ⟨_, _, hm, -⟩ := moveBlocks_send (by simpa using hfit) hm
    nomatch hm
  obtain ⟨k, stop, hphase, rfl, hk, hall, ht, hsamples⟩ := moveBlocks_send (by simpa using hfit) hm
  obtain rfl := Except.ok.inj hphase
  simp only [Nat.zero_mul, List.drop_zero, hread, Bool.false_eq_true, if_false] at ht hsamples
  have h2 := acts_modify_bind.mp h1
  cases stop with
  | none =>
    obtain ⟨rfl, rfl, rfl⟩ := acts_pure.mp h2
    refine ⟨k, hk, rfl, by simp [ht], fun _ => ⟨hall rfl, fun i hi => ?_⟩⟩
    exact (hsamples i (by rw [hall rfl]; exact hi)).append_right
  | some sample =>
    have hs := (keepsRecord_settles.failAt command sample).acts h2
    refine ⟨k, hk, hs.received, by simp [ht, hs.still], ?_⟩
    rintro rfl
    exact absurd h2 failAt_fails

theorem awaitTransfer_complete {u : Unit} (hdata : word.hasData = true)
    (h : Acts (awaitTransfer command word timeout) d t (.ok u) d') :
    SampledAfter t [] Interrupt.dataDone isComplete := by
  rw [awaitTransfer, if_pos (by simp [CommandWord.waitsForTransfer, hdata])] at h
  obtain ⟨t1, t2, sample, d1, rfl, hs, h1⟩ := acts_bind_ok.mp h
  obtain ⟨polls, sample', hsample, rfl, hpolls, rfl⟩ := sampleStatus_acts hs
  obtain rfl := Except.ok.inj hsample
  rw [acts_ite] at h1
  split at h1
  · exact ⟨polls, sample, t2, by simp, by simp [sent, hpolls], ‹_›⟩
  · exact absurd h1 failAt_fails

theorem finish_acts (hdata : word.hasData = true)
    (h : Acts (do
      awaitTransfer command word timeout
      modifyLast fun o => { o with success := true }) d t r d') :
    Settles d t d' ∧ (r = .ok () → SampledAfter t [] Interrupt.dataDone isComplete) := by
  rcases acts_bind.mp h with ⟨e, rfl, hw⟩ | ⟨t1, t2, _, d1, rfl, hw, h1⟩
  · exact ⟨(keepsRecord_settles.awaitTransfer command word timeout).acts hw, by simp⟩
  have hs := (keepsRecord_settles.awaitTransfer command word timeout).acts hw
  obtain ⟨rfl, rfl, rfl⟩ := acts_modify.mp h1
  refine ⟨keepsRecord_settles.trans hs (keepsRecord_settles.record d1 rfl), fun _ => ?_⟩
  exact (awaitTransfer_complete hdata hw).append_right

/-- A command that receives whole blocks records what has arrived after it was started, and all of
it where it does not fail. -/
theorem start_receive {n : Nat} (hdata : word.hasData = true) (hfit : d.blockWords ∣ n)
    (h : Acts (start command word argument timeout (.receive n)) d t r d') :
    ∃ (after : History) (new : List UInt32),
      t = opening d word argument (.receive n) ++ after ∧ traffic after = new.map .received ∧
      d'.last.received = new.toArray ∧ new.length ≤ n ∧ (r = .ok () → new.length = n) := by
  obtain ⟨after, rfl, ⟨⟨e, rfl⟩, ht, hreceived⟩ | ⟨t1, t2, d1, rfl, ht1, -, h1⟩⟩ := start_acts h
  · exact ⟨after, [], rfl, ht, hreceived, by simp, by simp⟩
  have hn : n / d.blockWords * d.blockWords = n := Nat.div_mul_cancel hfit
  rcases acts_bind.mp h1 with ⟨e, rfl, hm⟩ | ⟨t3, t4, _, d2, rfl, hm, h2⟩
  · obtain ⟨new, hreceived, ht, hle, -⟩ := moveData_receive hdata hm
    exact ⟨t1 ++ t2, new, rfl, by simp [ht1, ht], hreceived, by rwa [← hn], by simp⟩
  obtain ⟨new, hreceived, ht, hle, hall⟩ := moveData_receive hdata hm
  obtain ⟨hs, -⟩ := finish_acts hdata h2
  refine ⟨t1 ++ (t3 ++ t4), new, rfl, by simp [ht1, ht, hs.still], ?_, by rwa [← hn], fun _ => ?_⟩
  · rw [hs.received, hreceived]
  · rw [hall rfl]
    exact hn

/-- A command that sends blocks writes a part of them in order from the first on. Where it does not
fail it writes them all, each block after a sample in which the card is ready, and then sees the
transfer complete. -/
theorem start_send {words : Array UInt32} (hdata : word.hasData = true)
    (hread : word.isRead = false)
    (h : Acts (start command word argument timeout (.send words)) d t r d') :
    ∃ (after : History) (k : Nat), k ≤ words.size / d.blockWords ∧
      t = opening d word argument (.send words) ++ after ∧
      traffic after = (words.toList.take (k * d.blockWords)).map .sent ∧
      d'.last.received = #[] ∧
      (r = .ok () → k = words.size / d.blockWords ∧
        (∀ i < k, SampledAfter after (words.toList.take (i * d.blockWords)) Interrupt.writeReady
          (isClean · Interrupt.writeReady)) ∧
        SampledAfter after (words.toList.take (k * d.blockWords)) Interrupt.dataDone
          isComplete) := by
  obtain ⟨after, rfl, ⟨⟨e, rfl⟩, ht, hreceived⟩ | ⟨t1, t2, d1, rfl, ht1, -, h1⟩⟩ := start_acts h
  · exact ⟨after, 0, Nat.zero_le _, rfl, by simp [ht], hreceived, by simp⟩
  have hfit : words.size / d.blockWords * d.blockWords ≤ words.size := Nat.div_mul_le_self _ _
  rcases acts_bind.mp h1 with ⟨e, rfl, hm⟩ | ⟨t3, t4, _, d2, rfl, hm, h2⟩
  · obtain ⟨k, hk, hreceived, ht, -⟩ := moveData_send hdata hread hfit hm
    exact ⟨t1 ++ t2, k, hk, rfl, by simp [ht1, ht], hreceived, by simp⟩
  obtain ⟨k, hk, hreceived, ht, hall⟩ := moveData_send hdata hread hfit hm
  obtain ⟨hk', hready⟩ := hall rfl
  obtain ⟨hs, hdone⟩ := finish_acts hdata h2
  have hsent1 : sent t1 = [] := by simp [sent, ht1]
  have hsent3 : sent t3 = words.toList.take (k * d.blockWords) := sent_of_traffic ht
  refine ⟨t1 ++ (t3 ++ t4), k, hk, rfl, by simp [ht1, ht, hs.still], ?_, fun hr => ⟨hk', ?_, ?_⟩⟩
  · rw [hs.received, hreceived]
  · intro i hi
    exact (hready i (hk' ▸ hi)).append_right.append_left hsent1
  · simpa using ((hdone hr).append_left hsent3).append_left hsent1

end Phases

end Peripherals.Sd
