import Peripherals.Proofs.Sd.Answer

/-! The checkpoints of a command. At each the driver waits for a status bit, samples the interrupt
status and acknowledges it. It goes on to the next one where the sample passes, and stops at the
first sample that does not. -/

namespace Peripherals.Sd

open RegisterBlock (read write)

/-- The registers that hold a response. -/
def ResponseType.registers : ResponseType → List Register
  | .none => []
  | .short | .shortBusy => [.response0]
  | .long => [.response0, .response1, .response2, .response3]

/-- A point at which a command goes on or fails. -/
inductive Checkpoint where
  /-- The command is done, and its response can be read. -/
  | command (response : ResponseType)
  /-- The data port is ready, to be read where `ready`, and a block of so many words can be moved,
  which are read where `isRead`. -/
  | block (ready isRead : Bool) (words : Nat)
  /-- The transfer is complete, or the card no longer busy. -/
  | completion
  deriving DecidableEq, Repr

/-- The sample shows the status bits `bits`, and no error. -/
def Shows (bits sample : UInt32) : Prop :=
  hasBits sample bits = true ∧ hasBits sample Interrupt.errorMask = false

/-- The sample shows that a transfer is done, and no error but a data timeout alone. -/
def ShowsComplete (sample : UInt32) : Prop :=
  hasBits sample Interrupt.dataDone = true ∧
    (sample &&& Interrupt.errorMask = 0 ∨ sample &&& Interrupt.errorMask = Interrupt.dataTimeout)

/-- The bit of a data port that is ready. -/
def readyBit (isRead : Bool) : UInt32 :=
  if isRead then Interrupt.readReady else Interrupt.writeReady

/-- The access that moves a word of a block. -/
def wordAccess (isRead : Bool) (word : UInt32) : Exchange port :=
  if isRead then readOf .data word else writeOf .data word

namespace Checkpoint

/-- The status bits that are waited for. -/
def bits : Checkpoint → UInt32
  | command _ => Interrupt.commandDone
  | block ready _ _ => readyBit ready
  | completion => Interrupt.dataDone

/-- The sample lets the command go on. -/
def Passes : Checkpoint → UInt32 → Prop
  | command _ => Shows Interrupt.commandDone
  | block ready _ _ => Shows (readyBit ready)
  | completion => ShowsComplete

/-- What is done after a sample that passes. -/
def After : Checkpoint → History → Prop
  | command response, t =>
    ∃ answer : Register → UInt32, t = response.registers.map fun r => readOf r (answer r)
  | block _ isRead words, t =>
    ∃ values : List UInt32, values.length = words ∧ t = values.map (wordAccess isRead)
  | completion, t => t = [writeOf .interrupt (Interrupt.errorMask ||| Interrupt.dataDone)]

/-- The response registers that are read after a sample that passes. -/
def registers : Checkpoint → List Register
  | command response => response.registers
  | block _ _ _ | completion => []

/-- The number of words that are moved after a sample that passes. -/
def words : Checkpoint → Nat
  | block _ _ words => words
  | command _ | completion => 0

/-- Words are moved only in this direction. -/
def Directed (isRead : Bool) : Checkpoint → Prop
  | block _ isRead' _ => isRead' = isRead
  | command _ | completion => True

end Checkpoint

/-- The exchange belongs to a wait for the interrupt status. -/
inductive IsWait : Exchange port → Prop
  | poll (v : UInt32) : IsWait (readOf .interrupt v)
  | delay (us : UInt32) : IsWait ⟨.delay us, ()⟩

/-- A wait for `bits` that ends with `sample`, which is acknowledged. -/
def Samples (bits sample : UInt32) (t : History) : Prop :=
  ∃ polls, t = polls ++ [readOf .interrupt sample,
      writeOf .interrupt (Interrupt.errorMask ||| bits)] ∧
    ∀ e ∈ polls, IsWait e

/-- A way through the checkpoints, up to the sample at which it stops, if it does. -/
inductive Checked : List Checkpoint → History → Option UInt32 → Prop
  | nil : Checked [] [] none
  | stop {c : Checkpoint} {cs : List Checkpoint} {t : History} {sample : UInt32} :
    Samples c.bits sample t → ¬c.Passes sample → Checked (c :: cs) t (some sample)
  | pass {c : Checkpoint} {cs : List Checkpoint} {t1 t2 t3 : History} {sample : UInt32}
      {stop : Option UInt32} :
    Samples c.bits sample t1 → c.Passes sample → c.After t2 → Checked cs t3 stop →
    Checked (c :: cs) (t1 ++ (t2 ++ t3)) stop

/-- The checkpoints of the data phase, one for every block. -/
def blockPoints (word : CommandWord) (data : Transfer) (blockWords : Nat) : List Checkpoint :=
  if word.hasData then
    List.replicate (data.size / blockWords) (.block word.isRead (!data.isSend) blockWords)
  else []

/-- The checkpoint at the end of a transfer. -/
def completionPoints (word : CommandWord) : List Checkpoint :=
  if word.waitsForTransfer then [.completion] else []

/-- The checkpoints of a command with this word and this transfer. -/
def checkpoints (word : CommandWord) (data : Transfer) (blockWords : Nat) : List Checkpoint :=
  .command word.response :: (blockPoints word data blockWords ++ completionPoints word)

/-- The transfer has no other direction. -/
def Transfer.Fits (isRead : Bool) : (data : Transfer) → Prop
  | .none => True
  | .receive _ => isRead = true
  | .send _ => isRead = false

section Points

variable (word : CommandWord) (data : Transfer) (blockWords : Nat)

theorem registers_later :
    (blockPoints word data blockWords ++ completionPoints word).flatMap Checkpoint.registers =
      [] := by
  unfold blockPoints completionPoints
  generalize data.size / blockWords = blocks
  cases word.hasData <;> cases word.waitsForTransfer <;> simp [Checkpoint.registers]

theorem registers_checkpoints :
    (checkpoints word data blockWords).flatMap Checkpoint.registers = word.response.registers := by
  rw [checkpoints, List.flatMap_cons, registers_later, List.append_nil]
  rfl

theorem checkpoints_plain (hplain : word.waitsForTransfer = false) :
    checkpoints word data blockWords = [.command word.response] := by
  have hnodata : word.hasData = false := (Bool.or_eq_false_iff.mp hplain).1
  rw [checkpoints, blockPoints, completionPoints, hplain, hnodata]
  rfl

theorem words_checkpoints :
    ((checkpoints word data blockWords).map Checkpoint.words).sum =
      if word.hasData then data.size / blockWords * blockWords else 0 := by
  unfold checkpoints blockPoints completionPoints
  cases word.hasData <;> cases word.waitsForTransfer <;> simp [Checkpoint.words]

theorem directed_checkpoints (hfits : data.Fits word.isRead) :
    ∀ c ∈ checkpoints word data blockWords, c.Directed word.isRead := by
  intro c hc
  rcases List.mem_cons.mp hc with rfl | hc
  · trivial
  rcases List.mem_append.mp hc with hc | hc
  · unfold blockPoints at hc
    split at hc
    · obtain ⟨hsome, rfl⟩ := List.mem_replicate.mp hc
      cases data with
      | none => exact absurd (Nat.zero_div blockWords) hsome
      | receive | send => exact hfits.symm
    · nomatch hc
  · unfold completionPoints at hc
    split at hc
    · rw [List.mem_singleton.mp hc]
      trivial
    · nomatch hc

end Points

/-! ### Samples that pass -/

section Bits

variable {sample bits : UInt32}

/-- A sample is clean where it shows the bit and no error. -/
theorem isClean_iff {i : Nat} (hbits : bits.toNat = 2 ^ i)
    (hdisjoint : bits &&& Interrupt.errorMask = 0) :
    isClean sample bits = true ↔ Shows bits sample := by
  rw [Shows, hasBits_bit hbits, hasBits_eq_false, isClean, beq_iff_eq, and_comm (b := _ = 0)]
  refine (Eq.congr_right (UInt32.zero_or).symm).trans ?_
  exact and_or_eq_iff hdisjoint (UInt32.zero_and) (UInt32.and_self)

theorem isComplete_iff : isComplete sample = true ↔ ShowsComplete sample := by
  have hdone : Interrupt.dataDone.toNat = 2 ^ 1 := rfl
  rw [ShowsComplete, hasBits_bit hdone, isComplete, Bool.or_eq_true, beq_iff_eq, beq_iff_eq,
    and_or_left]
  refine or_congr ?_ ?_
  · refine (Eq.congr_right (UInt32.zero_or).symm).trans ?_
    rw [and_or_eq_iff rfl rfl rfl, and_comm]
  · rw [and_or_eq_iff rfl rfl rfl, and_comm]

theorem isClean_readyBit {isRead : Bool} :
    isClean sample (readyBit isRead) = true ↔ Shows (readyBit isRead) sample := by
  cases isRead with
  | false => exact isClean_iff (i := 4) rfl rfl
  | true => exact isClean_iff (i := 5) rfl rfl

end Bits

/-! ### Ways through the checkpoints -/

namespace Checked

variable {cs cs' : List Checkpoint} {t t' : History} {stop : Option UInt32} {sample : UInt32}

theorem append (h : Checked cs t none) (h' : Checked cs' t' stop) :
    Checked (cs ++ cs') (t ++ t') stop := by
  generalize hnone : (none : Option UInt32) = none' at h
  induction h with
  | nil => exact h'
  | stop => nomatch hnone
  | pass hsamples hpasses hafter _ ih =>
    rw [List.append_assoc, List.append_assoc]
    exact .pass hsamples hpasses hafter (ih hnone)

theorem append_stop (h : Checked cs t (some sample)) : Checked (cs ++ cs') t (some sample) := by
  generalize hsome : some sample = some' at h
  induction h with
  | nil => nomatch hsome
  | stop hsamples hfails => exact .stop hsamples hfails
  | pass hsamples hpasses hafter _ ih => exact .pass hsamples hpasses hafter (ih hsome)

end Checked

/-! ### What can be seen of a way -/

/-- The samples of a history: the values of the interrupt status that were acknowledged after they
had been read, where `last` is the value that was read last. -/
def samplesFrom : (last : Option UInt32) → (t : History) → List UInt32
  | _, [] => []
  | _, readOf .interrupt v :: t => samplesFrom (some v) t
  | last, writeOf .interrupt _ :: t => last.toList ++ samplesFrom none t
  | last, _ :: t => samplesFrom last t

def samples (t : History) : List UInt32 := samplesFrom none t

/-- The reads of the response registers, with their values. -/
def responses (t : History) : List (Register × UInt32) :=
  t.filterMap fun
    | readOf .response0 v => some (.response0, v)
    | readOf .response1 v => some (.response1, v)
    | readOf .response2 v => some (.response2, v)
    | readOf .response3 v => some (.response3, v)
    | _ => none

/-- A word of a block in the traffic. -/
def wordTraffic (isRead : Bool) (word : UInt32) : Traffic :=
  if isRead then .received word else .sent word

section Observations

variable {bits sample : UInt32} {t t' : History} {c : Checkpoint} {cs : List Checkpoint}
  {stop : Option UInt32} {isRead : Bool}

theorem responses_append : responses (t ++ t') = responses t ++ responses t' :=
  List.filterMap_append

/-- A wait shows in none of the observations, but for the value that was read last. -/
theorem waits_unseen {polls : History} (h : ∀ e ∈ polls, IsWait e) :
    responses polls = [] ∧ traffic polls = [] ∧
      ∀ last, ∃ last', ∀ t, samplesFrom last (polls ++ t) = samplesFrom last' t := by
  induction polls with
  | nil => exact ⟨rfl, rfl, fun last => ⟨last, fun _ => rfl⟩⟩
  | cons e polls ih =>
    obtain ⟨he, hrest⟩ := List.forall_mem_cons.mp h
    obtain ⟨hresponses, htraffic, hsamples⟩ := ih hrest
    cases he with
    | poll v => exact ⟨hresponses, htraffic, fun _ => hsamples (some v)⟩
    | delay us => exact ⟨hresponses, htraffic, hsamples⟩

/-- The words of a block show in the traffic only. -/
theorem words_seen (isRead : Bool) (values : List UInt32) :
    responses (values.map (wordAccess isRead)) = [] ∧
      traffic (values.map (wordAccess isRead)) = values.map (wordTraffic isRead) ∧
      ∀ last t, samplesFrom last (values.map (wordAccess isRead) ++ t) = samplesFrom last t := by
  induction values with
  | nil => exact ⟨rfl, rfl, fun _ _ => rfl⟩
  | cons v values ih =>
    obtain ⟨hresponses, htraffic, hsamples⟩ := ih
    cases isRead with
    | false | true => exact ⟨hresponses, congrArg (_ :: ·) htraffic, hsamples⟩

namespace Samples

theorem samplesFrom (h : Samples bits sample t) (last : Option UInt32) :
    Sd.samplesFrom last (t ++ t') = sample :: samples t' := by
  obtain ⟨polls, rfl, hpolls⟩ := h
  obtain ⟨last', hsamples⟩ := (waits_unseen hpolls).2.2 last
  rw [List.append_assoc, hsamples]
  rfl

theorem samples (h : Samples bits sample t) : Sd.samples t = [sample] := by
  have hfrom : Sd.samplesFrom none (t ++ []) = [sample] := h.samplesFrom none
  rwa [List.append_nil] at hfrom

theorem responses (h : Samples bits sample t) : Sd.responses t = [] := by
  obtain ⟨polls, rfl, hpolls⟩ := h
  rw [responses_append, (waits_unseen hpolls).1]
  rfl

theorem traffic (h : Samples bits sample t) : Sd.traffic t = [] := by
  obtain ⟨polls, rfl, hpolls⟩ := h
  rw [traffic_append, (waits_unseen hpolls).2.1]
  rfl

end Samples

namespace Checkpoint.After

/-- No access after a sample that passes is taken for another sample. -/
theorem samplesFrom (h : c.After t) : Sd.samplesFrom none (t ++ t') = samples t' := by
  cases c with
  | command response =>
    obtain ⟨answer, rfl⟩ := h
    cases response with
    | none | short | shortBusy | long => rfl
  | block _ isRead words =>
    obtain ⟨values, -, rfl⟩ := h
    exact (words_seen isRead values).2.2 none t'
  | completion =>
    obtain rfl := h
    rfl

theorem responses (h : c.After t) : (Sd.responses t).map Prod.fst = c.registers := by
  cases c with
  | command response =>
    obtain ⟨answer, rfl⟩ := h
    cases response with
    | none | short | shortBusy | long => rfl
  | block _ isRead words =>
    obtain ⟨values, -, rfl⟩ := h
    rw [(words_seen isRead values).1]
    rfl
  | completion =>
    obtain rfl := h
    rfl

theorem traffic (h : c.After t) (hdirected : c.Directed isRead) :
    ∃ values : List UInt32, values.length = c.words ∧
      Sd.traffic t = values.map (wordTraffic isRead) := by
  cases c with
  | command response =>
    obtain ⟨answer, rfl⟩ := h
    refine ⟨[], rfl, ?_⟩
    cases response with
    | none | short | shortBusy | long => rfl
  | block _ isRead' words =>
    obtain rfl : isRead' = isRead := hdirected
    obtain ⟨values, rfl, rfl⟩ := h
    exact ⟨values, rfl, (words_seen isRead' values).2.1⟩
  | completion =>
    obtain rfl := h
    exact ⟨[], rfl, rfl⟩

end Checkpoint.After

namespace Checked

theorem responses (h : Checked cs t none) :
    (Sd.responses t).map Prod.fst = cs.flatMap Checkpoint.registers := by
  generalize hnone : (none : Option UInt32) = none' at h
  induction h with
  | nil => rfl
  | stop => nomatch hnone
  | pass hsamples _ hafter _ ih =>
    rw [responses_append, responses_append, hsamples.responses, List.nil_append, List.map_append,
      hafter.responses, ih hnone, List.flatMap_cons]

/-- On the whole way, every checkpoint moves its words. -/
theorem traffic (h : Checked cs t none) (hdirected : ∀ c ∈ cs, c.Directed isRead) :
    ∃ values : List UInt32, values.length = (cs.map Checkpoint.words).sum ∧
      Sd.traffic t = values.map (wordTraffic isRead) := by
  generalize hnone : (none : Option UInt32) = none' at h
  induction h with
  | nil => exact ⟨[], rfl, rfl⟩
  | stop => nomatch hnone
  | pass hsamples _ hafter _ ih =>
    obtain ⟨hfirst, hrest⟩ := List.forall_mem_cons.mp hdirected
    obtain ⟨values, hlen, htraffic⟩ := hafter.traffic hfirst
    obtain ⟨later, hlater, htraffic'⟩ := ih hrest hnone
    refine ⟨values ++ later, by simp [hlen, hlater], ?_⟩
    rw [traffic_append, traffic_append, hsamples.traffic, htraffic, htraffic', List.map_append]
    rfl

/-- On the whole way, there is a sample for every checkpoint, and it passes. -/
theorem passes (h : Checked cs t none) : List.Forall₂ Checkpoint.Passes cs (samples t) := by
  generalize hnone : (none : Option UInt32) = none' at h
  induction h with
  | nil => exact .nil
  | stop => nomatch hnone
  | pass hsamples hpasses hafter _ ih =>
    rw [samples, hsamples.samplesFrom, samples, hafter.samplesFrom]
    exact .cons hpasses (ih hnone)

end Checked

/-- All samples but the last pass the checkpoints that they belong to, the last one does not, and
after it there is nothing but its acknowledgement. -/
structure Deviates (cs : List Checkpoint) (t : History) (sample : UInt32) : Prop where
  samples : ∃ passed c rest, cs = passed ++ c :: rest ∧ ¬c.Passes sample ∧
    ∃ good, Sd.samples t = good ++ [sample] ∧ List.Forall₂ Checkpoint.Passes passed good
  last : ∃ before bits, t = before ++ [readOf .interrupt sample, writeOf .interrupt bits]

theorem Checked.deviates (h : Checked cs t (some sample)) : Deviates cs t sample := by
  generalize hsome : some sample = some' at h
  induction h with
  | nil => nomatch hsome
  | stop hsamples hfails =>
    obtain rfl := Option.some.inj hsome
    obtain ⟨polls, rfl, -⟩ := id hsamples
    exact ⟨⟨[], _, _, rfl, hfails, [], hsamples.samples, .nil⟩, polls, _, rfl⟩
  | pass hsamples hpasses hafter _ ih =>
    obtain ⟨⟨passed, c, rest, rfl, hfails, good, hgood, hpassed⟩, before, bits, rfl⟩ := ih hsome
    refine ⟨⟨_ :: passed, c, rest, rfl, hfails, _ :: good, ?_, .cons hpasses hpassed⟩, ?_⟩
    · rw [samples, hsamples.samplesFrom, samples, hafter.samplesFrom, hgood]
      rfl
    · rw [← List.append_assoc, ← List.append_assoc]
      exact ⟨_, bits, rfl⟩

end Observations

/-! ### The phases of a command -/

section Phases

variable {command : Command} {word : CommandWord} {bits timeout : UInt32} {data : Transfer}
  {d d' : Driver} {t : History} {r : Except Error Unit}

theorem sampleStatus_samples {r : Except Error UInt32}
    (h : Acts (sampleStatus bits timeout) d t r d') :
    ∃ sample, r = .ok sample ∧ d' = d ∧ Samples bits sample t := by
  obtain ⟨t1, t2, result, d1, rfl, hw, h1⟩ := waitRegister_succeeds.acts_bind h
  obtain ⟨rfl, -⟩ := waitRegister_acts hw
  obtain ⟨sample, t3, rfl, h2⟩ := acts_read_bind.mp h1
  obtain ⟨t4, rfl, h3⟩ := acts_write_bind.mp h2
  obtain ⟨rfl, rfl, rfl⟩ := acts_pure.mp h3
  exact ⟨sample, rfl, rfl, t1, rfl, waitRegister_all hw .delay .poll⟩

theorem acts_sampleStatus_bind {α : Type} {f : UInt32 → Action α} {r : Except Error α}
    (h : Acts (sampleStatus bits timeout >>= f) d t r d') :
    ∃ sample t1 t2, t = t1 ++ t2 ∧ Samples bits sample t1 ∧ Acts (f sample) d t2 r d' := by
  rcases acts_bind.mp h with ⟨e, -, hs⟩ | ⟨t1, t2, sample, d1, rfl, hs, h1⟩
  · obtain ⟨_, herror, -⟩ := sampleStatus_samples hs
    cases herror
  · obtain ⟨sample, hsample, rfl, hsamples⟩ := sampleStatus_samples hs
    obtain rfl := Except.ok.inj hsample
    exact ⟨sample, t1, t2, rfl, hsamples, h1⟩

theorem receiveWords_reads {count : Nat} {ws : Array UInt32} {r : Except Error (Array UInt32)}
    (h : Acts (receiveWords count ws) d t r d') :
    ∃ new : List UInt32, r = .ok (ws ++ new.toArray) ∧ d' = d ∧ new.length = count ∧
      t = new.map (wordAccess true) := by
  induction count generalizing ws t with
  | zero =>
    obtain ⟨rfl, rfl, rfl⟩ := acts_pure.mp h
    exact ⟨[], by simp, rfl, rfl, rfl⟩
  | succ count ih =>
    obtain ⟨word, t1, rfl, h1⟩ := acts_read_bind.mp h
    obtain ⟨new, rfl, rfl, hlen, rfl⟩ := ih h1
    exact ⟨word :: new, by simp, rfl, by simp [hlen], rfl⟩

theorem sendWords_writes {words : Array UInt32} {count first : Nat}
    (h : Acts (sendWords words count first) d t r d') :
    ∃ values : List UInt32, r = .ok () ∧ d' = d ∧ values.length = count ∧
      t = values.map (wordAccess false) := by
  induction count generalizing first t with
  | zero =>
    obtain ⟨rfl, rfl, rfl⟩ := acts_pure.mp h
    exact ⟨[], rfl, rfl, rfl, rfl⟩
  | succ count ih =>
    obtain ⟨t1, rfl, h1⟩ := acts_write_bind.mp h
    obtain ⟨values, rfl, rfl, hlen, rfl⟩ := ih h1
    exact ⟨words[first]?.getD 0 :: values, rfl, rfl, by simp [hlen], rfl⟩

theorem moveBlocks_checked {ready : Bool} {blockWords blocks first : Nat} {ws : Array UInt32}
    {r : Except Error DataPhase} (hblocks : data.size = 0 → blocks = 0)
    (h : Acts (moveBlocks data blockWords (readyBit ready) timeout blocks first ws) d t r d') :
    ∃ phase, r = .ok phase ∧ d' = d ∧
      Checked (List.replicate blocks (.block ready (!data.isSend) blockWords)) t
        phase.stoppedAt := by
  induction blocks generalizing first ws t with
  | zero =>
    obtain ⟨rfl, rfl, rfl⟩ := acts_pure.mp h
    exact ⟨_, rfl, rfl, .nil⟩
  | succ blocks ih =>
    obtain ⟨sample, t1, t2, rfl, hsamples, h1⟩ := acts_sampleStatus_bind h
    rw [acts_ite] at h1
    split at h1
    case isTrue hfails =>
      obtain ⟨rfl, rfl, rfl⟩ := acts_pure.mp h1
      rw [List.append_nil]
      refine ⟨_, rfl, rfl, .stop hsamples fun hshows => ?_⟩
      rw [isClean_readyBit.mpr hshows] at hfails
      cases hfails
    case isFalse hclean =>
      have hpasses : Shows (readyBit ready) sample := isClean_readyBit.mp (by simpa using hclean)
      have hmore (h0 : data.size = 0) : blocks = 0 := absurd (hblocks h0) (Nat.succ_ne_zero _)
      -- The words go by the transfer, and not by the bit that was waited for.
      cases data with
      | none => exact absurd (hblocks rfl) (Nat.succ_ne_zero _)
      | receive count =>
        rcases acts_bind.mp h1 with ⟨e, -, hw⟩ | ⟨t3, t4, _, d2, rfl, hw, h2⟩
        · obtain ⟨_, hw, -⟩ := receiveWords_reads hw
          nomatch hw
        obtain ⟨new, -, rfl, hafter⟩ := receiveWords_reads hw
        obtain ⟨phase, rfl, rfl, hrest⟩ := ih hmore h2
        exact ⟨phase, rfl, rfl, .pass hsamples hpasses ⟨new, hafter⟩ hrest⟩
      | send words =>
        rcases acts_bind.mp h1 with ⟨e, -, hw⟩ | ⟨t3, t4, _, d2, rfl, hw, h2⟩
        · obtain ⟨_, hw, -⟩ := sendWords_writes hw
          nomatch hw
        obtain ⟨values, -, rfl, hafter⟩ := sendWords_writes hw
        obtain ⟨phase, rfl, rfl, hrest⟩ := ih hmore h2
        exact ⟨phase, rfl, rfl, .pass hsamples hpasses ⟨values, hafter⟩ hrest⟩

/-- How a phase ends: it goes on where every sample passes, and fails with the first one that does
not. -/
def EndsAt (command : Command) (r : Except Error Unit) (d' : Driver) : Option UInt32 → Prop
  | none => r = .ok ()
  | some sample => r = .error (reason command sample) ∧ d'.last.success = false ∧
      d'.last.error = sample &&& Interrupt.errorMask &&& Interrupt.named ∧
      d'.last.interrupt = sample

theorem failAt_ends {sample : UInt32} (h : Acts (failAt command sample) d t r d') :
    t = [] ∧ EndsAt command r d' (some sample) := by
  obtain ⟨rfl, rfl, rfl⟩ := failAt_acts h
  exact ⟨rfl, rfl, rfl, rfl, rfl⟩

theorem awaitCommand_checked (h : Acts (awaitCommand command timeout) d t r d') :
    ∃ sample, Samples Interrupt.commandDone sample t ∧
      (Shows Interrupt.commandDone sample ∧ r = .ok () ∧ d' = d ∨
        ¬Shows Interrupt.commandDone sample ∧ EndsAt command r d' (some sample)) := by
  obtain ⟨sample, t1, t2, rfl, hsamples, h1⟩ := acts_sampleStatus_bind h
  have hclean : isClean sample Interrupt.commandDone = true ↔ Shows Interrupt.commandDone sample :=
    isClean_iff (i := 0) rfl rfl
  rw [acts_ite] at h1
  split at h1
  case isTrue hfails =>
    obtain ⟨rfl, hends⟩ := failAt_ends h1
    rw [List.append_nil]
    refine ⟨sample, hsamples, .inr ⟨fun hshows => ?_, hends⟩⟩
    rw [hclean.mpr hshows] at hfails
    cases hfails
  case isFalse hpasses =>
    obtain ⟨rfl, rfl, rfl⟩ := acts_pure.mp h1
    rw [List.append_nil]
    exact ⟨sample, hsamples, .inl ⟨hclean.mp (by simpa using hpasses), rfl, rfl⟩⟩

/-- A response is recorded as it is read, with zeros for the registers that are not. -/
theorem readResponse_answers (hzero : d.last.response = Vector.replicate 4 0)
    (h : Acts (readResponse word) d t r d') :
    r = .ok () ∧ (Checkpoint.command word.response).After t ∧
      d' = { d with last := { d.last with response := d'.last.response } } ∧
      d'.last.response.toList = ((responses t).map Prod.snd).takeD 4 0 := by
  unfold readResponse at h
  cases hresponse : word.response with
  | none =>
    rw [hresponse] at h
    obtain ⟨rfl, rfl, rfl⟩ := acts_pure.mp h
    refine ⟨rfl, ⟨fun _ => 0, rfl⟩, rfl, ?_⟩
    rw [hzero]
    rfl
  | short | shortBusy =>
    rw [hresponse] at h
    obtain ⟨v, t1, rfl, h1⟩ := acts_read_bind.mp h
    obtain ⟨rfl, rfl, rfl⟩ := acts_modify.mp h1
    exact ⟨rfl, ⟨fun _ => v, rfl⟩, rfl, rfl⟩
  | long =>
    rw [hresponse] at h
    obtain ⟨v0, t1, rfl, h1⟩ := acts_read_bind.mp h
    obtain ⟨v1, t2, rfl, h2⟩ := acts_read_bind.mp h1
    obtain ⟨v2, t3, rfl, h3⟩ := acts_read_bind.mp h2
    obtain ⟨v3, t4, rfl, h4⟩ := acts_read_bind.mp h3
    obtain ⟨rfl, rfl, rfl⟩ := acts_modify.mp h4
    let answer : Register → UInt32
      | .response0 => v0
      | .response1 => v1
      | .response2 => v2
      | _ => v3
    exact ⟨rfl, ⟨answer, rfl⟩, rfl, rfl⟩

theorem moveData_checked {blockWords : Nat} (h : Acts
      (moveData command word data blockWords (data.size / blockWords) timeout) d t r d') :
    ∃ stop, Checked (blockPoints word data blockWords) t stop ∧ EndsAt command r d' stop ∧
      (stop = none → d' = { d with last := { d.last with received := d'.last.received } }) := by
  have hblocks (h0 : data.size = 0) : data.size / blockWords = 0 := by rw [h0, Nat.zero_div]
  rw [moveData, acts_ite] at h
  unfold blockPoints
  split at h
  case isFalse hnone =>
    obtain ⟨rfl, rfl, rfl⟩ := acts_pure.mp h
    rw [if_neg hnone]
    exact ⟨none, .nil, rfl, fun _ => rfl⟩
  case isTrue hsome =>
    rw [if_pos hsome]
    rcases acts_bind.mp h with ⟨e, -, hm⟩ | ⟨t1, t2, phase, d1, rfl, hm, h1⟩
    · obtain ⟨_, hm, -⟩ := moveBlocks_checked hblocks hm
      cases hm
    obtain ⟨phase, hphase, rfl, hchecked⟩ := moveBlocks_checked hblocks hm
    obtain rfl := Except.ok.inj hphase
    have h2 := acts_modify_bind.mp h1
    cases hstop : phase.stoppedAt with
    | none =>
      rw [hstop] at h2 hchecked
      obtain ⟨rfl, rfl, rfl⟩ := acts_pure.mp h2
      rw [List.append_nil]
      exact ⟨none, hchecked, rfl, fun _ => rfl⟩
    | some sample =>
      rw [hstop] at h2 hchecked
      obtain ⟨rfl, hends⟩ := failAt_ends h2
      rw [List.append_nil]
      exact ⟨some sample, hchecked, hends,
        fun hnone => absurd hnone (Option.some_ne_none sample)⟩

theorem awaitTransfer_checked (h : Acts (awaitTransfer command word timeout) d t r d') :
    ∃ stop, Checked (completionPoints word) t stop ∧ EndsAt command r d' stop ∧
      (stop = none → d' = d) := by
  rw [awaitTransfer, acts_ite] at h
  unfold completionPoints
  split at h
  case isFalse hnone =>
    obtain ⟨rfl, rfl, rfl⟩ := acts_pure.mp h
    rw [if_neg hnone]
    exact ⟨none, .nil, rfl, fun _ => rfl⟩
  case isTrue hsome =>
    rw [if_pos hsome]
    obtain ⟨sample, t1, t2, rfl, hsamples, h1⟩ := acts_sampleStatus_bind h
    rw [acts_ite] at h1
    split at h1
    case isTrue hcomplete =>
      obtain ⟨rfl, rfl, rfl⟩ := acts_write.mp h1
      have hafter : Checkpoint.completion.After
          [writeOf .interrupt (Interrupt.errorMask ||| Interrupt.dataDone)] := rfl
      exact ⟨none, .pass (c := .completion) hsamples (isComplete_iff.mp hcomplete) hafter .nil, rfl,
        fun _ => rfl⟩
    case isFalse hfails =>
      obtain ⟨rfl, hends⟩ := failAt_ends h1
      rw [List.append_nil]
      exact ⟨some sample, .stop hsamples fun hshows => hfails (isComplete_iff.mpr hshows), hends,
        fun hnone => absurd hnone (Option.some_ne_none sample)⟩

/-- From the data phase on, a command passes its checkpoints one after the other. Where it passes
them all, only its success and the words that have arrived are recorded. -/
theorem transfer_checked {blockWords : Nat} (h : Acts (do
      moveData command word data blockWords (data.size / blockWords) timeout
      awaitTransfer command word timeout
      modifyLast fun o => { o with success := true }) d t r d') :
    ∃ stop, Checked (blockPoints word data blockWords ++ completionPoints word) t stop ∧
      EndsAt command r d' stop ∧ (stop = none → d' = { d with
        last := { d.last with success := true, received := d'.last.received } }) := by
  rcases acts_bind.mp h with ⟨e, rfl, hm⟩ | ⟨t1, t2, _, d1, rfl, hm, h1⟩
  · obtain ⟨stop, hchecked, hends, -⟩ := moveData_checked hm
    cases stop with
    | none => nomatch hends
    | some sample => exact ⟨some sample, hchecked.append_stop, hends, nofun⟩
  obtain ⟨stop, hchecked, hends, hmoved⟩ := moveData_checked hm
  cases stop with
  | some sample => nomatch hends.1
  | none =>
    rcases acts_bind.mp h1 with ⟨e, rfl, ha⟩ | ⟨t3, t4, _, d2, rfl, ha, h2⟩
    · obtain ⟨stop, hcompleted, hends, -⟩ := awaitTransfer_checked ha
      cases stop with
      | none => nomatch hends
      | some sample => exact ⟨some sample, hchecked.append hcompleted, hends, nofun⟩
    obtain ⟨stop, hcompleted, hends, hsame⟩ := awaitTransfer_checked ha
    cases stop with
    | some sample => nomatch hends.1
    | none =>
      obtain ⟨rfl, rfl, rfl⟩ := acts_modify.mp h2
      obtain rfl := hsame rfl
      rw [List.append_nil]
      refine ⟨none, hchecked.append hcompleted, rfl, fun _ => ?_⟩
      rw [hmoved rfl]

/-- What is recorded of a command that has not failed, whose requests were those of `t`. -/
structure RecordsSuccess (command : Command) (t : History) (o : Outcome) : Prop where
  command : o.command = some command
  success : o.success = true
  error : o.error = 0
  interrupt : o.interrupt = 0
  response : o.response.toList = ((responses t).map Prod.snd).takeD 4 0

/-- A command passes its checkpoints one after the other, and fails at the first one that it does
not pass. -/
theorem start_checked {argument : UInt32}
    (h : Acts (start command word argument timeout data) d t r d') :
    ∃ after stop, t = opening d word argument data ++ after ∧
      Checked (checkpoints word data d.blockWords) after stop ∧
      EndsAt command r d' stop ∧ (stop = none → RecordsSuccess command after d'.last) := by
  obtain ⟨after, rfl, h1⟩ := start_opens h
  rcases acts_bind.mp h1 with ⟨e, rfl, hc⟩ | ⟨t1, t2, _, d1, rfl, hc, h2⟩
  · obtain ⟨sample, hsamples, ⟨-, hok, -⟩ | ⟨hfails, hends⟩⟩ := awaitCommand_checked hc
    · cases hok
    · exact ⟨after, some sample, rfl, .stop hsamples hfails, hends, nofun⟩
  obtain ⟨sample, hsamples, ⟨hshows, -, rfl⟩ | ⟨-, hends⟩⟩ := awaitCommand_checked hc
  case inr => nomatch hends.1
  rcases acts_bind.mp h2 with ⟨e, rfl, hr⟩ | ⟨t3, t4, _, d2, rfl, hr, h3⟩
  · nomatch (readResponse_answers rfl hr).1
  obtain ⟨-, hanswered, hread, hresponse⟩ := readResponse_answers rfl hr
  obtain ⟨stop, hchecked, hends, hmoved⟩ := transfer_checked h3
  refine ⟨_, stop, rfl, .pass hsamples hshows hanswered hchecked, hends, ?_⟩
  rintro rfl
  -- No response register is read after the response.
  have hlater : responses t4 = [] :=
    List.map_eq_nil_iff.mp (hchecked.responses.trans (registers_later _ _ _))
  rw [hmoved rfl, hread]
  refine ⟨rfl, rfl, rfl, rfl, ?_⟩
  rw [responses_append, responses_append, hsamples.responses, hlater, List.nil_append,
    List.append_nil]
  exact hresponse

end Phases

end Peripherals.Sd
