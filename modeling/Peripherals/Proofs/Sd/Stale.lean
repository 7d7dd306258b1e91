import Peripherals.Proofs.Sd.Sweep

/-! Status bits that are left over from an earlier command. A sweep acknowledges them all at its
end, so that none is pending when the command behind it is started. The request for the status of a
card that interrupts comes before that: it is started while everything is pending still. -/

namespace Peripherals.Sd

variable {command : Command} {argument timeout : UInt32} {data : Transfer} {d d' : Driver}
  {t : History} {sample : UInt32} {r : Except Error Unit}

/-- What a sample shows that could pass for the completion or the failure of a command. -/
def outcomeBits (sample : UInt32) : UInt32 :=
  sample &&& (Interrupt.commandDone ||| Interrupt.dataDone ||| bufferBits |||
    if hasBits sample Interrupt.error then Interrupt.errorMask else 0)

/-- One of the writes clears everything in the sample that could pass for an outcome. -/
def Acknowledged (sample : UInt32) (t : History) : Prop :=
  ∃ v, writeOf .interrupt v ∈ t ∧ outcomeBits sample &&& ~~~v = 0

/-- What is pending after a request of the bits that were pending before. A bit is cleared by
writing it. -/
def pendingAfter (bits : UInt32) : Exchange port → UInt32
  | writeOf .interrupt v => bits &&& ~~~v
  | _ => bits

/-- What is still pending after a history of the bits that were pending before. -/
def pending (bits : UInt32) (t : History) : UInt32 := t.foldl pendingAfter bits

section Pending

variable {bits v : UInt32}

theorem pendingAfter_within (e : Exchange port) (h : bits &&& ~~~v = 0) :
    pendingAfter bits e &&& ~~~v = 0 := by
  unfold pendingAfter
  split
  · rw [UInt32.and_assoc, UInt32.and_comm (~~~_), ← UInt32.and_assoc, h, UInt32.zero_and]
  · exact h

theorem pending_zero (t : History) : pending 0 t = 0 := by
  induction t with
  | nil => rfl
  | cons e t ih =>
    have hnone : pendingAfter 0 e = 0 := by
      unfold pendingAfter
      split
      · exact UInt32.zero_and
      · rfl
    rwa [pending, List.foldl_cons, hnone]

/-- Of bits that are all written at once, none stays pending. -/
theorem pending_cleared (hmem : writeOf .interrupt v ∈ t) (h : bits &&& ~~~v = 0) :
    pending bits t = 0 := by
  induction t generalizing bits with
  | nil => nomatch hmem
  | cons e t ih =>
    rw [pending, List.foldl_cons]
    rcases List.mem_cons.mp hmem with rfl | hmem
    · show pending (bits &&& ~~~v) t = 0
      rw [h, pending_zero]
    · exact ih hmem (pendingAfter_within e h)

theorem pending_unwritten (h : ∀ v, writeOf .interrupt v ∉ t) : pending bits t = bits := by
  induction t with
  | nil => rfl
  | cons e t ih =>
    have hsame : pendingAfter bits e = bits := by
      unfold pendingAfter
      split
      · exact absurd List.mem_cons_self (h _)
      · rfl
    rw [pending, List.foldl_cons, hsame]
    exact ih fun v hmem => h v (List.mem_cons_of_mem e hmem)

end Pending

theorem commands_of_unwritten (h : ∀ w, writeOf .command w ∉ t) : commands t = [] := by
  by_contra hsome
  obtain ⟨t1, w, t2, rfl⟩ := exists_command hsome
  exact h w (by simp)

theorem opening_started {word : CommandWord} {w : UInt32} {before after : History}
    (hsilent : commands t = [])
    (h : opening d word argument data ++ t = before ++ writeOf .command w :: after) :
    before = (opening d word argument data).take 2 ∧ w = word.bits := by
  have hstarted : (opening d word argument data).take 2 ++ writeOf .command word.bits :: t =
      before ++ writeOf .command w :: after := h
  have hlast : w ∉ commands t := by simp [hsilent]
  obtain ⟨hbefore, hword, -⟩ := started_once List.not_mem_nil hlast hstarted
  exact ⟨hbefore, hword⟩

/-- Before it asks for the status of a card, a sweep writes nothing but a reset of the data lines.
-/
theorem spared {before : History} {reg : Register} (v : UInt32) (hreg : reg ≠ .control1)
    (h : if hasBits sample bufferBits then ResetsData before else registerWrites before = []) :
    writeOf reg v ∉ before := by
  rw [← mem_registerWrites]
  split at h
  · obtain ⟨first, w, last, rfl, hfirst, hlast⟩ := h
    have hwrites : registerWrites (first ++ readOf .control1 w ::
        writeOf .control1 (w ||| Control1.resetData) :: last) =
        [(.control1, w ||| Control1.resetData)] := by
      rw [registerWrites_append, hfirst, List.nil_append]
      exact congrArg _ hlast
    simp [hwrites, hreg]
  · simp [h]

theorem outcomeBits_acknowledged (sample : UInt32) :
    outcomeBits sample &&& ~~~acknowledgement sample = 0 := by
  have hsplit (low high : UInt32) : sample &&& (0x1FF &&& low ||| high) &&&
      ~~~(sample &&& 0x1FF ||| high) = 0 := by
    apply UInt32.toBitVec_inj.mp
    ext i
    simp only [UInt32.toBitVec_and, UInt32.toBitVec_or, UInt32.toBitVec_not, UInt32.toBitVec_ofNat,
      BitVec.getElem_and, BitVec.getElem_or, BitVec.getElem_not, BitVec.getElem_zero]
    grind
  exact hsplit 0x33 _

/-- The command does not exist, or moves too many blocks. -/
def Invalid (command : Command) (data : Transfer) (d : Driver) : Prop :=
  command.word.isReserved = true ∨ maxBlocks < data.size / d.blockWords

/-- A command begins with a sweep, unless it is invalid. What the sweep acknowledges it acknowledges
before the command is started, but after it has served the card. -/
theorem issue_swept (h : Acts (issue command argument timeout data) d t r d') :
    Invalid command data d ∧ commands t = [] ∨ ∃ sample before served closing given,
      t = readOf .interrupt sample :: (before ++ (served ++ (closing ++ given))) ∧
      (∀ v, writeOf .interrupt v ∉ before) ∧ commands before = [] ∧
      (if hasBits sample Interrupt.card = true ∧ d.card.rca ≠ 0 then
          ∃ settled,
            served = opening d Command.sendStatus.word d.card.rcaArgument .none ++ settled ∧
            commands settled = []
        else served = []) ∧
      writeOf .interrupt (acknowledgement sample) ∈ closing ∧ commands closing = [] := by
  by_cases hvalid : command.word.isReserved = false ∧ data.size / d.blockWords ≤ maxBlocks
  case neg =>
    obtain ⟨hrefused, -⟩ := issue_refused hvalid h
    refine .inl ⟨?_, commands_of_quiet (refuseInvalid_acts hrefused).1⟩
    by_contra hnot
    obtain ⟨hexists, hfits⟩ := not_or.mp hnot
    exact hvalid ⟨Bool.eq_false_iff.mpr hexists, Nat.not_lt.mp hfits⟩
  obtain ⟨swept, given, d1, rfl, hs, -⟩ := issue_acts hvalid.1 hvalid.2 h
  obtain ⟨-, sample, before, served, after, rfl, hbefore, hserved, hafter⟩ := sweep_requests hs
  have hsilent : commands before = [] := commands_of_unwritten fun w =>
    spared w nofun hbefore
  refine .inr ⟨sample, before, served, after ++ [writeOf .interrupt (acknowledgement sample)],
    given, by simp, fun v => spared v nofun hbefore, hsilent, ?_, by simp, ?_⟩
  · split
    · rename_i hasks
      rw [if_pos hasks] at hserved
      obtain ⟨r1, hstart⟩ := hserved.runs
      obtain ⟨settled, rfl, hsettled⟩ := start_commands hstart
      exact ⟨settled, rfl, hsettled⟩
    · rename_i hnone
      rw [if_neg hnone] at hserved
      exact hserved.1
  · refine commands_of_unwritten fun w hmem => ?_
    rw [← mem_registerWrites, registerWrites_append, hafter] at hmem
    nomatch hmem

/-- No command is started while a status bit is pending that the sweep has seen and that could pass
for its outcome, save the one for the status of a card that interrupts. That one is started before
anything is acknowledged, and everything that was sampled is pending still. -/
theorem stale_status_acknowledged (h : Acts (issue command argument timeout data) d t r d') :
    Invalid command data d ∧ commands t = [] ∨ ∃ sample t', t = readOf .interrupt sample :: t' ∧
      ∀ before w after, t' = before ++ writeOf .command w :: after →
        if hasBits sample Interrupt.card = true ∧ d.card.rca ≠ 0 ∧ commands before = [] then
          w = Command.sendStatus.word.bits ∧ (∀ v, writeOf .interrupt v ∉ before) ∧
            pending sample before = sample
        else Acknowledged sample before ∧ pending (outcomeBits sample) before = 0 := by
  rcases issue_swept h with hrefused |
    ⟨sample, swept, served, closing, given, rfl, hunwritten, hswept, hserved, hack, hclosing⟩
  · exact .inl hrefused
  refine .inr ⟨sample, _, rfl, fun before w after heq => ?_⟩
  rcases append_eq_split heq with ⟨middle, rfl, -⟩ | ⟨before, rfl, heq1⟩
  · simp at hswept
  rcases append_eq_split heq1 with ⟨middle, hearly, -⟩ | ⟨before, rfl, heq2⟩
  · -- The command is the one by which the sweep serves the card.
    by_cases hasks : hasBits sample Interrupt.card = true ∧ d.card.rca ≠ 0
    case neg =>
      rw [if_neg hasks] at hserved
      rw [hserved] at hearly
      simp at hearly
    rw [if_pos hasks] at hserved
    obtain ⟨settled, rfl, hsettled⟩ := hserved
    obtain ⟨rfl, rfl⟩ := opening_started hsettled hearly
    have hearlier : ∀ v, writeOf .interrupt v ∉
        swept ++ (opening d Command.sendStatus.word d.card.rcaArgument .none).take 2 := by
      simp [hunwritten, opening]
    rw [if_pos ⟨hasks.1, hasks.2, by rw [commands_append, hswept]; rfl⟩]
    exact ⟨rfl, hearlier, pending_unwritten hearlier⟩
  rcases append_eq_split heq2 with ⟨middle, rfl, -⟩ | ⟨before, rfl, -⟩
  · simp at hclosing
  -- The command is started after the sweep.
  have hwritten : writeOf .interrupt (acknowledgement sample) ∈
      swept ++ (served ++ (closing ++ before)) := by simp [hack]
  rw [if_neg]
  · exact ⟨⟨_, hwritten, outcomeBits_acknowledged sample⟩,
      pending_cleared hwritten (outcomeBits_acknowledged sample)⟩
  · rintro ⟨hbit, hrca, hfirst⟩
    rw [if_pos ⟨hbit, hrca⟩] at hserved
    obtain ⟨settled, rfl, -⟩ := hserved
    rw [commands_append, List.append_assoc, commands_opening] at hfirst
    simp at hfirst

/-- What an interrupted transfer has left over is acknowledged before the next command. -/
theorem stale_status_acknowledged_once :
    ∃ t d' before w after, Acts (issue .sendStatus 0 commandTimeout .none) addressed t (.ok ()) d' ∧
      t = readOf .interrupt 0x33 :: (before ++ writeOf .command w :: after) ∧
      Acknowledged 0x33 before ∧ pending (outcomeBits 0x33) before = 0 := by
  obtain ⟨t, r, d', hrun, hends⟩ : ∃ t r d',
      Acts (issue .sendStatus 0 commandTimeout .none) addressed t r d' ∧
        (r.toBool && firstSample? t == some 0x33) = true :=
    exists_runs (P := fun t (r : Except Error Unit) _ => r.toBool && firstSample? t == some 0x33)
      (by decide +kernel : ((Prog.run (promptCard []) (StateT.run _ _) 0).any _) = true)
  obtain ⟨hok, hfirst⟩ := Bool.and_eq_true_iff.mp hends
  cases r with
  | error => nomatch hok
  | ok =>
    have hcommanded : commands t ≠ [] := issue_commands hrun
    rcases stale_status_acknowledged hrun with ⟨-, hsilent⟩ | ⟨sample, t', rfl, hall⟩
    · exact absurd hsilent hcommanded
    obtain rfl : sample = 0x33 := by simpa [firstSample?] using hfirst
    obtain ⟨before, w, after, rfl⟩ := exists_command (t := t') hcommanded
    have hcase := hall before w after rfl
    rw [if_neg (fun hboth => absurd hboth.1 (by decide))] at hcase
    exact ⟨_, d', before, w, after, hrun, rfl, hcase⟩

/-- The request for the status of a card that interrupts is started before a completion that is left
over has been acknowledged. -/
theorem card_served_unacknowledged :
    ¬ ∀ (config : Config) (d : Driver), Reachable config d →
      ∀ command argument timeout data t r d', Acts (issue command argument timeout data) d t r d' →
        ∀ sample t', t = readOf .interrupt sample :: t' →
          ∀ before w after, t' = before ++ writeOf .command w :: after →
            Acknowledged sample before := by
  intro hacknowledges
  obtain ⟨t0, r0, d, t, r, d', hreset, hrun, hends⟩ : ∃ t0 r0 d t r d',
      Acts (cardReset {}) {} t0 r0 d ∧ Acts (issue .sendStatus 0 commandTimeout .none) d t r d' ∧
        (d.card.rca != 0 && (firstSample? t == some 0x133 && !(commands t).isEmpty)) = true :=
    exists_runs_after (promptCard [.ioSetOpCond]) 0 (promptCard [] Interrupt.card) 0
      (P := fun d t _ =>
        d.card.rca != 0 && (firstSample? t == some 0x133 && !(commands t).isEmpty))
      (by decide +kernel)
  obtain ⟨hrca, hends⟩ := Bool.and_eq_true_iff.mp hends
  obtain ⟨hfirst, hcommanded⟩ := Bool.and_eq_true_iff.mp hends
  have hreachable : Reachable {} d := (reachable_start {}).step (o := .cardReset) hreset
  rcases issue_swept hrun with ⟨-, hsilent⟩ |
    ⟨sample, before, asked, closing, given, rfl, hunwritten, -, hasked, -⟩
  · simp [hsilent] at hcommanded
  obtain rfl : sample = 0x133 := by simpa [firstSample?] using hfirst
  rw [if_pos ⟨by decide, by simpa using hrca⟩] at hasked
  obtain ⟨settled, rfl, -⟩ := hasked
  obtain ⟨v, hmem, -⟩ := hacknowledges {} d hreachable _ _ _ _ _ _ _ hrun _ _ rfl
    (before ++ (opening d Command.sendStatus.word d.card.rcaArgument .none).take 2)
    Command.sendStatus.word.bits (settled ++ (closing ++ given)) (by simp [opening])
  simp [hunwritten, opening] at hmem

end Peripherals.Sd
