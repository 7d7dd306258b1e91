import Peripherals.Proofs.Sd.Announcement

/-! The sweep of the interrupt status in closed form. What it writes, what it changes in the driver
and whether it starts a command is all decided by the one sample that it begins with. -/

namespace Peripherals.Sd

open RegisterBlock (read write)

/-- The registers that a history writes, each with its value, in order. -/
def registerWrites (t : History) : List (Register × UInt32) :=
  t.filterMap fun
    | writeOf r v => some (r, v)
    | _ => none

/-- What a sweep acknowledges: the nine status bits below the error summary, as they were sampled,
and all error bits where the summary was. -/
def acknowledgement (sample : UInt32) : UInt32 :=
  (sample &&& 0x1FF) ||| (if hasBits sample Interrupt.error then Interrupt.errorMask else 0)

/-- The driver after a sample, which may have shown a removal. -/
def Driver.noticed (d : Driver) (sample : UInt32) : Driver :=
  { d with
    cardRemoved := d.cardRemoved || hasBits sample Interrupt.cardRemoval
    mediaChanged := d.mediaChanged || hasBits sample Interrupt.cardRemoval }

/-- The history requests a reset of the data lines, and writes no other register. -/
def ResetsData (t : History) : Prop :=
  ∃ before v after,
    t = before ++ readOf .control1 v :: writeOf .control1 (v ||| Control1.resetData) :: after ∧
      registerWrites before = [] ∧ registerWrites after = []

/-- A SEND_STATUS to the address that the driver holds. It may fail, resets nothing, and changes
only the record of the last command. -/
structure ServesCard (d : Driver) (t : History) (d' : Driver) : Prop where
  runs : ∃ r, Acts (start .sendStatus Command.sendStatus.word d.card.rcaArgument commandTimeout
    .none) d t r d'
  once (a : UInt32) : orders a t = [order .sendStatus d.card.rcaArgument]
  spares (v : UInt32) : writeOf .control1 v ∉ t
  onlyLast : OnlyLast d d'

section Parts

variable {d d' : Driver} {t t1 t2 : History} {sample : UInt32} {r : Except Error Unit}

theorem registerWrites_append :
    registerWrites (t1 ++ t2) = registerWrites t1 ++ registerWrites t2 :=
  List.filterMap_append

theorem mem_registerWrites {reg : Register} {v : UInt32} :
    (reg, v) ∈ registerWrites t ↔ writeOf reg v ∈ t := by
  rw [registerWrites, List.mem_filterMap]
  constructor
  · rintro ⟨e, he, hwrite⟩
    split at hwrite
    · cases hwrite
      exact he
    · nomatch hwrite
  · intro hmem
    exact ⟨_, hmem, rfl⟩

/-- Requests that write no register. -/
theorem composes_unwritten : Composes fun _ t _ => registerWrites t = [] where
  refl _ := rfl
  trans h1 h2 := by rw [registerWrites_append, h1, h2, List.append_nil]

theorem noticeStale_unwritten (h : Acts (noticeStale (sample &&& Interrupt.named)) d t r d') :
    registerWrites t = [] := by
  rw [noticeStale, acts_ite] at h
  split at h
  · obtain ⟨rfl, -⟩ := acts_report.mp h
    rfl
  · obtain ⟨rfl, -⟩ := acts_pure.mp h
    rfl

theorem resetLine_writes {reset : UInt32} (h : Acts (resetLine reset) d t r d') :
    ∃ v after, t = readOf .control1 v :: writeOf .control1 (v ||| reset) :: after ∧
      registerWrites after = [] := by
  rw [resetLine, RegisterBlock.setBits, bind_assoc] at h
  obtain ⟨v, t1, rfl, h1⟩ := acts_read_bind.mp h
  obtain ⟨after, rfl, h2⟩ := acts_write_bind.mp h1
  refine ⟨v, after, rfl, ?_⟩
  have hwait : Keeps (fun _ t _ => registerWrites t = [])
      (waitRegister .control1 reset false lineResetTimeout).run :=
    composes_unwritten.waitRegister (fun _ _ => rfl) (fun _ _ => rfl) _ _ _
  refine (composes_unwritten.bind hwait fun result => ?_).acts h2
  cases result with
  | ok => exact composes_unwritten.pure ()
  | error =>
    exact composes_unwritten.bind (.perform fun _ _ => rfl) fun _ => composes_unwritten.throw _

theorem noticeBuffer_resets (h : Acts (noticeBuffer (sample &&& Interrupt.named)) d t r d') :
    if hasBits sample bufferBits then ResetsData t else registerWrites t = [] := by
  rw [noticeBuffer, hasBits_named rfl, acts_ite] at h
  split at h
  · rename_i hbits
    rw [if_pos hbits]
    obtain ⟨t1, rfl, h1⟩ := acts_report_bind.mp h
    -- Whether the reset takes effect makes no difference.
    obtain ⟨t2, t3, result, d1, rfl, hreset, h2⟩ := acts_observe_bind.mp h1
    obtain ⟨rfl, -⟩ := acts_pure.mp h2
    obtain ⟨v, after, rfl, hafter⟩ := resetLine_writes hreset
    exact ⟨[noteOf .spuriousBuffer], v, after, by simp, rfl, hafter⟩
  · rename_i hbits
    rw [if_neg hbits]
    obtain ⟨rfl, -⟩ := acts_pure.mp h
    rfl

theorem noticeRemoval_noticed (h : Acts (noticeRemoval (sample &&& Interrupt.named)) d t r d') :
    d' = d.noticed sample ∧ registerWrites t = [] := by
  obtain ⟨-, hnotice⟩ := noticeRemoval_acts h
  rw [hasBits_named rfl] at hnotice
  rcases hnotice with ⟨hshown, rfl, rfl⟩ | ⟨hnone, rfl, rfl⟩
  · exact ⟨by simp [Driver.noticed, hshown], rfl⟩
  · exact ⟨by simp [Driver.noticed, hnone], rfl⟩

theorem acknowledge_writes (h : Acts (acknowledge (sample &&& Interrupt.named)) d t r d') :
    ∃ notes, t = notes ++ [writeOf .interrupt (acknowledgement sample)] ∧
      registerWrites notes = [] := by
  have hseen : (sample &&& Interrupt.named) &&& (staleBits ||| bufferBits |||
      Interrupt.cardRemoval ||| Interrupt.card) = sample &&& 0x1FF := by
    rw [UInt32.and_assoc]
    rfl
  rw [acknowledge, hasBits_named rfl, hseen, acts_ite] at h
  rw [acknowledgement]
  split at h
  · rename_i herror
    rw [if_pos herror]
    obtain ⟨t1, rfl, h1⟩ := acts_report_bind.mp h
    obtain ⟨rfl, -⟩ := acts_write.mp h1
    exact ⟨[_], rfl, rfl⟩
  · rename_i herror
    rw [if_neg herror, UInt32.or_zero]
    obtain ⟨rfl, -⟩ := acts_write.mp h
    exact ⟨[], rfl, rfl⟩

/-- Of the lower half of the register the nine status bits are acknowledged that were sampled, and
no other. -/
theorem acknowledgement_status (sample : UInt32) :
    acknowledgement sample &&& 0xFFFF = sample &&& 0x1FF := by
  have hlow : sample &&& 0x1FF &&& 0xFFFF = sample &&& 0x1FF := by
    rw [UInt32.and_assoc]
    rfl
  rw [acknowledgement, Word.or_and, hlow]
  split
  · exact UInt32.or_zero
  · exact UInt32.or_zero

theorem sendStatus_spares {rca timeout : UInt32} {data : Transfer}
    (h : Acts (start .sendStatus Command.sendStatus.word rca timeout data) d t r d') (v : UInt32) :
    writeOf .control1 v ∉ t := by
  obtain ⟨sample, wait, rest, rfl, ⟨polls, rfl, hpolls⟩, hrest⟩ := start_plain rfl h
  have hread : writeOf .control1 v ∉ rest := by
    rcases hrest with ⟨-, -, _, _, hr⟩ | ⟨-, rfl, -⟩
    · obtain ⟨_, rfl, -⟩ := readResponse_short (.inl rfl) hr
      simp
    · exact List.not_mem_nil
  have hpolled : writeOf .control1 v ∉ polls := fun hmem => hpolls _ hmem
  simp [opening, hread, hpolled]

theorem noticeCard_writes (h : Acts (noticeCard (sample &&& Interrupt.named)) d t r d') :
    ∃ served notes, t = served ++ notes ∧ registerWrites notes = [] ∧
      if hasBits sample Interrupt.card = true ∧ d.card.rca ≠ 0 then ServesCard d served d'
      else served = [] ∧ d' = d := by
  obtain ⟨-, hserves⟩ := noticeCard_serves h
  rw [hasBits_named rfl] at hserves
  rcases hserves with ⟨hbit, hrca, served, n, r1, rfl, -, hstart⟩ | ⟨hnone, hnotes, rfl⟩
  · refine ⟨served, _, rfl, rfl, ?_⟩
    rw [if_pos ⟨hbit, hrca⟩]
    exact ⟨⟨r1, hstart⟩, orders_start hstart, sendStatus_spares hstart, start_onlyLast hstart⟩
  · refine ⟨[], t, rfl, ?_, ?_⟩
    · rcases hnotes with rfl | rfl
      · rfl
      · rfl
    · rw [if_neg hnone]
      exact ⟨rfl, rfl⟩

theorem sweep_requests (h : Acts sweep d t r d') :
    r = .ok () ∧ ∃ sample before served after,
      t = readOf .interrupt sample ::
        (before ++ (served ++ (after ++ [writeOf .interrupt (acknowledgement sample)]))) ∧
      (if hasBits sample bufferBits then ResetsData before else registerWrites before = []) ∧
      (if hasBits sample Interrupt.card = true ∧ d.card.rca ≠ 0 then
          ServesCard (d.noticed sample) served d'
        else served = [] ∧ d' = d.noticed sample) ∧
      registerWrites after = [] := by
  obtain ⟨hr, sample, stale, buffer, noted, served, closing, d1, rfl, hs, hb, hn, hc, ha⟩ :=
    sweep_parts h
  have hstale := noticeStale_unwritten hs
  have hbuffer := noticeBuffer_resets hb
  obtain ⟨rfl, hnoted⟩ := noticeRemoval_noticed hn
  obtain ⟨asked, notes, rfl, hnotes, hasked⟩ := noticeCard_writes hc
  obtain ⟨errors, rfl, herrors⟩ := acknowledge_writes ha
  refine ⟨hr, sample, stale ++ (buffer ++ noted), asked, notes ++ errors, by simp, ?_, hasked, ?_⟩
  · split
    · rename_i hbits
      rw [if_pos hbits] at hbuffer
      obtain ⟨first, v, last, rfl, hfirst, hlast⟩ := hbuffer
      refine ⟨stale ++ first, v, last ++ noted, by simp, ?_, ?_⟩
      · rw [registerWrites_append, hstale, hfirst, List.nil_append]
      · rw [registerWrites_append, hlast, hnoted, List.nil_append]
    · rename_i hbits
      rw [if_neg hbits] at hbuffer
      rw [registerWrites_append, registerWrites_append, hstale, hbuffer, hnoted]
      rfl
  · rw [registerWrites_append, hnotes, herrors, List.nil_append]

end Parts

/-- A sweep never fails. It ends with one acknowledgement of what its sample shows. On the way it
resets the data lines exactly if a data port was ready, and sends SEND_STATUS exactly if the card
interrupts and has an address. A removal is all that it notes in the driver, but for the record of
that command. -/
theorem sweep_closed_form (d : Driver) :
    CompletesFrom (fun _ => True) sweep d ∧
    ∀ t r d', Acts sweep d t r d' → r = .ok () ∧ ∃ sample before served after,
      t = readOf .interrupt sample ::
        (before ++ (served ++ (after ++ [writeOf .interrupt (acknowledgement sample)]))) ∧
      acknowledgement sample &&& 0xFFFF = sample &&& 0x1FF ∧
      (if hasBits sample bufferBits then ResetsData before else registerWrites before = []) ∧
      (if hasBits sample Interrupt.card = true ∧ d.card.rca ≠ 0 then
          ServesCard (d.noticed sample) served d'
        else served = [] ∧ d' = d.noticed sample) ∧
      registerWrites after = [] := by
  refine ⟨sweep_completes (by simp) d, fun t r d' h => ?_⟩
  obtain ⟨hr, sample, before, served, after, ht, hbefore, hserved, hafter⟩ := sweep_requests h
  exact ⟨hr, sample, before, served, after, ht, acknowledgement_status sample, hbefore, hserved,
    hafter⟩

/-- The sample that a history begins with. -/
def firstSample? : History → Option UInt32
  | readOf .interrupt v :: _ => some v
  | _ => none

/-- A card that has been removed as it interrupts, after an error and with stale status bits. -/
theorem sweep_closed_form_removed :
    ∃ t d' before served after, Acts sweep addressed t (.ok ()) d' ∧
      t = readOf .interrupt 0x81B3 ::
        (before ++ (served ++ (after ++ [writeOf .interrupt 0xFFFF01B3]))) ∧
      ResetsData before ∧ ServesCard (addressed.noticed 0x81B3) served d' := by
  obtain ⟨t, r, d', hrun, hfirst⟩ : ∃ t r d', Acts sweep addressed t r d' ∧
      (firstSample? t == some 0x81B3) = true :=
    exists_runs (P := fun t _ _ => firstSample? t == some 0x81B3)
      (by decide +kernel : ((Prog.run (promptCard [] 0x8180) (StateT.run _ _) 0).any _) = true)
  obtain ⟨hok, sample, before, served, after, rfl, -, hreset, hserved, -⟩ :=
    (sweep_closed_form addressed).2 t r d' hrun
  obtain rfl : sample = 0x81B3 := by simpa [firstSample?] using hfirst
  subst hok
  rw [if_pos (by decide)] at hreset
  rw [if_pos (by decide)] at hserved
  exact ⟨_, d', before, served, after, hrun, rfl, hreset, hserved⟩

end Peripherals.Sd
