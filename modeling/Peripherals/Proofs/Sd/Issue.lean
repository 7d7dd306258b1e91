import Peripherals.Proofs.Sd.Fields
import Peripherals.Proofs.Sd.Start

/-! Issuing a command: the sweep of the interrupt status in front of it notices a card that has been
removed, and what the sweep and the command keep, the whole keeps. -/

namespace Peripherals.Sd

open RegisterBlock (read write)

theorem hasBits_named {sample bits : UInt32} (hbits : Interrupt.named &&& bits = bits) :
    hasBits (sample &&& Interrupt.named) bits = hasBits sample bits := by
  rw [hasBits_and, hbits]

/-- A clean sample has the bits that it is clean for, and no error bit. -/
theorem bits_of_isClean {sample bits : UInt32} (h : isClean sample bits = true)
    (hsome : hasBits bits bits = true) (hnone : hasBits bits Interrupt.errorMask = false) :
    hasBits sample bits = true ∧ hasBits sample Interrupt.errorMask = false := by
  have hseen : sample &&& (Interrupt.errorMask ||| bits) = bits := eq_of_beq h
  have hbits : (Interrupt.errorMask ||| bits) &&& bits = bits := by
    rw [UInt32.or_comm, Word.or_and_self]
  have herror : (Interrupt.errorMask ||| bits) &&& Interrupt.errorMask = Interrupt.errorMask :=
    Word.or_and_self _ _
  constructor
  · rw [← hbits, ← hasBits_and, hseen]
    exact hsome
  · rw [← herror, ← hasBits_and, hseen]
    exact hnone

/-- A relation that everything in the course of a command keeps. A pending removal is cleared only
where a change of the medium has been recorded, and the address of the card is forgotten only where
the card has been removed. -/
structure KeepsIssue (R : Driver → History → Driver → Prop) : Prop extends KeepsTransfer R where
  noticed (d : Driver) : R d [noteOf .removed] { d with cardRemoved := true, mediaChanged := true }
  acknowledged (d : Driver) (v : UInt32) : d.mediaChanged = true → R d [writeOf .interrupt v] d
  forgotten (d : Driver) : d.cardRemoved = true →
    R d [] { d with card := { d.card with rca := 0 } }

namespace KeepsTransfer

variable {R : Driver → History → Driver → Prop}

theorem serveCardInterrupt (h : KeepsTransfer R) : Keeps R Sd.serveCardInterrupt.run := by
  refine .get fun d => .ite (h.report trivial) ?_
  refine h.bind (.observe (h.start (by simp [Transfer.isSend]) _ _ _ _)) fun result => ?_
  cases result with
  | ok => exact .get fun d => h.report trivial
  | error => exact h.report trivial

theorem announce (h : KeepsTransfer R) (command : Command) (timeout : UInt32) :
    Keeps R (Sd.announce command timeout).run :=
  .get fun d => .ite (h.start (by simp [Transfer.isSend]) _ _ _ _) (h.pure ())

theorem startReported (h : KeepsTransfer R) {data : Transfer}
    (hsent : data.isSend = true → ∀ d v, R d [writeOf .data v] d) (command : Command)
    (argument timeout : UInt32) :
    Keeps R (Sd.startReported command argument timeout data).run := by
  refine h.bind (.observe (h.start hsent command command.word argument timeout)) fun result => ?_
  cases result with
  | ok => exact h.pure ()
  | error e => exact .get fun d => h.bind (h.report trivial) fun _ => h.throw e

end KeepsTransfer

section Sweep

variable {d d' : Driver} {t : History} {status : UInt32} {r : Except Error Unit}

theorem noticeRemoval_acts (h : Acts (noticeRemoval status) d t r d') :
    r = .ok () ∧
      (hasBits status Interrupt.cardRemoval = true ∧ t = [noteOf .removed] ∧
          d' = { d with cardRemoved := true, mediaChanged := true } ∨
        hasBits status Interrupt.cardRemoval = false ∧ t = [] ∧ d' = d) := by
  unfold noticeRemoval at h
  by_cases hbit : hasBits status Interrupt.cardRemoval = true
  · rw [if_pos hbit] at h
    obtain ⟨t1, rfl, h1⟩ := acts_report_bind.mp h
    obtain ⟨rfl, rfl, rfl⟩ := acts_modify.mp h1
    exact ⟨rfl, .inl ⟨hbit, rfl, rfl⟩⟩
  · rw [if_neg hbit] at h
    obtain ⟨rfl, rfl, rfl⟩ := acts_pure.mp h
    exact ⟨rfl, .inr ⟨Bool.eq_false_iff.mpr hbit, rfl, rfl⟩⟩

theorem noticeCard_onlyLast (h : Acts (noticeCard status) d t r d') : OnlyLast d d' :=
  (Keeps.ite keepsTransfer_onlyLast.serveCardInterrupt (keepsTransfer_onlyLast.pure ())).acts h

theorem acknowledge_acts (h : Acts (acknowledge status) d t r d') :
    r = .ok () ∧ d' = d ∧ ∃ before v, t = before ++ [writeOf .interrupt v] ∧
      (∀ e ∈ before, Quiet e) ∧
      hasBits v Interrupt.cardRemoval = hasBits status Interrupt.cardRemoval := by
  have hseen : hasBits (status &&& (staleBits ||| bufferBits ||| Interrupt.cardRemoval |||
      Interrupt.card)) Interrupt.cardRemoval = hasBits status Interrupt.cardRemoval := by
    rw [hasBits_and]
    rfl
  have hmask : hasBits Interrupt.errorMask Interrupt.cardRemoval = false := rfl
  rw [acknowledge, acts_ite] at h
  split at h
  · obtain ⟨t1, rfl, h1⟩ := acts_report_bind.mp h
    obtain ⟨rfl, rfl, rfl⟩ := acts_write.mp h1
    refine ⟨rfl, rfl, [noteOf (.spuriousError status)], _, rfl, by simp [Quiet], ?_⟩
    rw [hasBits_or, hseen, hmask, Bool.or_false]
  · obtain ⟨rfl, rfl, rfl⟩ := acts_write.mp h
    exact ⟨rfl, rfl, [], _, rfl, by simp, hseen⟩

/-- A card that interrupts is asked for its status where it has an address, and what becomes of that
is reported. -/
theorem noticeCard_serves (h : Acts (noticeCard status) d t r d') :
    r = .ok () ∧
      (hasBits status Interrupt.card = true ∧ d.card.rca ≠ 0 ∧
          (∃ t1 n r1, t = t1 ++ [noteOf n] ∧ n ≠ .removed ∧
            Acts (start .sendStatus Command.sendStatus.word d.card.rcaArgument commandTimeout .none)
              d t1 r1 d') ∨
        ¬(hasBits status Interrupt.card = true ∧ d.card.rca ≠ 0) ∧
          (t = [] ∨ t = [noteOf .strayCardInterrupt]) ∧ d' = d) := by
  unfold noticeCard at h
  by_cases hbit : hasBits status Interrupt.card = true
  case neg =>
    rw [if_neg hbit] at h
    obtain ⟨rfl, rfl, rfl⟩ := acts_pure.mp h
    exact ⟨rfl, .inr ⟨fun hboth => hbit hboth.1, .inl rfl, rfl⟩⟩
  rw [if_pos hbit] at h
  have h1 := acts_get_bind.mp h
  by_cases hrca : d.card.rca = 0
  · rw [if_pos hrca] at h1
    obtain ⟨rfl, rfl, rfl⟩ := acts_report.mp h1
    exact ⟨rfl, .inr ⟨fun hboth => hboth.2 hrca, .inr rfl, rfl⟩⟩
  rw [if_neg hrca] at h1
  obtain ⟨t1, t2, result, d1, rfl, hstart, h2⟩ := acts_observe_bind.mp h1
  have hreport : r = .ok () ∧ (∃ n, t2 = [noteOf n] ∧ n ≠ .removed) ∧ d' = d1 := by
    cases result with
    | ok =>
      obtain ⟨rfl, rfl, rfl⟩ := acts_report.mp (acts_get_bind.mp h2)
      exact ⟨rfl, ⟨_, rfl, nofun⟩, rfl⟩
    | error =>
      obtain ⟨rfl, rfl, rfl⟩ := acts_report.mp h2
      exact ⟨rfl, ⟨_, rfl, nofun⟩, rfl⟩
  obtain ⟨rfl, ⟨n, rfl, hn⟩, rfl⟩ := hreport
  exact ⟨rfl, .inl ⟨hbit, hrca, t1, n, result, rfl, hn, hstart⟩⟩

theorem quiet_note {n : Note} (hn : n ≠ .removed) : Quiet (noteOf n) := by
  cases n with
  | removed => exact absurd rfl hn
  | _ => trivial

theorem noticeCard_acts (h : Acts (noticeCard status) d t r d') :
    r = .ok () ∧
      (hasBits status Interrupt.card = true ∧ d.card.rca ≠ 0 ∧
          (∃ t1 t2 r1, t = t1 ++ t2 ∧ (∀ e ∈ t2, Quiet e) ∧
            Acts (start .sendStatus Command.sendStatus.word d.card.rcaArgument commandTimeout .none)
              d t1 r1 d') ∨
        ¬(hasBits status Interrupt.card = true ∧ d.card.rca ≠ 0) ∧
          (∀ e ∈ t, Quiet e) ∧ d' = d) := by
  obtain ⟨hr, ⟨hbit, hrca, t1, n, r1, rfl, hn, hstart⟩ | ⟨hnone, ht, hd⟩⟩ := noticeCard_serves h
  · exact ⟨hr, .inl ⟨hbit, hrca, t1, _, r1, rfl, by simpa using quiet_note hn, hstart⟩⟩
  · refine ⟨hr, .inr ⟨hnone, ?_, hd⟩⟩
    rcases ht with rfl | rfl
    · simp
    · simp [Quiet]

theorem keepsQuiet_quiet : KeepsQuiet fun d t d' => d' = d ∧ ∀ e ∈ t, Quiet e where
  refl _ := ⟨rfl, by simp⟩
  trans h1 h2 := ⟨h2.1.trans h1.1, fun e he => (List.mem_append.mp he).elim (h1.2 e) (h2.2 e)⟩
  quiet _ _ he := ⟨rfl, by simpa using he⟩

theorem KeepsQuiet.noticeStale {R : Driver → History → Driver → Prop} (h : KeepsQuiet R)
    (status : UInt32) : Keeps R (Sd.noticeStale status).run :=
  .ite (h.report trivial) (h.pure ())

theorem KeepsQuiet.noticeBuffer {R : Driver → History → Driver → Prop} (h : KeepsQuiet R)
    (status : UInt32) : Keeps R (Sd.noticeBuffer status).run := by
  refine .ite (h.bind (h.report trivial) fun _ => ?_) (h.pure ())
  exact h.bind (.observe (h.resetLine _)) fun _ => h.pure ()

theorem noticeStale_succeeds : Succeeds (noticeStale status) := .ite .perform .pure

theorem noticeBuffer_succeeds : Succeeds (noticeBuffer status) :=
  .ite (.bind .perform fun _ => .bind .observe fun _ => .pure) .pure

/-- A sweep goes through its parts one after another, and fails in none. -/
theorem sweep_parts (h : Acts sweep d t r d') :
    r = .ok () ∧ ∃ (sample : UInt32) (stale buffer noted served closing : History) (d1 : Driver),
      t = readOf .interrupt sample :: (stale ++ (buffer ++ (noted ++ (served ++ closing)))) ∧
      Acts (noticeStale (sample &&& Interrupt.named)) d stale (.ok ()) d ∧
      Acts (noticeBuffer (sample &&& Interrupt.named)) d buffer (.ok ()) d ∧
      Acts (noticeRemoval (sample &&& Interrupt.named)) d noted (.ok ()) d1 ∧
      Acts (noticeCard (sample &&& Interrupt.named)) d1 served (.ok ()) d' ∧
      Acts (acknowledge (sample &&& Interrupt.named)) d' closing (.ok ()) d' := by
  obtain ⟨sample, t0, rfl, h0⟩ := acts_read_bind.mp h
  obtain ⟨stale, _, _, _, rfl, hs, h1⟩ := noticeStale_succeeds.acts_bind h0
  obtain ⟨rfl, -⟩ := (keepsQuiet_quiet.noticeStale _).acts hs
  obtain ⟨buffer, _, _, _, rfl, hb, h2⟩ := noticeBuffer_succeeds.acts_bind h1
  obtain ⟨rfl, -⟩ := (keepsQuiet_quiet.noticeBuffer _).acts hb
  rcases acts_bind.mp h2 with ⟨e, -, hn⟩ | ⟨noted, _, _, d1, rfl, hn, h3⟩
  · nomatch (noticeRemoval_acts hn).1
  rcases acts_bind.mp h3 with ⟨e, -, hc⟩ | ⟨served, closing, _, _, rfl, hc, h4⟩
  · nomatch (noticeCard_acts hc).1
  obtain ⟨rfl, rfl, -⟩ := acknowledge_acts h4
  exact ⟨rfl, sample, stale, buffer, noted, served, closing, d1, rfl, hs, hb, hn, hc, h4⟩

/-- All that a sweep does: it reads the interrupt status, notices a removal that it shows, attends
to a card that interrupts, and acknowledges what it has seen. -/
theorem sweep_acts (h : Acts sweep d t r d') :
    r = .ok () ∧ ∃ (sample v : UInt32) (before noted served after : History) (d1 : Driver),
      t = readOf .interrupt sample ::
        (before ++ (noted ++ (served ++ (after ++ [writeOf .interrupt v])))) ∧
      (∀ e ∈ before, Quiet e) ∧ (∀ e ∈ after, Quiet e) ∧
      hasBits v Interrupt.cardRemoval = hasBits sample Interrupt.cardRemoval ∧
      Acts (noticeRemoval (sample &&& Interrupt.named)) d noted (.ok ()) d1 ∧
      Acts (noticeCard (sample &&& Interrupt.named)) d1 served (.ok ()) d' := by
  obtain ⟨rfl, sample, stale, buffer, noted, served, closing, d1, rfl, hs, hb, hn, hc, ha⟩ :=
    sweep_parts h
  obtain ⟨-, hstale⟩ := (keepsQuiet_quiet.noticeStale _).acts hs
  obtain ⟨-, hbuffer⟩ := (keepsQuiet_quiet.noticeBuffer _).acts hb
  obtain ⟨-, -, after, v, rfl, hafter, hv⟩ := acknowledge_acts ha
  refine ⟨rfl, sample, v, stale ++ buffer, noted, served, after, d1, by simp, ?_, hafter,
    hv.trans (hasBits_named rfl), hn, hc⟩
  exact fun e he => (List.mem_append.mp he).elim (hstale e) (hbuffer e)

/-- A sweep after which the card is there has noticed no removal. -/
theorem sweep_onlyLast (h : Acts sweep d t r d') (hpresent : d'.cardRemoved = false) :
    OnlyLast d d' := by
  obtain ⟨-, sample, v, before, noted, served, after, d1, -, -, -, -, hn, hc⟩ := sweep_acts h
  have hcard := noticeCard_onlyLast hc
  obtain ⟨-, ⟨-, -, rfl⟩ | ⟨-, -, rfl⟩⟩ := noticeRemoval_acts hn
  · rw [hcard] at hpresent
    nomatch hpresent
  · exact hcard

end Sweep

namespace KeepsIssue

variable {R : Driver → History → Driver → Prop}

/-- The notice of a removal is recorded before it is acknowledged. -/
theorem attend (h : KeepsIssue R) (status : UInt32) :
    Keeps R (do
      Sd.noticeRemoval status
      Sd.noticeCard status
      Sd.acknowledge status : Action Unit).run := by
  intro d t r d' hx
  rcases acts_bind.mp hx with ⟨e, -, hn⟩ | ⟨t1, t2, _, d1, rfl, hn, h1⟩
  · nomatch (noticeRemoval_acts hn).1
  obtain ⟨-, hremoval⟩ := noticeRemoval_acts hn
  have hkeeps : R d t1 d1 := by
    rcases hremoval with ⟨-, rfl, rfl⟩ | ⟨-, rfl, rfl⟩
    · exact h.noticed d
    · exact h.refl d1
  have hchanged : hasBits status Interrupt.cardRemoval = true → d1.mediaChanged = true := by
    rcases hremoval with ⟨-, -, rfl⟩ | ⟨hnone, -, -⟩
    · exact fun _ => rfl
    · simp [hnone]
  have hcard : Keeps R (Sd.noticeCard status).run :=
    .ite h.toKeepsTransfer.serveCardInterrupt (h.pure ())
  refine h.trans hkeeps ?_
  rcases acts_bind.mp h1 with ⟨e, -, hc⟩ | ⟨t3, t4, _, d2, rfl, hc, h2⟩
  · exact hcard.acts hc
  refine h.trans (hcard.acts hc) ?_
  obtain ⟨-, rfl, before, v, rfl, hbefore, hv⟩ := acknowledge_acts h2
  refine h.trans (h.quietAll d' hbefore) ?_
  by_cases hbit : hasBits status Interrupt.cardRemoval = true
  · refine h.acknowledged d' v ?_
    rw [noticeCard_onlyLast hc]
    exact hchanged hbit
  · exact h.quiet d' (by rw [Quiet, hv]; simpa using hbit)

theorem sweep (h : KeepsIssue R) : Keeps R Sd.sweep.run := by
  refine h.bind (h.read fun _ => trivial) fun sample => ?_
  refine h.bind (h.noticeStale _) fun _ => h.bind (h.noticeBuffer _) fun _ => ?_
  exact h.attend _

theorem refuseInvalid (h : KeepsIssue R) (command : Command) (data : Transfer) :
    Keeps R (Sd.refuseInvalid command data).run := by
  refine .get fun d => .ite ?_ (.ite ?_ (h.pure ()))
  · exact h.bind (h.report trivial) fun _ => h.bind (.modify fun d => h.last d _) fun _ => h.throw _
  · exact h.bind (h.report trivial) fun _ => h.throw _

theorem refuseRemoved (h : KeepsIssue R) : Keeps R Sd.refuseRemoved.run := by
  intro d t r d' hx
  have h1 := acts_get_bind.mp hx
  rw [acts_ite] at h1
  split at h1
  · have hlast : Keeps R (do
        Sd.modifyLast fun o => { o with success := false, received := #[] }
        throw .cardRemoved : Action Unit).run :=
      h.bind (.modify fun d => h.last d _) fun _ => h.throw _
    exact h.trans (h.forgotten d ‹_›) (hlast.acts (acts_modify_bind.mp h1))
  · exact (h.pure ()).acts h1

theorem issue (h : KeepsIssue R) {data : Transfer}
    (hsent : data.isSend = true → ∀ d v, R d [writeOf .data v] d) (command : Command)
    (argument timeout : UInt32) : Keeps R (Sd.issue command argument timeout data).run := by
  refine h.bind (h.refuseInvalid command data) fun _ => h.bind h.sweep fun _ => ?_
  refine h.bind h.refuseRemoved fun _ => h.bind (h.announce command timeout) fun _ => ?_
  exact h.startReported hsent command argument timeout

theorem issueCommand (h : KeepsIssue R) (command : Command) (argument timeout : UInt32) :
    Keeps R (Sd.issueCommand command argument timeout).run :=
  h.issue (by simp [Transfer.isSend]) command argument timeout

end KeepsIssue

section Outcome

variable {command : Command} {argument timeout : UInt32} {data : Transfer} {d d' : Driver}
  {t : History} {r : Except Error Unit}

theorem refuseRemoved_acts (h : Acts refuseRemoved d t r d') :
    t = [] ∧ (r = .ok () ∧ d.cardRemoved = false ∧ d' = d ∨
      r = .error .cardRemoved ∧ d.cardRemoved = true ∧
        d' = { d with
          card := { d.card with rca := 0 }
          last := { d.last with success := false, received := #[] } }) := by
  have h1 := acts_get_bind.mp h
  by_cases hremoved : d.cardRemoved = true
  · rw [if_pos hremoved] at h1
    obtain ⟨rfl, rfl, rfl⟩ := acts_throw.mp (acts_modify_bind.mp (acts_modify_bind.mp h1))
    exact ⟨rfl, .inr ⟨rfl, hremoved, rfl⟩⟩
  · rw [if_neg hremoved] at h1
    obtain ⟨rfl, rfl, rfl⟩ := acts_pure.mp h1
    exact ⟨rfl, .inl ⟨rfl, Bool.eq_false_iff.mpr hremoved, rfl⟩⟩

theorem announce_onlyLast (h : Acts (announce command timeout) d t r d') : OnlyLast d d' := by
  have h1 := acts_get_bind.mp h
  rw [acts_ite] at h1
  split at h1
  · exact start_onlyLast h1
  · obtain ⟨-, -, rfl⟩ := acts_pure.mp h1
    rfl

theorem refuseInvalid_passes {f : Unit → Action Unit} (hvalid : command.word.isReserved = false)
    (hblocks : data.size / d.blockWords ≤ maxBlocks) :
    Acts (refuseInvalid command data >>= f) d t r d' ↔ Acts (f ()) d t r d' := by
  rw [refuseInvalid, bind_assoc, acts_get_bind, hvalid, if_neg Bool.false_ne_true,
    if_neg (Nat.not_lt.mpr hblocks), acts_pure_bind]

theorem announce_passes {f : Unit → Action Unit} (hplain : command.isApplication = false) :
    Acts (announce command timeout >>= f) d t r d' ↔ Acts (f ()) d t r d' := by
  rw [announce, bind_assoc, acts_get_bind, hplain, if_neg Bool.false_ne_true, acts_pure_bind]

theorem sweep_succeeds : Succeeds sweep := by
  intro d t e d' h
  nomatch (sweep_acts h).1

/-- A refused command leaves the record of the last one as it is, or an empty one of itself. -/
theorem refuseInvalid_acts (h : Acts (refuseInvalid command data) d t r d') :
    (∀ e ∈ t, Quiet e) ∧
      (r = .ok () ∧ d' = d ∧ command.word.isReserved = false ∧
          data.size / d.blockWords ≤ maxBlocks ∨
        (r = .error (.reservedCommand command) ∧ command.word.isReserved = true ∧
            d' = { d with last := { command := some command } } ∨
          r = .error .tooManyBlocks ∧ maxBlocks < data.size / d.blockWords ∧ d' = d)) := by
  have h1 := acts_get_bind.mp h
  by_cases hreserved : command.word.isReserved = true
  · rw [if_pos hreserved] at h1
    obtain ⟨t1, rfl, h2⟩ := acts_report_bind.mp h1
    obtain ⟨rfl, rfl, rfl⟩ := acts_throw.mp (acts_modify_bind.mp h2)
    exact ⟨by simp [Quiet], .inr (.inl ⟨rfl, hreserved, rfl⟩)⟩
  rw [if_neg hreserved] at h1
  by_cases hmany : maxBlocks < data.size / d.blockWords
  · rw [if_pos hmany] at h1
    obtain ⟨t1, rfl, h2⟩ := acts_report_bind.mp h1
    obtain ⟨rfl, rfl, rfl⟩ := acts_throw.mp h2
    exact ⟨by simp [Quiet], .inr (.inr ⟨rfl, hmany, rfl⟩)⟩
  rw [if_neg hmany] at h1
  obtain ⟨rfl, rfl, rfl⟩ := acts_pure.mp h1
  exact ⟨by simp, .inl ⟨rfl, rfl, Bool.eq_false_iff.mpr hreserved, Nat.le_of_not_lt hmany⟩⟩

/-- A command that exists is swept for, and then refused where the card has been removed, or
announced and started. -/
theorem issue_acts (hvalid : command.word.isReserved = false)
    (hblocks : data.size / d.blockWords ≤ maxBlocks)
    (h : Acts (issue command argument timeout data) d t r d') :
    ∃ t1 t2 d1, t = t1 ++ t2 ∧ Acts sweep d t1 (.ok ()) d1 ∧
      (d1.cardRemoved = true ∧ t2 = [] ∧ r = .error .cardRemoved ∧
          d' = { d1 with
            card := { d1.card with rca := 0 }
            last := { d1.last with success := false, received := #[] } } ∨
        d1.cardRemoved = false ∧ Acts (do
          announce command timeout
          startReported command argument timeout data) d1 t2 r d') := by
  have h1 := (refuseInvalid_passes hvalid hblocks).mp h
  obtain ⟨t1, t2, _, d1, rfl, hs, h2⟩ := sweep_succeeds.acts_bind h1
  refine ⟨t1, t2, d1, rfl, hs, ?_⟩
  rcases acts_bind.mp h2 with ⟨e, rfl, hr⟩ | ⟨t3, t4, _, d2, rfl, hr, h3⟩
  · obtain ⟨rfl, ⟨hok, -⟩ | ⟨he, hremoved, rfl⟩⟩ := refuseRemoved_acts hr
    · nomatch hok
    · exact .inl ⟨hremoved, rfl, he, rfl⟩
  · obtain ⟨rfl, ⟨-, hpresent, rfl⟩ | ⟨he, -⟩⟩ := refuseRemoved_acts hr
    · exact .inr ⟨hpresent, h3⟩
    · nomatch he

/-- A command that does not exist, or that moves too many blocks, is refused before the sweep. -/
theorem issue_refused
    (hinvalid : ¬(command.word.isReserved = false ∧ data.size / d.blockWords ≤ maxBlocks))
    (h : Acts (issue command argument timeout data) d t r d') :
    Acts (refuseInvalid command data) d t r d' ∧ ∃ e, r = .error e := by
  rcases acts_bind.mp h with ⟨e, rfl, hi⟩ | ⟨t1, t2, _, d1, rfl, hi, -⟩
  · exact ⟨hi, e, rfl⟩
  · obtain ⟨-, ⟨-, -, hvalid⟩ | ⟨he, -⟩ | ⟨he, -⟩⟩ := refuseInvalid_acts hi
    · exact absurd hvalid hinvalid
    · nomatch he
    · nomatch he

/-- A command that is started ends as it does, with a report of its failure. -/
theorem startReported_ends (h : Acts (startReported command argument timeout data) d t r d') :
    ∃ t1 t2, t = t1 ++ t2 ∧ Acts (start command command.word argument timeout data) d t1 r d' ∧
      (r = .ok () ∧ t2 = [] ∨ ∃ e n, r = .error e ∧ t2 = [noteOf (.commandFailed e n)]) := by
  obtain ⟨t1, t2, result, d1, rfl, hs, h1⟩ := acts_observe_bind.mp h
  cases result with
  | ok u =>
    obtain ⟨rfl, rfl, rfl⟩ := acts_pure.mp h1
    exact ⟨t1, [], rfl, hs, .inl ⟨rfl, rfl⟩⟩
  | error e =>
    obtain ⟨t3, rfl, h2⟩ := acts_report_bind.mp (acts_get_bind.mp h1)
    obtain ⟨rfl, rfl, rfl⟩ := acts_throw.mp h2
    exact ⟨t1, _, rfl, hs, .inr ⟨e, _, rfl, rfl⟩⟩

theorem startReported_acts (h : Acts (startReported command argument timeout data) d t r d') :
    ∃ t1 t2, t = t1 ++ t2 ∧ Acts (start command command.word argument timeout data) d t1 r d' ∧
      traffic t2 = [] ∧ (r = .ok () → t2 = []) := by
  obtain ⟨t1, t2, rfl, hs, ⟨-, rfl⟩ | ⟨e, n, rfl, rfl⟩⟩ := startReported_ends h
  · exact ⟨t1, [], rfl, hs, rfl, fun _ => rfl⟩
  · exact ⟨t1, _, rfl, hs, traffic_quiet trivial, nofun⟩

/-- What the sweep in front of a data command keeps holds until the command is started. Where it is
not started, nothing is received. -/
theorem KeepsIssue.beforeStart {R : Driver → History → Driver → Prop} (hR : KeepsIssue R)
    (hvalid : command.word.isReserved = false) (hplain : command.isApplication = false)
    (hblocks : data.size / d.blockWords ≤ maxBlocks)
    (h : Acts (Sd.issue command argument timeout data) d t r d') :
    ((∃ e, r = .error e) ∧ R d t d' ∧ d'.last.received = #[]) ∨
      ∃ before t1 t2 d1, t = before ++ (t1 ++ t2) ∧ R d before d1 ∧ d1.cardRemoved = false ∧
        Acts (Sd.start command command.word argument timeout data) d1 t1 r d' ∧
        traffic t2 = [] ∧ (r = .ok () → t2 = []) := by
  obtain ⟨ts, t2, d1, rfl, hs, h1⟩ := issue_acts hvalid hblocks h
  have hswept := hR.sweep.acts hs
  rcases h1 with ⟨hremoved, rfl, rfl, rfl⟩ | ⟨hpresent, h2⟩
  · refine .inl ⟨⟨_, rfl⟩, hR.trans hswept ?_, rfl⟩
    exact hR.trans (hR.forgotten d1 hremoved) (hR.last _ _)
  · obtain ⟨t1, t3, rfl, hstart, ht3, hok⟩ := startReported_acts ((announce_passes hplain).mp h2)
    exact .inr ⟨ts, t1, t3, d1, rfl, hswept, hpresent, hstart, ht3, hok⟩

theorem announced_onlyLast (h : Acts (do
    announce command timeout
    startReported command argument timeout data) d t r d') : OnlyLast d d' := by
  rcases acts_bind.mp h with ⟨e, -, ha⟩ | ⟨t1, t2, _, d1, rfl, ha, h1⟩
  · exact announce_onlyLast ha
  · obtain ⟨t3, t4, -, hstart, -⟩ := startReported_acts h1
    exact (announce_onlyLast ha).trans (start_onlyLast hstart)

/-- A command that fails before it is started changes only the record of the last command, or
forgets the address of a card that has been removed. After any other command the card is there. -/
theorem issue_cases (h : Acts (issue command argument timeout data) d t r d') :
    (∃ e, r = .error e) ∧ (OnlyLast d d' ∨ d'.card.rca = 0) ∨ d'.cardRemoved = false := by
  by_cases hvalid : command.word.isReserved = false ∧ data.size / d.blockWords ≤ maxBlocks
  · obtain ⟨t1, t2, d1, -, -, ⟨-, -, rfl, rfl⟩ | ⟨hpresent, h1⟩⟩ := issue_acts hvalid.1 hvalid.2 h
    · exact .inl ⟨⟨_, rfl⟩, .inr rfl⟩
    · -- Past this check no step notices a removal any more.
      right
      rw [announced_onlyLast h1]
      exact hpresent
  · obtain ⟨hi, herror⟩ := issue_refused hvalid h
    refine .inl ⟨herror, .inl ?_⟩
    obtain ⟨-, ⟨-, rfl, -⟩ | ⟨-, -, rfl⟩ | ⟨-, -, rfl⟩⟩ := refuseInvalid_acts hi
    · rfl
    · rfl
    · rfl

theorem KeepsIssue.started {R : Driver → History → Driver → Prop} (hR : KeepsIssue R) {u : Unit}
    (h : Acts (Sd.issue command argument timeout data) d t (.ok u) d') :
    ∃ t1 t2 d1, t = t1 ++ t2 ∧ R d t1 d1 ∧
      Acts (start command command.word argument timeout data) d1 t2 (.ok u) d' := by
  obtain ⟨t1, _, _, d1, rfl, hi, h1⟩ := acts_bind_ok.mp h
  obtain ⟨t2, _, _, d2, rfl, hs, h2⟩ := acts_bind_ok.mp h1
  obtain ⟨t3, _, _, d3, rfl, hr, h3⟩ := acts_bind_ok.mp h2
  obtain ⟨t4, _, _, d4, rfl, ha, h4⟩ := acts_bind_ok.mp h3
  obtain ⟨t5, t6, rfl, hstart, -, hok⟩ := startReported_acts h4
  obtain rfl := hok rfl
  have hbefore := hR.trans ((hR.refuseInvalid _ _).acts hi) (hR.sweep.acts hs)
  have hkept := hR.trans (hR.trans hbefore (hR.refuseRemoved.acts hr)) ((hR.announce _ _).acts ha)
  exact ⟨t1 ++ t2 ++ t3 ++ t4, t5, d4, by simp, hkept, hstart⟩

theorem keepsIssue_any : KeepsIssue fun _ _ _ => True where
  refl _ := trivial
  trans _ _ := trivial
  quiet _ _ _ := trivial
  last _ _ := trivial
  command _ _ := trivial
  received _ _ := trivial
  noticed _ := trivial
  acknowledged _ _ _ := trivial
  forgotten _ _ := trivial

theorem issue_started {u : Unit}
    (h : Acts (issue command argument timeout data) d t (.ok u) d') :
    d'.cardRemoved = false ∧ ∃ t1 t2 d1, t = t1 ++ t2 ∧
      Acts (start command command.word argument timeout data) d1 t2 (.ok u) d' := by
  refine ⟨(issue_cases h).resolve_left (by simp), ?_⟩
  obtain ⟨t1, t2, d1, rfl, -, hstart⟩ := keepsIssue_any.started h
  exact ⟨t1, t2, d1, rfl, hstart⟩

end Outcome

end Peripherals.Sd
