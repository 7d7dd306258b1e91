import Peripherals.Proofs.Cell
import Peripherals.Proofs.Sd.Sweep

/-! The switch to four data lines. Card interrupts are masked while the card is asked, and the mask
is restored however that ends. The controller widens its side only after the card has widened its
own. -/

namespace Peripherals.Sd

open RegisterBlock (read write setBits)

variable {command : Command} {argument timeout mask value : UInt32} {data : Transfer}
  {d d' : Driver} {t t1 t2 : History} {r : Except Error Unit} {e : Exchange port}

/-! ### How the card is asked -/

/-- A command that one sample decides, with its end. -/
def Tried (d : Driver) (command : Command) (argument : UInt32) (t : History)
    (r : Except Error Unit) : Prop :=
  ∃ sample wait rest, t = opening d command.word argument .none ++ (wait ++ rest) ∧
    Awaits sample wait ∧
    (ShowsDone sample ∧ r = .ok () ∧ (∃ v, rest = [readOf .response0 v]) ∨
      ¬ShowsDone sample ∧ rest = [] ∧ r = .error (reason command sample))

/-- What follows the sweep: nothing where the card has been removed, an announcement that fails, or
an announcement with the command itself, which fails or succeeds. -/
inductive Widening (d : Driver) : History → Except Error Unit → Prop
  | removed : d.cardRemoved = true → Widening d [] (.error .cardRemoved)
  | unannounced {t : History} {e : Error} : d.cardRemoved = false →
    Tried d .appCommand d.card.rcaArgument t (.error e) → Widening d t (.error e)
  | failed {t1 t2 : History} {e : Error} {n : UInt32} : d.cardRemoved = false →
    Tried d .appCommand d.card.rcaArgument t1 (.ok ()) →
    Tried d .setBusWidth wideBusArgument t2 (.error e) →
    Widening d (t1 ++ (t2 ++ [noteOf (.commandFailed e n)])) (.error e)
  | done {t1 t2 : History} : d.cardRemoved = false →
    Tried d .appCommand d.card.rcaArgument t1 (.ok ()) →
    Tried d .setBusWidth wideBusArgument t2 (.ok ()) → Widening d (t1 ++ t2) (.ok ())

theorem start_tried (hplain : command.word.waitsForTransfer = false)
    (hshort : command.word.response = .short ∨ command.word.response = .shortBusy)
    (h : Acts (start command command.word argument timeout .none) d t r d') :
    Tried d command argument t r := by
  obtain ⟨sample, wait, rest, ht, hawaits, hdone | ⟨hfault, hrest, hr, -⟩⟩ :=
    start_short hplain hshort h
  · exact ⟨sample, wait, rest, ht, hawaits, .inl hdone⟩
  · exact ⟨sample, wait, rest, ht, hawaits, .inr ⟨hfault, hrest, hr⟩⟩

theorem tried_of_onlyLast (hlast : OnlyLast d d') (h : Tried d' command argument t r) :
    Tried d command argument t r := by
  rwa [Tried, opening_of_onlyLast hlast] at h

theorem announced_widening (hpresent : d.cardRemoved = false) (h : Acts (do
      announce .setBusWidth timeout
      startReported .setBusWidth wideBusArgument timeout .none) d t r d') : Widening d t r := by
  rw [announce, bind_assoc, acts_get_bind, if_pos (by rfl)] at h
  rcases acts_bind.mp h with ⟨e, rfl, ha⟩ | ⟨t1, t2, _, d1, rfl, ha, h1⟩
  · exact .unannounced hpresent (start_tried rfl (.inl rfl) ha)
  have hannounced := start_tried rfl (.inl rfl) ha
  obtain ⟨t3, t4, rfl, hstart, hend⟩ := startReported_ends h1
  have htried := tried_of_onlyLast (start_onlyLast ha) (start_tried rfl (.inl rfl) hstart)
  rcases hend with ⟨rfl, rfl⟩ | ⟨e, n, rfl, rfl⟩
  · rw [List.append_nil]
    exact .done hpresent hannounced htried
  · exact .failed hpresent hannounced htried

theorem issue_widening (h : Acts (issueCommand .setBusWidth wideBusArgument timeout) d t r d') :
    ∃ swept given d1, t = swept ++ given ∧ SweptFirst d swept d1 ∧ Widening d1 given r := by
  obtain ⟨swept, given, d1, rfl, hs, ⟨hgone, rfl, rfl, -⟩ | ⟨hpresent, hgiven⟩⟩ :=
    issue_acts (by decide) (by simp [Transfer.size]) h
  · exact ⟨swept, [], d1, rfl, sweep_first hs, .removed hgone⟩
  · exact ⟨swept, given, d1, rfl, sweep_first hs, announced_widening hpresent hgiven⟩

/-! ### What is left alone meanwhile -/

/-- The exchange writes neither the interrupt mask nor the first control register. -/
def LeavesBus : Exchange port → Prop
  | writeOf .interruptMask _ | writeOf .control0 _ => False
  | _ => True

theorem leavesBus_of_unwritten (h : registerWrites t = []) (e : Exchange port) (he : e ∈ t) :
    LeavesBus e := by
  unfold LeavesBus
  split
  case h_1 v => exact absurd h (List.ne_nil_of_mem (mem_registerWrites.mpr he))
  case h_2 v => exact absurd h (List.ne_nil_of_mem (mem_registerWrites.mpr he))
  case h_3 => trivial

theorem awaits_leavesBus {sample : UInt32} (h : Awaits sample t) : ∀ e ∈ t, LeavesBus e := by
  obtain ⟨polls, rfl, hpolls⟩ := h
  have hleaves : ∀ e, Polls e → LeavesBus e := by
    intro e he
    unfold LeavesBus
    split
    case h_1 => exact he
    case h_2 => exact he
    case h_3 => trivial
  simp only [List.forall_mem_append, List.forall_mem_cons, List.not_mem_nil]
  exact ⟨fun e he => hleaves e (hpolls e he), trivial, trivial, nofun⟩

theorem opening_leavesBus {word : CommandWord} :
    ∀ e ∈ opening d word argument data, LeavesBus e := by
  simp [opening, LeavesBus]

theorem tried_leavesBus (h : Tried d command argument t r) : ∀ e ∈ t, LeavesBus e := by
  obtain ⟨sample, wait, rest, rfl, hawaits, ⟨-, -, v, rfl⟩ | ⟨-, rfl, -⟩⟩ := h
  · simp only [List.forall_mem_append]
    exact ⟨opening_leavesBus, awaits_leavesBus hawaits, by simp [LeavesBus]⟩
  · rw [List.append_nil, List.forall_mem_append]
    exact ⟨opening_leavesBus, awaits_leavesBus hawaits⟩

theorem Widening.leavesBus (h : Widening d t r) : ∀ e ∈ t, LeavesBus e := by
  cases h with
  | removed => simp
  | unannounced _ h1 => exact tried_leavesBus h1
  | failed _ h1 h2 =>
    simp only [List.forall_mem_append]
    exact ⟨tried_leavesBus h1, tried_leavesBus h2, by simp [LeavesBus]⟩
  | done _ h1 h2 =>
    rw [List.forall_mem_append]
    exact ⟨tried_leavesBus h1, tried_leavesBus h2⟩

theorem sweep_leavesBus (h : Acts sweep d t r d') : ∀ e ∈ t, LeavesBus e := by
  obtain ⟨-, sample, before, served, after, rfl, hbefore, hserved, hafter⟩ := sweep_requests h
  have hreset : ∀ e ∈ before, LeavesBus e := by
    split at hbefore
    · obtain ⟨first, v, last, rfl, hfirst, hlast⟩ := hbefore
      simp only [List.forall_mem_append, List.forall_mem_cons]
      exact ⟨leavesBus_of_unwritten hfirst, trivial, trivial, leavesBus_of_unwritten hlast⟩
    · exact leavesBus_of_unwritten hbefore
  have hasked : ∀ e ∈ served, LeavesBus e := by
    split at hserved
    · obtain ⟨r1, hstart⟩ := hserved.runs
      exact tried_leavesBus (start_tried rfl (.inl rfl) hstart)
    · simp [hserved.1]
  simp only [List.forall_mem_cons, List.forall_mem_append, List.not_mem_nil]
  exact ⟨trivial, hreset, hasked, leavesBus_of_unwritten hafter, trivial, nofun⟩

/-! ### The switch -/

def Register.cell (r : Register) : Cell port where
  read?
    | readOf r' v => if r' = r then some v else none
    | _ => none
  write?
    | writeOf r' v => if r' = r then some v else none
    | _ => none

theorem unwritten_mask (h : LeavesBus e) : Register.interruptMask.cell.write? e = none := by
  obtain ⟨o, v⟩ := e
  cases o with
  | write r w =>
    refine if_neg ?_
    rintro rfl
    exact h
  | read | delay | note | clockRate | setPower => rfl

/-- What the switch does with the answer of the card. -/
inductive Adopts : Except Error Unit → History → Prop
  | wide (control : UInt32) : Adopts (.ok ())
    [readOf .control0 control, writeOf .control0 (control ||| Control0.wideBus), noteOf .wideBus]
  | narrow (e : Error) : Adopts (.error e) [noteOf (.wideBusFailed e)]

theorem switchBusWidth_acts (h : Acts switchBusWidth d t r d') :
    r = .ok () ∧ ∃ mask asked answer adopted,
      t = [readOf .interruptMask mask, writeOf .interruptMask (mask &&& ~~~Interrupt.card)] ++
        (asked ++ (adopted ++ [writeOf .interruptMask mask])) ∧
      Acts (issueCommand .setBusWidth wideBusArgument commandTimeout) d asked answer d' ∧
      Adopts answer adopted := by
  obtain ⟨mask, t1, rfl, h1⟩ := acts_read_bind.mp h
  obtain ⟨t2, rfl, h2⟩ := acts_write_bind.mp h1
  obtain ⟨asked, t3, answer, d1, rfl, hasked, h3⟩ := acts_observe_bind.mp h2
  cases answer with
  | ok =>
    simp only [RegisterBlock.setBits, bind_assoc] at h3
    obtain ⟨control, t4, rfl, h4⟩ := acts_read_bind.mp h3
    obtain ⟨t5, rfl, h5⟩ := acts_write_bind.mp h4
    obtain ⟨t6, rfl, h6⟩ := acts_report_bind.mp h5
    obtain ⟨rfl, rfl, rfl⟩ := acts_write.mp h6
    exact ⟨rfl, mask, asked, _, _, rfl, hasked, .wide control⟩
  | error e =>
    obtain ⟨t4, rfl, h4⟩ := acts_report_bind.mp h3
    obtain ⟨rfl, rfl, rfl⟩ := acts_write.mp h4
    exact ⟨rfl, mask, asked, _, _, rfl, hasked, .narrow e⟩

theorem Adopts.writes {answer : Except Error Unit} (h : Adopts answer t) :
    (∃ v, writeOf .control0 v ∈ t) ↔ answer = .ok () := by
  cases h with
  | wide control => simp
  | narrow e => simp

/-- The mask of the interrupts is what it was, however the switch ends, and while the card is asked
it has the bit of the card cleared. The other control register is written, with the bit of the width
added, exactly if the card has taken the command. -/
theorem switchBusWidth_restores_mask (d : Driver) :
    CompletesFrom (fun _ => True) switchBusWidth d ∧
    ∀ t r d', Acts switchBusWidth d t r d' → r = .ok () ∧
      ∃ mask swept given answer adopted d1,
        t = [readOf .interruptMask mask, writeOf .interruptMask (mask &&& ~~~Interrupt.card)] ++
          (swept ++ given ++ (adopted ++ [writeOf .interruptMask mask])) ∧
        SweptFirst d swept d1 ∧ Widening d1 given answer ∧ Adopts answer adopted ∧
        ((∃ v, writeOf .control0 v ∈ t) ↔ answer = .ok ()) ∧
        ∀ value, Register.interruptMask.cell.ReadsBack value t →
          Register.interruptMask.cell.after value t = value ∧
          ∀ before after, swept ++ given = before ++ after →
            Register.interruptMask.cell.after value
              ([readOf .interruptMask mask, writeOf .interruptMask (mask &&& ~~~Interrupt.card)] ++
                before) &&& Interrupt.card = 0 := by
  refine ⟨switchBusWidth_completes (fun _ _ => trivial) d, fun t r d' h => ?_⟩
  obtain ⟨hr, mask, _, answer, adopted, rfl, hasked, hadopts⟩ := switchBusWidth_acts h
  obtain ⟨swept, given, d1, rfl, hswept, hwidening⟩ := issue_widening hasked
  have hleaves : ∀ e ∈ swept ++ given, LeavesBus e :=
    List.forall_mem_append.mpr ⟨sweep_leavesBus hswept.sweeps, hwidening.leavesBus⟩
  refine ⟨hr, mask, swept, given, answer, adopted, d1, rfl, hswept, hwidening, hadopts, ?_, ?_⟩
  · rw [← hadopts.writes]
    have hnone : ∀ v, writeOf .control0 v ∉ swept ++ given := fun v hv => hleaves _ hv
    simp only [List.mem_append] at hnone ⊢
    simp [hnone]
  · intro value hback
    obtain rfl : mask = value := hback.1
    refine ⟨by rw [Cell.after_append, Cell.after_append, Cell.after_append]; rfl, ?_⟩
    intro before after hsplit
    have hkept : ∀ e ∈ before, Register.interruptMask.cell.write? e = none := by
      intro e he
      exact unwritten_mask (hleaves e (hsplit ▸ List.mem_append_left after he))
    rw [Cell.after_append, Cell.after_eq hkept]
    show mask &&& ~~~Interrupt.card &&& Interrupt.card = 0
    rw [UInt32.and_assoc]
    exact UInt32.and_zero

/-- A card that takes the command, on a controller with all interrupts unmasked. -/
def unmaskedCard : Device port UInt32
  | .read .interruptMask, w => some (0xFFFFFFFF, w)
  | o, w => promptCard [] 0 o w

theorem switchBusWidth_restores_mask_wide : ∃ t d' d1 given,
    Acts switchBusWidth addressed t (.ok ()) d' ∧ Widening d1 given (.ok ()) ∧
      writeOf .control0 Control0.wideBus ∈ t ∧
      Register.interruptMask.cell.after 0xFFFFFFFF t = 0xFFFFFFFF := by
  obtain ⟨t, r, d', hrun, hends⟩ : ∃ t r d', Acts switchBusWidth addressed t r d' ∧
      ((registerWrites t).contains (.control0, Control0.wideBus) &&
        Register.interruptMask.cell.ReadsBack 0xFFFFFFFF t) = true :=
    exists_runs (P := fun t _ _ => (registerWrites t).contains (.control0, Control0.wideBus) &&
        Register.interruptMask.cell.ReadsBack 0xFFFFFFFF t)
      (by decide +kernel : ((Prog.run unmaskedCard (StateT.run _ _) 0).any _) = true)
  obtain ⟨hwritten, hback⟩ : (Register.control0, Control0.wideBus) ∈ registerWrites t ∧
      Register.interruptMask.cell.ReadsBack 0xFFFFFFFF t := by simpa using hends
  have hwide : writeOf .control0 Control0.wideBus ∈ t := mem_registerWrites.mp hwritten
  obtain ⟨rfl, _, _, given, answer, _, d1, -, -, hwidening, -, hiff, hmask⟩ :=
    (switchBusWidth_restores_mask addressed).2 t r d' hrun
  obtain rfl := hiff.mp ⟨_, hwide⟩
  exact ⟨t, d', d1, given, hrun, hwidening, hwide, (hmask _ hback).1⟩

end Peripherals.Sd
