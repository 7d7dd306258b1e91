import Peripherals.Proofs.Sd.Issue

/-! The orders that a card is given: the commands of a history, each with what the argument register
holds. -/

namespace Peripherals.Sd

open RegisterBlock (read write)

/-- A command as the card receives it. -/
structure Order where
  word : UInt32
  argument : UInt32
  deriving DecidableEq, Repr

/-- What the argument register holds after a request, where it held `a` before. -/
def argumentAfter (a : UInt32) : Exchange port → UInt32
  | writeOf .argument v => v
  | _ => a

/-- The order that a request gives while the argument register holds `a`. -/
def orderOf (a : UInt32) : Exchange port → List Order
  | writeOf .command w => [⟨w, a⟩]
  | _ => []

/-- The orders of a history before which the argument register holds `a`. -/
def orders (a : UInt32) : History → List Order
  | [] => []
  | e :: t => orderOf a e ++ orders (argumentAfter a e) t

/-- The orders other than those for the status of the card. -/
def own (a : UInt32) (t : History) : List Order :=
  (orders a t).filter fun o => o.word != Command.sendStatus.word.bits

section Orders

variable {t t1 t2 : History} {a : UInt32}

theorem orders_append (a : UInt32) (t1 t2 : History) :
    orders a (t1 ++ t2) = orders a t1 ++ orders (t1.foldl argumentAfter a) t2 := by
  induction t1 generalizing a with
  | nil => rfl
  | cons e t1 ih => simp [orders, ih]

theorem own_append (a : UInt32) (t1 t2 : History) :
    own a (t1 ++ t2) = own a t1 ++ own (t1.foldl argumentAfter a) t2 := by
  simp [own, orders_append]

theorem orderOf_word (a : UInt32) (e : Exchange port) :
    (orderOf a e).map Order.word = commands [e] := by
  obtain ⟨r | ⟨r, v⟩ | _ | _ | _ | _, _⟩ := e
  case read | write => cases r <;> rfl
  all_goals rfl

theorem orders_word (a : UInt32) (t : History) : (orders a t).map Order.word = commands t := by
  induction t generalizing a with
  | nil => rfl
  | cons e t ih =>
    have hcons : commands (e :: t) = commands [e] ++ commands t := commands_append (t := [e])
    rw [orders, List.map_append, orderOf_word, ih, hcons]

theorem orders_of_silent (h : commands t = []) (a : UInt32) : orders a t = [] := by
  have hword := orders_word a t
  rw [h] at hword
  exact List.map_eq_nil_iff.mp hword

theorem own_of_silent (h : commands t = []) (a : UInt32) : own a t = [] := by
  rw [own, orders_of_silent h]
  rfl

/-- A command that the own orders do not name, other than the one for the status, is not started. -/
theorem not_mem_commands {script : List Order} {w : UInt32} (hown : ∀ a, own a t <+: script)
    (hw : w ≠ Command.sendStatus.word.bits) (hscript : w ∉ script.map Order.word) :
    w ∉ commands t := by
  intro hmem
  rw [← orders_word 0 t, List.mem_map] at hmem
  obtain ⟨o, ho, rfl⟩ := hmem
  have hfilter : o ∈ own 0 t := List.mem_filter.mpr ⟨ho, by simpa using hw⟩
  exact hscript (List.mem_map_of_mem ((hown 0).subset hfilter))

end Orders

theorem append_eq_split {α : Type} {xs ys before after : List α} {e : α}
    (h : xs ++ ys = before ++ e :: after) :
    (∃ middle, xs = before ++ e :: middle ∧ after = middle ++ ys) ∨
      ∃ middle, before = xs ++ middle ∧ ys = middle ++ e :: after := by
  rcases List.append_eq_append_iff.mp h with ⟨middle, hbefore, hys⟩ | ⟨middle, hxs, hrest⟩
  · exact .inr ⟨middle, hbefore, hys⟩
  cases middle with
  | nil => exact .inr ⟨[], by simpa using hxs.symm, hrest.symm⟩
  | cons e' middle =>
    obtain ⟨rfl, hafter⟩ := List.cons.inj hrest
    exact .inl ⟨middle, hxs, hafter⟩

/-- Where a command is started once, there is no other place at which it is started. -/
theorem started_once {w w' : UInt32} {t1 t2 before after : History} (hbefore : w ∉ commands t1)
    (hafter : w ∉ commands t2)
    (h : t1 ++ writeOf .command w' :: t2 = before ++ writeOf .command w :: after) :
    before = t1 ∧ w = w' ∧ after = t2 := by
  rcases append_eq_split h with ⟨middle, rfl, -⟩ | ⟨middle, rfl, hlater⟩
  · exact absurd (by simp) hbefore
  cases middle with
  | nil =>
    obtain ⟨hword, hrest⟩ := List.cons.inj hlater
    exact ⟨List.append_nil _, by simpa using hword.symm, hrest.symm⟩
  | cons e middle =>
    rw [(List.cons.inj hlater).2] at hafter
    exact absurd (by simp) hafter

/-- The order for `command`. -/
def order (command : Command) (argument : UInt32) : Order := ⟨command.word.bits, argument⟩

/-- The orders for an application command to the card with the address `rca`. -/
def announced (rca : UInt16) (command : Command) (argument : UInt32) : List Order :=
  [order .appCommand (rca.toUInt32 <<< 16), order command argument]

section Issue

variable {command : Command} {word : CommandWord} {argument timeout : UInt32}
  {data : Transfer} {d d' : Driver} {t : History} {r : Except Error Unit}

theorem orders_start (h : Acts (start command word argument timeout data) d t r d') (a : UInt32) :
    orders a t = [⟨word.bits, argument⟩] := by
  obtain ⟨after, rfl, hsilent⟩ := start_commands h
  rw [orders_append, orders_of_silent hsilent, List.append_nil]
  rfl

theorem commands_of_quiet (h : ∀ e ∈ t, Quiet e) : commands t = [] :=
  commands_of_still (keepsQuiet_still.quietAll {} h).2

/-- A sweep asks for the status of a card that interrupts and has an address, and gives no other
order. -/
theorem sweep_orders (h : Acts sweep d t r d') :
    ∃ sample t', t = readOf .interrupt sample :: t' ∧ ∀ a, orders a t =
      if hasBits sample Interrupt.card = true ∧ d.card.rca ≠ 0 then
        [order .sendStatus d.card.rcaArgument] else [] := by
  obtain ⟨-, sample, v, before, noted, served, after, d1, rfl, hbefore, hafter, -, hn, hc⟩ :=
    sweep_acts h
  obtain ⟨hcard, hnoted⟩ : d1.card = d.card ∧ commands noted = [] := by
    obtain ⟨-, ⟨-, rfl, rfl⟩ | ⟨-, rfl, rfl⟩⟩ := noticeRemoval_acts hn
    · exact ⟨rfl, rfl⟩
    · exact ⟨rfl, rfl⟩
  refine ⟨sample, _, rfl, fun a => ?_⟩
  have hfirst : commands (readOf .interrupt sample :: (before ++ noted)) = [] := by
    simp [commands_of_quiet hbefore, hnoted]
  have hlast : commands (after ++ [writeOf .interrupt v]) = [] := by
    rw [commands_append, commands_of_quiet hafter]
    rfl
  have hall (a : UInt32) : ∃ a', orders a (readOf .interrupt sample ::
      (before ++ (noted ++ (served ++ (after ++ [writeOf .interrupt v]))))) = orders a' served := by
    rw [← List.append_assoc before, ← List.cons_append, orders_append, orders_of_silent hfirst,
      List.nil_append, orders_append, orders_of_silent hlast, List.append_nil]
    exact ⟨_, rfl⟩
  obtain ⟨a', ha⟩ := hall a
  rw [ha]
  obtain ⟨-, hserved⟩ := noticeCard_acts hc
  rw [hasBits_named rfl, hcard] at hserved
  rcases hserved with ⟨hbit, hrca, t1, t2, r1, rfl, hquiet, hstart⟩ | ⟨hnone, hquiet, -⟩
  · rw [if_pos ⟨hbit, hrca⟩, orders_append, orders_start hstart,
      orders_of_silent (commands_of_quiet hquiet)]
    rfl
  · rw [if_neg hnone, orders_of_silent (commands_of_quiet hquiet)]

theorem sweep_commands (h : Acts sweep d t r d') :
    ∃ sample t', t = readOf .interrupt sample :: t' ∧
      commands t = if hasBits sample Interrupt.card = true ∧ d.card.rca ≠ 0 then
        [Command.sendStatus.word.bits] else [] := by
  obtain ⟨sample, t', ht, horders⟩ := sweep_orders h
  refine ⟨sample, t', ht, ?_⟩
  rw [← orders_word 0 t, horders]
  split
  · rfl
  · rfl

theorem sweep_unserved (h : Acts sweep d t r d') (hzero : d.card.rca = 0) : commands t = [] := by
  obtain ⟨sample, t', -, hcommands⟩ := sweep_commands h
  rw [hcommands, if_neg fun hboth => hboth.2 hzero]

theorem sweep_own (h : Acts sweep d t r d') (a : UInt32) : own a t = [] := by
  obtain ⟨sample, t', -, hcommands⟩ := sweep_commands h
  refine List.filter_eq_nil_iff.mpr fun o ho => ?_
  have hmem : o.word ∈ commands t := by
    rw [← orders_word a t]
    exact List.mem_map_of_mem ho
  rw [hcommands] at hmem
  split at hmem
  · simp [List.mem_singleton.mp hmem]
  · nomatch hmem

theorem sweep_card (h : Acts sweep d t r d') :
    d'.card = d.card ∧ (d.cardRemoved = true → d'.cardRemoved = true) := by
  obtain ⟨-, sample, v, before, noted, served, after, d1, -, -, -, -, hn, hc⟩ := sweep_acts h
  rw [noticeCard_onlyLast hc]
  obtain ⟨-, ⟨-, -, rfl⟩ | ⟨-, -, rfl⟩⟩ := noticeRemoval_acts hn
  · exact ⟨rfl, fun _ => rfl⟩
  · exact ⟨rfl, id⟩

/-- The orders for a command to the card with the address `rca`. -/
def ordersFor (rca : UInt16) (command : Command) (argument : UInt32) : List Order :=
  if command.isApplication then announced rca command argument else [order command argument]

theorem ordersFor_other {rca : UInt16} (hother : command.word.bits ≠ Command.sendStatus.word.bits) :
    ∀ o ∈ ordersFor rca command argument, o.word ≠ Command.sendStatus.word.bits := by
  intro o ho
  unfold ordersFor at ho
  split at ho
  · rcases List.mem_cons.mp ho with rfl | ho
    · show Command.appCommand.word.bits ≠ Command.sendStatus.word.bits
      decide
    · rw [List.mem_singleton.mp ho]
      exact hother
  · rw [List.mem_singleton.mp ho]
    exact hother

/-- Past the sweep a command is given. An application command that fails can have been announced
only. -/
theorem announced_orders (h : Acts (do
      announce command timeout
      startReported command argument timeout data) d t r d') (a : UInt32) :
    orders a t = ordersFor d.card.rca command argument ∨
      command.isApplication = true ∧ (∃ e, r = .error e) ∧
        orders a t = [order .appCommand d.card.rcaArgument] := by
  have hstarted {d1 : Driver} {t : History}
      (h : Acts (startReported command argument timeout data) d1 t r d') (a : UInt32) :
      orders a t = [order command argument] := by
    obtain ⟨t1, t2, rfl, hstart, hquiet, -⟩ := startReported_acts h
    rw [orders_append, orders_start hstart, orders_of_silent (commands_of_still hquiet)]
    rfl
  cases happ : command.isApplication with
  | false =>
    left
    rw [ordersFor, happ, if_neg Bool.false_ne_true]
    exact hstarted ((announce_passes happ).mp h) a
  | true =>
    rw [announce, bind_assoc, acts_get_bind, happ, if_pos rfl] at h
    rcases acts_bind.mp h with ⟨e, rfl, ha⟩ | ⟨t1, t2, _, d1, rfl, ha, h1⟩
    · exact .inr ⟨rfl, ⟨e, rfl⟩, orders_start ha a⟩
    · left
      rw [ordersFor, if_pos happ, orders_append, orders_start ha, hstarted h1]
      rfl

theorem announced_in_order (h : Acts (do
      announce command timeout
      startReported command argument timeout data) d t r d') (a : UInt32) :
    orders a t ≠ [] ∧ orders a t <+: ordersFor d.card.rca command argument ∧
      ((command.isApplication = true → r = .ok ()) →
        orders a t = ordersFor d.card.rca command argument) := by
  rcases announced_orders h a with hgiven | ⟨happ, ⟨e, rfl⟩, hgiven⟩
  · rw [hgiven]
    refine ⟨?_, List.prefix_rfl, fun _ => rfl⟩
    unfold ordersFor
    split
    · exact List.cons_ne_nil _ _
    · exact List.cons_ne_nil _ _
  · rw [hgiven, ordersFor, if_pos happ]
    refine ⟨List.cons_ne_nil _ _, ⟨[order command argument], rfl⟩, fun hok => ?_⟩
    nomatch hok happ

/-- None of these orders asks for the status, so all of them are the driver's own. -/
theorem announced_own (hother : command.word.bits ≠ Command.sendStatus.word.bits) (h : Acts (do
      announce command timeout
      startReported command argument timeout data) d t r d') (a : UInt32) :
    own a t = orders a t := by
  refine List.filter_eq_self.mpr fun o ho => ?_
  have hmem : o ∈ ordersFor d.card.rca command argument := (announced_in_order h a).2.1.subset ho
  simpa using ordersFor_other hother o hmem

/-- A command gives no orders but for itself, its announcement and the status of the card. -/
theorem issue_words (h : Acts (issue command argument timeout data) d t r d') :
    ∀ w ∈ commands t, w = Command.sendStatus.word.bits ∨ w = Command.appCommand.word.bits ∨
      w = command.word.bits := by
  intro w hw
  by_cases hvalid : command.word.isReserved = false ∧ data.size / d.blockWords ≤ maxBlocks
  · obtain ⟨t1, t2, d1, rfl, hs, hrest⟩ := issue_acts hvalid.1 hvalid.2 h
    rw [commands_append, List.mem_append] at hw
    rcases hw with hw | hw
    · obtain ⟨sample, t', -, hcommands⟩ := sweep_commands hs
      rw [hcommands] at hw
      split at hw
      · exact .inl (List.mem_singleton.mp hw)
      · nomatch hw
    rcases hrest with ⟨-, rfl, -⟩ | ⟨-, h1⟩
    · nomatch hw
    rw [← orders_word 0 t2, List.mem_map] at hw
    obtain ⟨o, ho, rfl⟩ := hw
    have hmem := (announced_in_order h1 0).2.1.subset ho
    unfold ordersFor at hmem
    split at hmem
    · rcases List.mem_cons.mp hmem with rfl | hmem
      · exact .inr (.inl rfl)
      · rw [List.mem_singleton.mp hmem]
        exact .inr (.inr rfl)
    · rw [List.mem_singleton.mp hmem]
      exact .inr (.inr rfl)
  · obtain ⟨hrefused, -⟩ := issue_refused hvalid h
    rw [commands_of_quiet (refuseInvalid_acts hrefused).1] at hw
    nomatch hw

end Issue

end Peripherals.Sd
