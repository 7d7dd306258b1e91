import Peripherals.Proofs.Sd.Enumeration
import Peripherals.Proofs.Sd.Orders

/-! Scripts of orders. A step of an enumeration keeps to its script, apart from the status that it
may ask an interrupting card for: it gives the orders in turn, it goes on only with all of them
given, and it gives none to a card that is known to be removed. -/

namespace Peripherals.Sd

open RegisterBlock (read write)

variable {α β : Type} {c c' : CardInfo} {script script' : List Order} {whole whole' : Prop}
  {d d1 d' : Driver} {t t1 t2 : History}

/-- What the driver knows of the card is `c`, except that a card that is known to be removed has no
address. -/
def Knows (c : CardInfo) (d : Driver) : Prop :=
  d.card = if d.cardRemoved then { c with rca := 0 } else c

theorem Knows.card (h : Knows c d) (hpresent : d.cardRemoved = false) : d.card = c := by
  rw [h, if_neg (by simp [hpresent])]

theorem Knows.rca_eq_zero (h : Knows c d) (hzero : c.rca = 0) : d.card.rca = 0 := by
  rw [h]
  split
  · rfl
  · exact hzero

/-- A step gives the orders of `script` in turn, all of them where `whole` and the card stays, and
none where the card is known to be removed. What is known of the card stays as it is. A card without
an address is not asked for its status. -/
structure Follows (c : CardInfo) (script : List Order) (whole : Prop) (d : Driver) (t : History)
    (d' : Driver) : Prop where
  said (a : UInt32) : own a t <+: script
  all : whole → d'.cardRemoved = false → ∀ a, own a t = script
  silent : d.cardRemoved = true → d'.cardRemoved = true ∧ ∀ a, own a t = []
  knows : Knows c d'
  unserved : c.rca = 0 → Command.sendStatus.word.bits ∉ commands t

namespace Follows

theorem append (h1 : Follows c script True d t1 d1) (h2 : Follows c' script' whole d1 t2 d')
    (hrca : c'.rca = 0 → c.rca = 0) : Follows c' (script ++ script') whole d (t1 ++ t2) d' where
  said a := by
    rw [own_append]
    -- Either the card is still there, and all of the first script has been given, or nothing
    -- follows.
    cases hremoved : d1.cardRemoved with
    | false =>
      rw [h1.all trivial hremoved]
      exact (List.prefix_append_right_inj _).mpr (h2.said _)
    | true =>
      rw [(h2.silent hremoved).2, List.append_nil]
      exact (h1.said a).trans (List.prefix_append _ _)
  all hwhole hpresent a := by
    have hd1 : d1.cardRemoved = false := by
      refine Bool.eq_false_iff.mpr fun hremoved => ?_
      rw [(h2.silent hremoved).1] at hpresent
      nomatch hpresent
    rw [own_append, h1.all trivial hd1, h2.all hwhole hpresent]
  silent hremoved := by
    obtain ⟨hd1, ht1⟩ := h1.silent hremoved
    obtain ⟨hd', ht2⟩ := h2.silent hd1
    refine ⟨hd', fun a => ?_⟩
    rw [own_append, ht1, ht2, List.append_nil]
  knows := h2.knows
  unserved hzero := by
    rw [commands_append, List.mem_append]
    exact fun hmem => hmem.elim (h1.unserved (hrca hzero)) (h2.unserved hzero)

theorem early (h : Follows c script whole d t d') (script' : List Order) (hnot : ¬whole') :
    Follows c (script ++ script') whole' d t d' where
  said a := (h.said a).trans (List.prefix_append _ _)
  all hwhole := absurd hwhole hnot
  silent := h.silent
  knows := h.knows
  unserved := h.unserved

theorem of_removed (hremoved : d'.cardRemoved = true) (hsilent : ∀ a, own a t = [])
    (hknows : Knows c d') (hunserved : c.rca = 0 → Command.sendStatus.word.bits ∉ commands t) :
    Follows c script whole d t d' where
  said a := by simp [hsilent]
  all _ hpresent := by simp [hremoved] at hpresent
  silent _ := ⟨hremoved, hsilent⟩
  knows := hknows
  unserved := hunserved

theorem mono (h : Follows c script whole d t d') (hwhole : whole' → whole) :
    Follows c script whole' d t d' :=
  { h with all := fun hw => h.all (hwhole hw) }

end Follows

/-- A step that gives no order and changes neither what is known of the card nor its presence. -/
structure Still (d : Driver) (t : History) (d' : Driver) : Prop where
  card : d'.card = d.card
  removed : d'.cardRemoved = d.cardRemoved
  commands : commands t = []

theorem Still.follows (h : Still d t d') (hd : Knows c d) : Follows c [] whole d t d' where
  said a := by simp [own_of_silent h.commands]
  all _ _ := own_of_silent h.commands
  silent hremoved := ⟨h.removed.trans hremoved, own_of_silent h.commands⟩
  knows := by
    rw [Knows, h.card, h.removed]
    exact hd
  unserved _ := by
    rw [h.commands]
    exact List.not_mem_nil

theorem keepsClear_stillCard : KeepsClear Still where
  refl _ := ⟨rfl, rfl, rfl⟩
  trans h1 h2 :=
    ⟨h2.card.trans h1.card, h2.removed.trans h1.removed, by simp [h1.commands, h2.commands]⟩
  quiet _ _ he := ⟨rfl, rfl, commands_of_still (traffic_quiet he)⟩
  cleared _ := ⟨rfl, rfl, rfl⟩

/-- A command that exists keeps to its orders, whatever is known of the card. -/
theorem issue_follows {command : Command} {argument timeout : UInt32} {data : Transfer}
    {r : Except Error Unit} (hvalid : command.word.isReserved = false)
    (hblocks : data.size / d.blockWords ≤ maxBlocks)
    (hother : command.word.bits ≠ Command.sendStatus.word.bits)
    (h : Acts (issue command argument timeout data) d t r d') (hd : Knows c d) :
    Follows c (ordersFor c.rca command argument) (command.isApplication = true → r = .ok ())
      d t d' := by
  obtain ⟨t1, t2, d1, rfl, hs, h1⟩ := issue_acts hvalid hblocks h
  obtain ⟨hcard, hremoved⟩ := sweep_card hs
  have hunserved (hzero : c.rca = 0) : commands t1 = [] := sweep_unserved hs (hd.rca_eq_zero hzero)
  -- The sweep finds out whether the card is there, and only then is anything given to it.
  rcases h1 with ⟨hgone, rfl, rfl, rfl⟩ | ⟨hpresent, h2⟩
  · refine .of_removed hgone (fun a => ?_) ?_ fun hzero => ?_
    · rw [List.append_nil, sweep_own hs]
    · rw [Knows, if_pos hgone]
      show { d1.card with rca := 0 } = { c with rca := 0 }
      rw [hcard, hd]
      split <;> rfl
    · rw [List.append_nil, hunserved hzero]
      exact List.not_mem_nil
  · have hhere : d.cardRemoved = false :=
      Bool.eq_false_iff.mpr fun hd1 => by simp [hremoved hd1] at hpresent
    have hsame : d1.card = c := by rw [hcard, hd.card hhere]
    have hown (a : UInt32) : ∃ a', own a (t1 ++ t2) = orders a' t2 := by
      rw [own_append, sweep_own hs, List.nil_append, announced_own hother h2]
      exact ⟨_, rfl⟩
    refine ⟨fun a => ?_, fun hok _ a => ?_, fun hd1 => ?_, ?_, fun hzero => ?_⟩
    · obtain ⟨a', ha⟩ := hown a
      rw [ha, ← hsame]
      exact (announced_in_order h2 a').2.1
    · obtain ⟨a', ha⟩ := hown a
      rw [ha, ← hsame]
      exact (announced_in_order h2 a').2.2 hok
    · simp [hhere] at hd1
    · rw [announced_onlyLast h2, Knows, if_neg (by simp [hpresent])]
      exact hsame
    · rw [commands_append, hunserved hzero, List.nil_append, ← orders_word 0 t2, List.mem_map]
      rintro ⟨o, ho, hword⟩
      exact ordersFor_other hother o ((announced_in_order h2 0).2.1.subset ho) hword

theorem issue_begun {command : Command} {argument timeout : UInt32} {data : Transfer}
    {r : Except Error Unit} (hvalid : command.word.isReserved = false)
    (hblocks : data.size / d.blockWords ≤ maxBlocks)
    (hother : command.word.bits ≠ Command.sendStatus.word.bits)
    (h : Acts (issue command argument timeout data) d t r d') (hhere : d'.cardRemoved = false)
    (a : UInt32) : own a t ≠ [] := by
  obtain ⟨t1, t2, d1, rfl, hs, ⟨hgone, -, -, rfl⟩ | ⟨-, h1⟩⟩ := issue_acts hvalid hblocks h
  · have hpresent : d1.cardRemoved = false := hhere
    simp [hgone] at hpresent
  · rw [own_append, sweep_own hs, List.nil_append, announced_own hother h1]
    exact (announced_in_order h1 _).1

theorem Follows.still (h : Follows c script whole d t1 d1) (h2 : Still d1 t2 d') :
    Follows c script whole d (t1 ++ t2) d' where
  said a := by
    rw [own_append, own_of_silent h2.commands, List.append_nil]
    exact h.said a
  all hwhole hpresent a := by
    rw [own_append, own_of_silent h2.commands, List.append_nil]
    exact h.all hwhole (h2.removed ▸ hpresent) a
  silent hremoved := by
    obtain ⟨hd1, ht1⟩ := h.silent hremoved
    refine ⟨h2.removed.trans hd1, fun a => ?_⟩
    rw [own_append, own_of_silent h2.commands, List.append_nil, ht1]
  knows := by
    rw [Knows, h2.card, h2.removed]
    exact h.knows
  unserved hzero := by
    rw [commands_append, h2.commands, List.append_nil]
    exact h.unserved hzero

/-- Whatever becomes of the step, it gives all orders of `script`. -/
def Utters (c : CardInfo) (script : List Order) (x : Action α) : Prop :=
  ∀ ⦃d t r d'⦄, Acts x d t r d' → Knows c d → Follows c script True d t d'

/-- The step gives the orders of `script`, all of them where it does not fail. -/
def Recites (c : CardInfo) (script : List Order) (x : Action α) : Prop :=
  ∀ ⦃d t r d'⦄, Acts x d t r d' → Knows c d → Follows c script (∃ a, r = .ok a) d t d'

theorem Utters.recites {x : Action α} (h : Utters c script x) : Recites c script x :=
  fun _ _ _ _ hx hd => (h hx hd).mono fun _ => trivial

theorem recites_of_still {x : Action α} (h : Keeps Still x.run) : Recites c [] x :=
  fun _ _ _ _ hx hd => (h.acts hx).follows hd

theorem Utters.observe {x : Action α} {f : Except Error α → Action β} (hx : Utters c script x)
    (hf : ∀ result, Keeps Still (f result).run) : Utters c script (observe x >>= f) := by
  intro d t r d' h hd
  obtain ⟨t1, t2, result, d1, rfl, h1, h2⟩ := acts_observe_bind.mp h
  exact (hx h1 hd).still ((hf result).acts h2)

theorem Recites.bind {x : Action α} {f : α → Action β} (hx : Recites c script x)
    (hf : ∀ a, Recites c script' (f a)) : Recites c (script ++ script') (x >>= f) := by
  intro d t r d' h hd
  rcases acts_bind.mp h with ⟨e, rfl, h1⟩ | ⟨t1, t2, a, d1, rfl, h1, h2⟩
  · exact (hx h1 hd).early script' (by simp)
  · have hfirst : Follows c script True d t1 d1 := (hx h1 hd).mono fun _ => ⟨a, rfl⟩
    exact hfirst.append (hf a h2 hfirst.knows) id

theorem Recites.orFail {x : Action α} {error : Error} {notes : List Note} (hx : Recites c script x)
    (hn : ∀ n ∈ notes, Quiet (noteOf n)) : Recites c script (orFail x error notes) := by
  intro d t r d' h hd
  obtain ⟨t1, t2, result, d1, rfl, h1, h2⟩ := acts_observe_bind.mp h
  have hfirst := hx h1 hd
  cases result with
  | ok a =>
    obtain ⟨rfl, -, rfl⟩ := acts_pure.mp h2
    exact (hfirst.still (keepsClear_stillCard.refl d')).mono fun _ => ⟨a, rfl⟩
  | error e =>
    have hrest : Keeps Still (do
        notes.forM report
        throw error : Action α).run :=
      keepsClear_stillCard.bind (keepsClear_stillCard.reportAll hn) fun _ =>
        keepsClear_stillCard.throw error
    refine (hfirst.still (hrest.acts h2)).mono ?_
    rintro ⟨a, rfl⟩
    rcases acts_bind_ok.mp h2 with ⟨t3, t4, _, d2, -, -, h3⟩
    nomatch (acts_throw.mp h3).2.1

/-! The steps of an enumeration that have a script of their own. -/

section Steps

variable {command : Command} {argument timeout : UInt32}

theorem issueCommand_utters (hvalid : command.word.isReserved = false)
    (hplain : command.isApplication = false)
    (hother : command.word.bits ≠ Command.sendStatus.word.bits) :
    Utters c [order command argument] (issueCommand command argument timeout) := by
  intro d t r d' h hd
  have hissue := issue_follows hvalid (by simp [Transfer.size]) hother h hd
  rw [ordersFor, hplain, if_neg Bool.false_ne_true] at hissue
  exact hissue.mono fun _ happ => absurd happ Bool.false_ne_true

theorem issueCommand_recites (hvalid : command.word.isReserved = false)
    (happ : command.isApplication = true)
    (hother : command.word.bits ≠ Command.sendStatus.word.bits) :
    Recites c (announced c.rca command argument) (issueCommand command argument timeout) := by
  intro d t r d' h hd
  have hissue := issue_follows hvalid (by simp [Transfer.size]) hother h hd
  rw [ordersFor, if_pos happ] at hissue
  exact hissue.mono fun hdone _ => hdone.elim fun _ hok => hok

theorem AsksOnce.utters {x : Action α} (hx : AsksOnce command argument timeout x)
    (hvalid : command.word.isReserved = false) (hplain : command.isApplication = false)
    (hother : command.word.bits ≠ Command.sendStatus.word.bits) :
    Utters c [order command argument] x := by
  obtain ⟨f, rfl, hf⟩ := hx
  exact (issueCommand_utters hvalid hplain hother).observe fun result =>
    hf Still keepsClear_stillCard.toKeepsQuiet result

end Steps

end Peripherals.Sd
