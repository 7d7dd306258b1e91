import Peripherals.Proofs.Mailbox.Transaction

/-! The histories of messages in both directions. A message is posted only once there is room for
it, and taken only once it is there. -/

namespace Peripherals.Mailbox

theorem toNat_and_fifteen (word : UInt32) : (word &&& 0xF).toNat = word.toNat % 16 := by
  rw [UInt32.toNat_and]
  exact Nat.and_two_pow_sub_one_eq_mod _ 4

theorem channel_eq_iff {message : UInt32} :
    message &&& 0xF = propertyChannel ↔ message.toNat % 16 = 8 := by
  rw [← UInt32.toNat_inj, toNat_and_fifteen]
  rfl

/-! ### Histories of waiting -/

abbrev History := List (Exchange port)

/-- The status register `r` is read until none of `bits` is set. -/
inductive Polls (r : Register) (bits : UInt32) : History → Prop
  | clear {value : UInt32} : value &&& bits = 0 → Polls r bits [⟨.read r, value⟩]
  | busy {value : UInt32} {t : History} :
    value &&& bits ≠ 0 → Polls r bits t → Polls r bits (⟨.read r, value⟩ :: t)

/-- Messages are taken, each once the status shows one. Those in `foreign` are on other channels and
are dropped, and `ours`, which is not, is the last. -/
inductive Receives : History → (foreign : List UInt32) → (ours : UInt32) → Prop
  | ours {t : History} {message : UInt32} :
    Polls .inboxStatus emptyBit t → message.toNat % 16 = 8 →
    Receives (t ++ [⟨.read .inbox, message⟩]) [] message
  | foreign {t t' : History} {message ours : UInt32} {foreign : List UInt32} :
    Polls .inboxStatus emptyBit t → message.toNat % 16 ≠ 8 → Receives t' foreign ours →
    Receives (t ++ ⟨.read .inbox, message⟩ :: ⟨.note (.dropped message), ()⟩ :: t')
      (message :: foreign) ours

variable {r : Register} {bits : UInt32} {t : History} {patience messages : Nat}

/-! ### Polling -/

theorem polls_of_ends (h : (awaitClear r bits patience).Ends t ()) : Polls r bits t := by
  induction patience generalizing t with
  | zero => exact absurd h Prog.not_ends_wedged
  | succ patience ih =>
    rw [awaitClear] at h
    obtain ⟨value, t', rfl, hrest⟩ := Prog.ends_request_bind.mp h
    split at hrest
    case isTrue hclear =>
      obtain ⟨rfl, -⟩ := Prog.ends_pure.mp hrest
      exact .clear hclear
    case isFalse hbusy => exact .busy hbusy (ih hrest)

/-- Polling that has begun can still end. -/
theorem exists_polls_of_begins (h : (awaitClear r bits patience).Begins t) :
    ∃ rest, Polls r bits (t ++ rest) := by
  induction patience generalizing t with
  | zero =>
    obtain rfl := Prog.begins_wedged.mp h
    exact ⟨_, .clear UInt32.zero_and⟩
  | succ patience ih =>
    rw [awaitClear] at h
    obtain rfl | ⟨value, t', rfl, hrest⟩ := Prog.begins_request_bind.mp h
    · exact ⟨_, .clear UInt32.zero_and⟩
    split at hrest
    case isTrue hclear =>
      obtain rfl := Prog.begins_pure.mp hrest
      exact ⟨[], .clear hclear⟩
    case isFalse hbusy =>
      obtain ⟨rest, hpolls⟩ := ih hrest
      exact ⟨rest, .busy hbusy hpolls⟩

theorem Polls.ends (h : Polls r bits t) (hpatience : t.length ≤ patience) :
    (awaitClear r bits patience).Ends t () := by
  induction h generalizing patience with
  | @clear value hclear =>
    obtain ⟨patience, rfl⟩ : ∃ p, patience = p + 1 := Nat.exists_eq_add_of_le' hpatience
    rw [awaitClear]
    refine Prog.ends_request_bind.mpr ⟨value, [], rfl, ?_⟩
    rw [if_pos hclear]
    exact .pure ()
  | @busy value t hbusy _ ih =>
    obtain ⟨patience, rfl⟩ : ∃ p, patience = p + 1 :=
      Nat.exists_eq_add_of_le' (Nat.le_of_add_left_le hpatience)
    rw [awaitClear]
    refine Prog.ends_request_bind.mpr ⟨value, t, rfl, ?_⟩
    rw [if_neg hbusy]
    exact ih (Nat.le_of_succ_le_succ hpatience)

/-! ### Receiving -/

theorem receives_of_ends {payload : UInt32}
    (h : (receiveWithin patience messages).Ends t payload) :
    ∃ foreign ours, Receives t foreign ours ∧ payload = ours >>> 4 := by
  induction messages generalizing t with
  | zero => exact absurd h Prog.not_ends_wedged
  | succ messages ih =>
    rw [receiveWithin] at h
    obtain ⟨t1, t2, ⟨⟩, rfl, hawait, hread⟩ := Prog.ends_bind.mp h
    obtain ⟨message, t3, rfl, hrest⟩ := Prog.ends_request_bind.mp hread
    have hpolls := polls_of_ends hawait
    split at hrest
    case isTrue hours =>
      obtain ⟨rfl, rfl⟩ := Prog.ends_pure.mp hrest
      exact ⟨[], message, .ours hpolls (channel_eq_iff.mp hours), rfl⟩
    case isFalse hforeign =>
      obtain ⟨⟨⟩, t4, rfl, hmore⟩ := Prog.ends_request_bind.mp hrest
      obtain ⟨foreign, ours, hrest, hpayload⟩ := ih hmore
      exact ⟨message :: foreign, ours, .foreign hpolls (mt channel_eq_iff.mpr hforeign) hrest,
        hpayload⟩

theorem exists_receives : ∃ t foreign ours, Receives t foreign ours :=
  ⟨_, [], 8, .ours (.clear UInt32.zero_and) (by decide)⟩

/-- Whichever message comes next, receiving can still end. -/
theorem Polls.receives_next (h : Polls .inboxStatus emptyBit t) (message : UInt32) :
    ∃ rest foreign ours, Receives (t ++ ⟨.read .inbox, message⟩ :: rest) foreign ours := by
  by_cases hours : message.toNat % 16 = 8
  · exact ⟨[], [], message, .ours h hours⟩
  · obtain ⟨t', foreign, ours, hrest⟩ := exists_receives
    exact ⟨_, _, _, .foreign h hours hrest⟩

/-- Receiving that has begun can still end. -/
theorem exists_receives_of_begins (h : (receiveWithin patience messages).Begins t) :
    ∃ rest foreign ours, Receives (t ++ rest) foreign ours := by
  induction messages generalizing t with
  | zero =>
    obtain rfl := Prog.begins_wedged.mp h
    exact exists_receives
  | succ messages ih =>
    rw [receiveWithin] at h
    obtain hawait | ⟨t1, t2, ⟨⟩, rfl, hawait, hread⟩ := Prog.begins_bind.mp h
    · obtain ⟨rest, hpolls⟩ := exists_polls_of_begins hawait
      obtain ⟨rest', hrest⟩ := hpolls.receives_next 0
      exact ⟨rest ++ _ :: rest', by simpa using hrest⟩
    have hpolls := polls_of_ends hawait
    obtain rfl | ⟨message, t3, rfl, hrest⟩ := Prog.begins_request_bind.mp hread
    · obtain ⟨rest, hrest⟩ := hpolls.receives_next 0
      exact ⟨_ :: rest, by simpa using hrest⟩
    split at hrest
    case isTrue hours =>
      obtain rfl := Prog.begins_pure.mp hrest
      exact ⟨[], [], message, by simpa using Receives.ours hpolls (channel_eq_iff.mp hours)⟩
    case isFalse hforeign =>
      obtain rfl | ⟨⟨⟩, t4, rfl, hmore⟩ := Prog.begins_request_bind.mp hrest
      · obtain ⟨rest, hrest⟩ := hpolls.receives_next message
        exact ⟨rest, by simpa using hrest⟩
      · obtain ⟨rest, foreign, ours, hrest⟩ := ih hmore
        refine ⟨rest, message :: foreign, ours, ?_⟩
        simpa using Receives.foreign hpolls (mt channel_eq_iff.mpr hforeign) hrest

theorem Receives.ends {foreign : List UInt32} {ours : UInt32} (h : Receives t foreign ours)
    (hpatience : t.length ≤ patience) (hmessages : t.length ≤ messages) :
    (receiveWithin patience messages).Ends t (ours >>> 4) := by
  induction h generalizing messages with
  | @ours t message hpolls hours =>
    rw [List.length_append] at hpatience hmessages
    obtain ⟨messages, rfl⟩ : ∃ n, messages = n + 1 :=
      Nat.exists_eq_add_of_le' (Nat.le_of_add_left_le hmessages)
    rw [receiveWithin]
    refine Prog.ends_bind.mpr ⟨t, _, (), rfl, hpolls.ends (Nat.le_of_add_right_le hpatience),
      Prog.ends_request_bind.mpr ⟨message, [], rfl, ?_⟩⟩
    rw [if_pos (channel_eq_iff.mpr hours)]
    exact .pure _
  | @foreign t t' message ours foreign hpolls hforeign _ ih =>
    simp only [List.length_append, List.length_cons] at hpatience hmessages
    obtain ⟨messages, rfl⟩ : ∃ n, messages = n + 1 := ⟨messages - 1, by omega⟩
    rw [receiveWithin]
    refine Prog.ends_bind.mpr ⟨t, _, (), rfl, hpolls.ends (Nat.le_of_add_right_le hpatience),
      Prog.ends_request_bind.mpr ⟨message, _, rfl, ?_⟩⟩
    rw [if_neg (mt channel_eq_iff.mp hforeign)]
    exact Prog.ends_request_bind.mpr ⟨(), t', rfl, ih (by omega) (by omega)⟩

/-! ### Posting -/

/-- The status of the outbox is read until there is room, and then the message for `data` is
written. -/
def Posts (data : UInt32) (t : History) : Prop :=
  ∃ polls, Polls .outboxStatus fullBit polls ∧
    t = polls ++ [⟨.write .outbox (encodeMessage data), ()⟩]

theorem posts_of_ends {data : UInt32} (h : (post patience data).Ends t ()) : Posts data t := by
  obtain ⟨t1, t2, ⟨⟩, rfl, hawait, hwrite⟩ := Prog.ends_bind.mp h
  exact ⟨t1, polls_of_ends hawait, by rw [Prog.ends_request.mp hwrite]⟩

/-- Posting that has begun can still end. -/
theorem exists_posts_of_begins {data : UInt32} (h : (post patience data).Begins t) :
    ∃ rest, Posts data (t ++ rest) := by
  obtain hawait | ⟨t1, t2, ⟨⟩, rfl, hawait, hwrite⟩ := Prog.begins_bind.mp h
  · obtain ⟨rest, hpolls⟩ := exists_polls_of_begins hawait
    exact ⟨rest ++ _, _, hpolls, (List.append_assoc ..).symm⟩
  · have hpolls := polls_of_ends hawait
    obtain rfl | ⟨⟨⟩, t3, rfl, hrest⟩ := Prog.begins_op.mp hwrite
    · exact ⟨_, t1, hpolls, congrArg (· ++ _) (List.append_nil t1)⟩
    · obtain rfl := Prog.begins_pure.mp hrest
      exact ⟨[], t1, hpolls, List.append_nil _⟩

theorem Posts.ends {data : UInt32} (h : Posts data t) (hpatience : t.length ≤ patience) :
    (post patience data).Ends t () := by
  obtain ⟨polls, hpolls, rfl⟩ := h
  rw [List.length_append] at hpatience
  exact Prog.ends_bind.mpr ⟨polls, _, (), rfl, hpolls.ends (Nat.le_of_add_right_le hpatience),
    Prog.ends_request.mpr rfl⟩

/-! ### What a history tells -/

def takenMessage : Exchange port → Option UInt32
  | ⟨.read .inbox, message⟩ => some message
  | _ => none

/-- The messages that are taken from the inbox, in order. -/
def taken (t : History) : List UInt32 := t.filterMap takenMessage

def droppedMessage : Exchange port → Option UInt32
  | ⟨.note (.dropped message), _⟩ => some message
  | _ => none

/-- The messages that are dropped, in order. -/
def dropped (t : History) : List UInt32 := t.filterMap droppedMessage

theorem dropped_append (t t' : History) : dropped (t ++ t') = dropped t ++ dropped t' :=
  List.filterMap_append

/-- Directly before each request `o` the register `status` is read, and none of `bits` is set. -/
def Guarded (o : Op) (status : Register) (bits : UInt32) (t : History) : Prop :=
  ∀ before e after, t = before ++ e :: after → e.request = o →
    ∃ earlier value, before = earlier ++ [⟨.read status, value⟩] ∧ value &&& bits = 0

theorem Polls.reads (h : Polls r bits t) : ∀ e ∈ t, e.request = .read r := by
  induction h with
  | clear => simp
  | busy _ _ ih => exact List.forall_mem_cons.mpr ⟨rfl, ih⟩

theorem Polls.last (h : Polls r bits t) :
    ∃ earlier value, t = earlier ++ [⟨.read r, value⟩] ∧ value &&& bits = 0 := by
  induction h with
  | clear hclear => exact ⟨[], _, rfl, hclear⟩
  | @busy value t _ _ ih =>
    obtain ⟨earlier, value', rfl, hclear⟩ := ih
    exact ⟨_ :: earlier, value', rfl, hclear⟩

namespace Guarded

variable {o : Op} {t1 t2 : History} {e : Exchange port}

theorem nil (o : Op) (status : Register) (bits : UInt32) : Guarded o status bits [] := by
  rintro before e after h -
  cases before <;> cases h

theorem of_append (h : Guarded o r bits (t1 ++ t2)) : Guarded o r bits t1 := by
  rintro before e after rfl
  exact h before e (after ++ t2) (by simp)

theorem cons (he : e.request ≠ o) (h : Guarded o r bits t) : Guarded o r bits (e :: t) := by
  intro before e' after heq he'
  cases before with
  | nil =>
    cases heq
    exact absurd he' he
  | cons e before =>
    obtain ⟨rfl, htail⟩ := List.cons.inj heq
    obtain ⟨earlier, value, rfl, hclear⟩ := h before e' after htail he'
    exact ⟨_ :: earlier, value, rfl, hclear⟩

/-- A request behind a poll of its status is guarded. -/
theorem polls (hpolls : Polls r bits t1) (hr : o ≠ .read r) (h : Guarded o r bits t2) :
    Guarded o r bits (t1 ++ e :: t2) := by
  intro before e' after heq he'
  obtain ⟨rest, rfl, hrest⟩ | ⟨rest, rfl, hrest⟩ := List.append_eq_append_iff.mp heq
  · cases rest with
    | nil =>
      rw [List.append_nil]
      exact hpolls.last
    | cons e rest =>
      obtain ⟨rfl, htail⟩ := List.cons.inj hrest
      obtain ⟨earlier, value, rfl, hclear⟩ := h rest e' after htail he'
      exact ⟨t1 ++ e :: earlier, value, by simp, hclear⟩
  · cases rest with
    | nil => simpa using hpolls.last
    | cons e rest =>
      obtain ⟨rfl, -⟩ := List.cons.inj hrest
      have hread := hpolls.reads e' (by simp)
      exact absurd (he'.symm.trans hread) hr

end Guarded

theorem Posts.guarded {data : UInt32} (h : Posts data t) :
    Guarded (.write .outbox (encodeMessage data)) .outboxStatus fullBit t := by
  obtain ⟨polls, hpolls, rfl⟩ := h
  exact .polls hpolls nofun (.nil _ _ _)

/-- A view of the history that does not see the readings of a status sees nothing of its polling. -/
theorem Polls.filterMap_eq_nil {β : Type} {f : Exchange port → Option β} (h : Polls r bits t)
    (hf : ∀ value, f ⟨.read r, value⟩ = none) : t.filterMap f = [] := by
  induction h with
  | @clear value _ => simp [hf value]
  | @busy value _ _ _ ih => rw [List.filterMap_cons_none (hf value), ih]

theorem Posts.writes {data : UInt32} (h : Posts data t) :
    writes t = [(.outbox, encodeMessage data)] :=
  post_writes (h.ends (Nat.le_refl _))

section Receives

variable {foreign : List UInt32} {ours : UInt32}

theorem Receives.guarded (h : Receives t foreign ours) :
    Guarded (.read .inbox) .inboxStatus emptyBit t := by
  induction h with
  | ours hpolls _ => exact .polls hpolls (by decide) (.nil _ _ _)
  | foreign hpolls _ _ ih => exact .polls hpolls (by decide) (.cons nofun ih)

/-- A view of the history that does not see the readings of the status sees the messages, and that
all but the last are dropped. -/
theorem Receives.filterMap_eq {f : Exchange port → Option UInt32} (h : Receives t foreign ours)
    (hf : ∀ value, f ⟨.read .inboxStatus, value⟩ = none) :
    t.filterMap f = foreign.flatMap (fun message =>
        List.filterMap f [⟨.read .inbox, message⟩, ⟨.note (.dropped message), ()⟩]) ++
      List.filterMap f [⟨.read .inbox, ours⟩] := by
  induction h with
  | ours hpolls _ => rw [List.filterMap_append, hpolls.filterMap_eq_nil hf, List.flatMap_nil]
  | @foreign _ t' message _ _ hpolls _ _ ih =>
    have htaken : (⟨.read .inbox, message⟩ :: ⟨.note (.dropped message), ()⟩ :: t' : History) =
        [⟨.read .inbox, message⟩, ⟨.note (.dropped message), ()⟩] ++ t' := rfl
    rw [List.filterMap_append, hpolls.filterMap_eq_nil hf, List.nil_append, htaken,
      List.filterMap_append, ih, List.flatMap_cons, List.append_assoc]

theorem Receives.taken (h : Receives t foreign ours) : taken t = foreign ++ [ours] :=
  (h.filterMap_eq fun _ => rfl).trans (congrArg (· ++ _) (List.flatMap_singleton' foreign))

theorem Receives.dropped (h : Receives t foreign ours) : dropped t = foreign :=
  (h.filterMap_eq fun _ => rfl).trans
    ((List.append_nil _).trans (List.flatMap_singleton' foreign))

theorem Receives.channels (h : Receives t foreign ours) :
    (∀ message ∈ foreign, message.toNat % 16 ≠ 8) ∧ ours.toNat % 16 = 8 := by
  induction h with
  | ours _ hours => exact ⟨by simp, hours⟩
  | foreign _ hforeign _ ih => exact ⟨List.forall_mem_cons.mpr ⟨hforeign, ih.1⟩, ih.2⟩

/-- A poll that finds nothing puts receiving off. -/
theorem Receives.busy {value : UInt32} (hbusy : value &&& emptyBit ≠ 0)
    (h : Receives t foreign ours) : Receives (⟨.read .inboxStatus, value⟩ :: t) foreign ours := by
  cases h with
  | ours hpolls hours => exact .ours (.busy hbusy hpolls) hours
  | foreign hpolls hforeign hrest => exact .foreign (.busy hbusy hpolls) hforeign hrest

end Receives

end Peripherals.Mailbox
