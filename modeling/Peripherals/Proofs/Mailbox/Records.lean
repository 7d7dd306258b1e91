import Mathlib.Data.List.Forall2
import Peripherals.Proofs.Mailbox.Transaction

/-! The records of a request, as a firmware reads them. A reader that goes from record to record by
their sizes meets the records that were asked for and stops at the last word in use, whatever an
earlier request has left in the buffer. -/

namespace Peripherals.Mailbox

/-! ### Reading records -/

/-- The records that are read from `words` up to the end marker, and the place of this marker, where
the first word is at `place`. There is no result where the words end within a record. -/
def readRecords (place : Nat) : (words : List UInt32) → Option (List Tag × Nat)
  | [] => none
  | id :: rest =>
    if id = TagId.endMarker then
      some ([], place)
    else
      match rest with
      | size :: length :: rest =>
        let count := size.toNat / 4
        if count ≤ rest.length then
          (readRecords (place + tagHeaderWords + count) (rest.drop count)).map fun (tags, last) =>
            (⟨id, size, length, rest.take count⟩ :: tags, last)
        else
          none
      | _ => none
termination_by words => words.length
decreasing_by
  simp only [List.length_drop, List.length_cons]
  omega

theorem readRecords_endMarker (place : Nat) (rest : List UInt32) :
    readRecords place (TagId.endMarker :: rest) = some ([], place) := by
  unfold readRecords
  exact if_pos rfl

/-- A record that says how long it is is read as a whole, and reading goes on behind it. -/
theorem readRecords_words {t : Tag} (hid : t.id ≠ TagId.endMarker)
    (hsize : t.size.toNat / 4 = t.value.length) (place : Nat) (rest : List UInt32) :
    readRecords place (t.words ++ rest) =
      (readRecords (place + t.words.length) rest).map fun (tags, last) => (t :: tags, last) := by
  obtain ⟨id, size, length, value⟩ := t
  have hplace : place + tagHeaderWords + value.length =
      place + (Tag.words ⟨id, size, length, value⟩).length := by
    simp only [Tag.words, tagHeaderWords, List.length_cons]
    omega
  have hfit : size.toNat / 4 ≤ (value ++ rest).length := by
    rw [hsize, List.length_append]
    exact Nat.le_add_right _ _
  rw [← hplace, Tag.words, List.cons_append, List.cons_append, List.cons_append,
    readRecords.eq_def place]
  simp only [if_neg hid, if_pos hfit]
  simp only [hsize, List.take_left', List.drop_left']

/-- Records that say how long they are are read one after the other up to the end marker. -/
theorem readRecords_flatMap {tags : List Tag}
    (htags : ∀ t ∈ tags, t.id ≠ TagId.endMarker ∧ t.size.toNat / 4 = t.value.length) (place : Nat)
    (rest : List UInt32) :
    readRecords place (tags.flatMap Tag.words ++ TagId.endMarker :: rest) =
      some (tags, place + (tags.flatMap Tag.words).length) := by
  induction tags generalizing place with
  | nil => exact readRecords_endMarker place rest
  | cons t ts ih =>
    obtain ⟨⟨hid, hsize⟩, hts⟩ := List.forall_mem_cons.mp htags
    rw [List.flatMap_cons, List.append_assoc, readRecords_words hid hsize, ih hts, Option.map_some,
      List.length_append, Nat.add_assoc]

/-! ### Records that are asked for -/

/-- A record to be sent: its words of value under any header, and what its header is to say. -/
structure Request where
  tag : Tag
  id : UInt32
  length : UInt32

def Request.prepared (r : Request) : Tag := r.tag.prepare r.id r.length

def requestTags (requests : List Request) : List UInt32 :=
  requests.flatMap fun r => r.prepared.words

/-- The record `t` is what is asked for with `r`. -/
structure Request.Asks (r : Request) (t : Tag) : Prop where
  id : t.id = r.id
  size : t.size.toNat = 4 * r.tag.value.length
  length : t.length.toNat = r.length.toNat % 0x80000000
  value : t.value = r.tag.value

/-- A reader of the buffer sees a request that consists of `requests` and ends with the last word in
use. -/
structure Buffer.Spells (b : Buffer) (requests : List Request) : Prop where
  size : b[0]?.map UInt32.toNat = some (4 * Mailbox.requestWords (requestTags requests))
  code : b[1]? = some 0
  records : ∃ tags, readRecords headerWords (b.toList.drop headerWords) =
      some (tags, Mailbox.requestWords (requestTags requests) - 1) ∧
    List.Forall₂ Request.Asks requests tags

/-! ### The request in the buffer -/

variable {requests : List Request}

theorem length_value_le {r : Request} (hr : r ∈ requests)
    (hfit : Mailbox.requestWords (requestTags requests) ≤ bufferWords) :
    r.tag.value.length ≤ bufferWords := by
  obtain ⟨before, after, rfl⟩ := List.append_of_mem hr
  simp only [Mailbox.requestWords, requestTags, List.flatMap_append, List.flatMap_cons,
    List.length_append, Request.prepared, Tag.prepare, Tag.words, List.length_cons] at hfit
  omega

theorem Request.size_prepared {r : Request} (h : r.tag.value.length ≤ bufferWords) :
    r.prepared.size.toNat = 4 * r.tag.value.length := by
  rw [bufferWords] at h
  rw [prepared, Tag.prepare, UInt32.toNat_ofNat']
  omega

/-- Without the response bit the length word is the length. -/
theorem toNat_and_not_responseBit (word : UInt32) :
    (word &&& ~~~responseBit).toNat = word.toNat % 0x80000000 := by
  rw [UInt32.toNat_and]
  exact Nat.and_two_pow_sub_one_eq_mod _ 31

theorem Request.asks_prepared {r : Request} (h : r.tag.value.length ≤ bufferWords) :
    r.Asks r.prepared where
  id := rfl
  size := size_prepared h
  length := toNat_and_not_responseBit r.length
  value := rfl

/-- A buffer that starts with `words` is these words and what is behind them. -/
theorem toList_eq_append {b : Buffer} {words : List UInt32} (hfit : words.length ≤ bufferWords)
    (h : ∀ i < words.length, b[i]? = words[i]?) :
    b.toList = words ++ b.toList.drop words.length := by
  have htake : b.toList.take words.length = words := by
    refine List.ext_getElem? fun i => ?_
    by_cases hi : i < words.length
    · rw [List.getElem?_take_of_lt hi, Vector.getElem?_toList, h i hi]
    · have hlength : (b.toList.take words.length).length = words.length := by
        rw [List.length_take, Vector.length_toList]
        omega
      rw [List.getElem?_eq_none (by omega), List.getElem?_eq_none (by omega)]
  calc b.toList = b.toList.take words.length ++ b.toList.drop words.length :=
      (List.take_append_drop _ _).symm
    _ = words ++ b.toList.drop words.length := by rw [htake]

/-- A buffer that starts with a request spells it, whatever is behind the request. -/
theorem spells_of_image {b : Buffer} (hids : ∀ r ∈ requests, r.id ≠ TagId.endMarker)
    (hfit : Mailbox.requestWords (requestTags requests) ≤ bufferWords)
    (himage : ∀ i < Mailbox.requestWords (requestTags requests),
      b[i]? = (Mailbox.requestImage (requestTags requests))[i]?) : b.Spells requests := by
  have hwords : 2 + (requestTags requests).length + 1 =
    Mailbox.requestWords (requestTags requests) := rfl
  have hlength := length_requestImage (requestTags requests)
  constructor
  case size =>
    rw [himage 0 (by omega), Mailbox.requestImage, List.getElem?_cons_zero, Option.map_some,
      UInt32.toNat_ofNat']
    rw [bufferWords] at hfit
    congr 1
    omega
  case code =>
    rw [himage 1 (by omega)]
    rfl
  case records =>
    have htags : ∀ t ∈ requests.map Request.prepared,
        t.id ≠ TagId.endMarker ∧ t.size.toNat / 4 = t.value.length := by
      intro t ht
      obtain ⟨r, hr, rfl⟩ := List.mem_map.mp ht
      refine ⟨hids r hr, ?_⟩
      rw [Request.size_prepared (length_value_le hr hfit)]
      exact Nat.mul_div_cancel_left _ (by decide)
    refine ⟨requests.map Request.prepared, ?_, ?_⟩
    · have hflat : requestTags requests = (requests.map Request.prepared).flatMap Tag.words :=
        (List.flatMap_map ..).symm
      have hlast : Mailbox.requestWords (requestTags requests) - 1 =
          headerWords + (requestTags requests).length := by
        rw [← hwords, headerWords]
        omega
      rw [← hlength] at hfit himage
      rw [toList_eq_append hfit himage, hlast]
      simp only [Mailbox.requestImage, headerWords, List.cons_append, List.drop_succ_cons,
        List.drop_zero, List.append_assoc]
      rw [hflat]
      exact readRecords_flatMap htags _ _
    · rw [List.forall₂_map_right_iff, List.forall₂_same]
      exact fun r hr => Request.asks_prepared (length_value_le hr hfit)

/-! ### The message -/

variable {φ : Type} {m : Mailbox} {M : Machine m.buffer φ} {tags : List UInt32} {s s' : State φ}
  {r : Register} {value : UInt32}

theorem visits_request (o : Op) : (request o).visits M.device s = [(o, s)] :=
  Prog.visits_request ..

theorem written_of_post {patience : Nat} {data : UInt32}
    (h : (.write r value, s') ∈ (post patience data).visits M.device s) :
    r = .outbox ∧ value = encodeMessage data ∧ s'.cached = s.cached ∧
      M.Clears .outboxStatus fullBit s.side s'.side := by
  rw [post, Prog.mem_visits_bind] at h
  obtain hawait | ⟨⟨⟩, s1, hawait, hwrite⟩ := h
  · exact absurd rfl ((awaitClear_readsOnly _ _ _).visits _ hawait r value)
  · obtain ⟨b, rfl, hclears⟩ := clears_of_awaitClear hawait
    rcases hwrite with _ | ⟨_, ⟨⟩⟩
    exact ⟨rfl, rfl, rfl, hclears⟩

theorem visits_submit (hfit : Mailbox.requestWords tags ≤ bufferWords) :
    (m.submit tags).visits M.device s =
      (.fill (Mailbox.requestImage tags), s) ::
      (.clean m.buffer (4 * Mailbox.requestWords tags),
        { s with cached := s.cached.store (Mailbox.requestImage tags) }) ::
      (.syncBarrier, ⟨M.handed tags s, s.cached.store (Mailbox.requestImage tags)⟩) ::
      (post m.patience m.payload).visits M.device
        ⟨M.handed tags s, s.cached.store (Mailbox.requestImage tags)⟩ := by
  rw [← length_requestImage tags] at hfit
  simp only [Mailbox.submit, Prog.visits_bind, run_fill hfit, run_clean, run_syncBarrier,
    Option.elim_some, Machine.handed]
  rw [visits_request (.fill _), visits_request (.clean _ _), visits_request .syncBarrier]
  rfl

/-- The only write of a transaction is that of its message, which it makes once the request is
handed over and there is room. -/
theorem written_of_visits (hfit : Mailbox.requestWords tags ≤ bufferWords)
    (h : (.write r value, s') ∈ (m.transactInPlace tags).visits M.device s) :
    r = .outbox ∧ value = encodeMessage m.payload ∧
      s'.cached = s.cached.store (Mailbox.requestImage tags) ∧
      M.Clears .outboxStatus fullBit (M.handed tags s) s'.side := by
  rw [Mailbox.transactInPlace, if_neg (by omega), Prog.mem_visits_bind, visits_submit hfit] at h
  obtain hsubmit | ⟨⟨⟩, s1, -, hrest⟩ := h
  · simp only [List.mem_cons, Prod.mk.injEq, reduceCtorEq, false_and, false_or] at hsubmit
    simpa only using written_of_post hsubmit
  · have hreads : ReadsOnly (receive m.patience >>= m.collect tags) :=
      .bind (receiveWithin_readsOnly m.patience m.patience) (collect_readsOnly m tags)
    exact absurd rfl (hreads.visits _ hrest r value)

/-- Where there comes to be room a driver with enough patience makes the write. -/
theorem visits_of_clears (hfit : Mailbox.requestWords tags ≤ bufferWords) {a : Side φ}
    (h : M.Clears .outboxStatus fullBit (M.handed tags s) a) :
    ∃ enough, ∀ patience ≥ enough,
      (.write .outbox (encodeMessage m.payload), ⟨a, s.cached.store (Mailbox.requestImage tags)⟩) ∈
        ({ m with patience }.transactInPlace tags).visits M.device s := by
  obtain ⟨enough, hpost⟩ := awaitClear_of_clears h
  refine ⟨enough, fun patience hpatience => ?_⟩
  have hposted : (.write .outbox (encodeMessage m.payload),
      ⟨a, s.cached.store (Mailbox.requestImage tags)⟩) ∈ (post patience m.payload).visits M.device
        ⟨M.handed tags s, s.cached.store (Mailbox.requestImage tags)⟩ := by
    rw [post, Prog.mem_visits_bind]
    exact .inr ⟨(), _, hpost patience hpatience _, List.mem_singleton.mpr rfl⟩
  rw [Mailbox.transactInPlace, if_neg (by omega), Prog.mem_visits_bind,
    visits_submit (m := { m with patience }) hfit]
  exact .inl (List.mem_append_right [_, _, _] hposted)

theorem Machine.Clears.memory_eq {bits : UInt32} {a b : Side φ} (h : M.Clears r bits a b)
    (hkeeps : ∀ a, (M.read r a).2.memory = a.memory) : b.memory = a.memory := by
  induction h with
  | clear => exact hkeeps _
  | busy _ _ ih => exact ih.trans (hkeeps _)

/-- Whenever a message is written the buffer spells the request, as the driver sees it and, unless
the firmware has changed it while there was no room, also in memory. Where there comes to be room,
a driver with enough patience writes the message. -/
theorem message_spells_request (m : Mailbox) (M : Machine m.buffer φ) (requests : List Request)
    (s : State φ) (hids : ∀ r ∈ requests, r.id ≠ TagId.endMarker)
    (hfit : Mailbox.requestWords (requestTags requests) ≤ bufferWords) :
    (∀ r value s', (.write r value, s') ∈
        (m.transactInPlace (requestTags requests)).visits M.device s →
      s'.cached.Spells requests ∧
      ((∀ a, (M.read .outboxStatus a).2.memory = a.memory) → s'.side.memory.Spells requests)) ∧
    (∀ a, M.Clears .outboxStatus fullBit (M.handed (requestTags requests) s) a →
      ∃ enough, ∀ patience ≥ enough, ∃ s',
        (.write .outbox (encodeMessage m.payload), s') ∈
          ({ m with patience }.transactInPlace (requestTags requests)).visits M.device s) := by
  constructor
  · intro r value s' hwritten
    obtain ⟨-, -, hcached, hclears⟩ := written_of_visits hfit hwritten
    refine ⟨spells_of_image hids hfit fun i hi => ?_, fun hkeeps =>
      spells_of_image hids hfit fun i hi => ?_⟩
    · rw [← length_requestImage] at hfit hi
      rw [hcached]
      exact s.cached.getElem?_store hfit hi
    · rw [hclears.memory_eq hkeeps]
      exact getElem?_handed M hfit s hi
  · intro a hclears
    obtain ⟨enough, hwrites⟩ := visits_of_clears hfit hclears
    exact ⟨enough, fun patience hpatience => ⟨_, hwrites patience hpatience⟩⟩

/-- A request for a serial number and the rate of a clock, over the words of an earlier one. -/
theorem message_spells_request_stale :
    let requests : List Request := [⟨⟨0, 0, 0, [0, 0]⟩, TagId.boardSerial, 0⟩,
      ⟨⟨0, 0, 0, [4, 0]⟩, TagId.clockRate, 0x80000004⟩]
    let s : State (List UInt32) := ⟨⟨[], Vector.replicate _ 0xFF⟩, Vector.replicate _ 0xEE⟩
    ∃ patience s', (.write .outbox 0xC0004008, s') ∈
        (Mailbox.transactInPlace ⟨⟨0x4000⟩, 0xC0000000, patience⟩ (requestTags requests)).visits
          incrementing.device s ∧
      s'.cached.Spells requests ∧ s'.side.memory.Spells requests := by
  intro requests s
  have hids : ∀ r ∈ requests, r.id ≠ TagId.endMarker := by decide
  have hfit : Mailbox.requestWords (requestTags requests) ≤ bufferWords := by decide
  obtain ⟨enough, hwrites⟩ :=
    (message_spells_request ⟨⟨0x4000⟩, 0xC0000000, 0⟩ incrementing requests s hids hfit).2 _
      (.clear UInt32.zero_and)
  obtain ⟨s', hwritten⟩ := hwrites enough (Nat.le_refl _)
  obtain ⟨hcached, hmemory⟩ :=
    (message_spells_request ⟨⟨0x4000⟩, 0xC0000000, enough⟩ incrementing requests s hids hfit).1
      _ _ _ hwritten
  exact ⟨enough, s', hwritten, hcached, hmemory fun _ => rfl⟩

end Peripherals.Mailbox
