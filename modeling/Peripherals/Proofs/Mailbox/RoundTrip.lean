import Mathlib.Algebra.Group.Nat.Defs
import Peripherals.Proofs.Mailbox.Order

/-! What is posted and echoed comes back as it was, behind whatever else arrives. A buffer and a
window that are aligned to 16 bytes leave the low digit of the bus address to the channel, so the
message for a request spells the whole address. -/

namespace Peripherals.Mailbox

/-! ### Words -/

theorem toNat_shiftLeft_four (word : UInt32) :
    (word <<< 4).toNat = word.toNat % 2 ^ 28 * 16 := by
  rw [UInt32.toNat_shiftLeft]
  show word.toNat <<< 4 % 2 ^ 32 = _
  rw [Nat.shiftLeft_eq]
  omega

theorem toNat_shiftRight_four (word : UInt32) : (word >>> 4).toNat = word.toNat / 16 := by
  rw [UInt32.toNat_shiftRight]
  exact Nat.shiftRight_eq_div_pow _ 4

/-- The channel goes where the payload leaves room for it. -/
theorem toNat_or_channel {high : UInt32} (h : 16 ∣ high.toNat) :
    (high ||| propertyChannel).toNat = high.toNat + 8 := by
  obtain ⟨n, hn⟩ := h
  rw [UInt32.toNat_or, hn]
  exact (Nat.two_pow_add_eq_or_of_lt (i := 4) (by decide) n).symm

theorem toNat_encodeMessage (data : UInt32) :
    (encodeMessage data).toNat = data.toNat % 2 ^ 28 * 16 + 8 := by
  have hshift := toNat_shiftLeft_four data
  rw [encodeMessage, toNat_or_channel (by omega), hshift]

/-- The low digit of a message is the channel, and above it are the low 28 bits of the data. -/
theorem encodeMessage_digits (data : UInt32) : (encodeMessage data).toNat % 16 = 8 ∧
    (encodeMessage data).toNat / 16 = data.toNat % 2 ^ 28 := by
  rw [toNat_encodeMessage]
  omega

theorem toNat_toBus (a : PhysAddr) (window : UInt32) :
    (a.toBus window).value.toNat = (a.value.toNat + window.toNat) % 2 ^ 32 := by
  rw [PhysAddr.toBus, UInt32.toNat_add, UInt64.toNat_toUInt32, Nat.mod_add_mod]

/-- An echo carries what was posted. -/
theorem encodeMessage_shiftRight {data : UInt32} (h : data.toNat < 2 ^ 28) :
    encodeMessage data >>> 4 = data := by
  apply UInt32.toNat_inj.mp
  rw [toNat_shiftRight_four, toNat_encodeMessage]
  omega

/-- The message for an aligned bus address is the address with the channel in its low digit. -/
theorem encodeMessage_address {bus : UInt32} (h : 16 ∣ bus.toNat) :
    encodeMessage (bus >>> 4) = bus ||| propertyChannel := by
  have hlt := bus.toNat_lt
  apply UInt32.toNat_inj.mp
  rw [toNat_encodeMessage, toNat_or_channel h, toNat_shiftRight_four]
  omega

theorem or_channel_shift {bus : UInt32} (h : 16 ∣ bus.toNat) :
    ((bus ||| propertyChannel) >>> 4) <<< 4 = bus := by
  have hlt := bus.toNat_lt
  apply UInt32.toNat_inj.mp
  rw [toNat_shiftLeft_four, toNat_shiftRight_four, toNat_or_channel h]
  omega

/-! ### Sequences of readings -/

/-- What the registers show: for each register, its value at every reading. -/
abbrev Feed := Register → Nat → UInt32

/-- How often each register has been read, and what has been written. -/
structure Seen where
  reads : Register → Nat := fun _ => 0
  written : List (Register × UInt32) := []

namespace Seen

/-- A reading of `r`. -/
def next (s : Seen) (r : Register) : Seen :=
  { s with reads := fun r' => s.reads r' + if r' = r then 1 else 0 }

@[simp] theorem reads_next_self (s : Seen) (r : Register) : (s.next r).reads r = s.reads r + 1 := by
  simp [next]

@[simp] theorem reads_next_of_ne (s : Seen) {r r' : Register} (h : r' ≠ r) :
    (s.next r).reads r' = s.reads r' := by
  simp [next, h]

end Seen

namespace Feed

def device (x : Feed) : Device port Seen
  | .read r, s => some (x r (s.reads r), s.next r)
  | .write r value, s => some ((), { s with written := s.written ++ [(r, value)] })
  | .load _, s => some (0, s)
  | .fill _, s | .clean _ _, s | .invalidate _ _, s | .syncBarrier, s | .memoryBarrier, s
  | .note _, s => some ((), s)

/-- How many of `count` readings of the status `r`, from the number `first` on, have none of `bits`
set. -/
def clears (x : Feed) (r : Register) (bits : UInt32) (first count : Nat) : Nat :=
  (List.range' first count).countP fun i => x r i &&& bits = 0

/-- At some reading from here on the outbox has room. -/
def HasRoom (x : Feed) (s : Seen) : Prop :=
  ∃ i, x .outboxStatus (s.reads .outboxStatus + i) &&& fullBit = 0

/-- The first message on the property channel is number `n` from here on, and the inbox shows as
many messages as that takes. -/
structure Brings (x : Feed) (s : Seen) (n : Nat) : Prop where
  foreign : ∀ i < n, (x .inbox (s.reads .inbox + i)).toNat % 16 ≠ 8
  ours : (x .inbox (s.reads .inbox + n)).toNat % 16 = 8
  shown : ∃ count, n < x.clears .inboxStatus emptyBit (s.reads .inboxStatus) count

variable {x : Feed} {r : Register} {bits data : UInt32} {s s' : Seen} {n first count : Nat}

theorem clears_pos {i : Nat} (h : x r (first + i) &&& bits = 0) :
    0 < x.clears r bits first (i + 1) :=
  List.countP_pos_iff.mpr ⟨first + i, List.mem_range'_1.mpr (by omega), decide_eq_true h⟩

theorem clears_succ_of_clear (h : x r n &&& bits = 0) :
    x.clears r bits n (count + 1) = x.clears r bits (n + 1) count + 1 := by
  simp [clears, List.range'_succ, h]

theorem clears_succ_of_busy (h : x r n &&& bits ≠ 0) :
    x.clears r bits n (count + 1) = x.clears r bits (n + 1) count := by
  simp [clears, List.range'_succ, h]

/-- Polling sees the first reading that is clear. -/
theorem exists_polls (hclear : 0 < x.clears r bits (s.reads r) count) :
    ∃ t s', Polls r bits t ∧ Prog.Gives x.device t s s' ∧ s'.written = s.written ∧
      ∀ r' ≠ r, s'.reads r' = s.reads r' := by
  induction count generalizing s with
  | zero => exact absurd hclear (Nat.lt_irrefl 0)
  | succ count ih =>
    by_cases hvalue : x r (s.reads r) &&& bits = 0
    · exact ⟨_, s.next r, .clear hvalue, .cons rfl (.nil _), rfl,
        fun r' hr' => s.reads_next_of_ne hr'⟩
    · rw [clears_succ_of_busy hvalue, ← s.reads_next_self r] at hclear
      obtain ⟨t, s', hpolls, hgives, hwritten, hreads⟩ := ih hclear
      exact ⟨_, s', .busy hvalue hpolls, .cons rfl hgives, hwritten, fun r' hr' =>
        (hreads r' hr').trans (s.reads_next_of_ne hr')⟩

/-- Receiving takes the messages up to the first that is ours, where the status shows as many. -/
theorem exists_receives
    (hforeign : ∀ i < n, (x .inbox (s.reads .inbox + i)).toNat % 16 ≠ 8)
    (hours : (x .inbox (s.reads .inbox + n)).toNat % 16 = 8)
    (hclear : n < x.clears .inboxStatus emptyBit (s.reads .inboxStatus) count) :
    ∃ t foreign s', Receives t foreign (x .inbox (s.reads .inbox + n)) ∧
      Prog.Gives x.device t s s' ∧ s'.reads .inbox = s.reads .inbox + n + 1 ∧
      s'.written = s.written := by
  induction count generalizing s n with
  | zero => exact absurd hclear (Nat.not_lt_zero n)
  | succ count ih =>
    let s1 := s.next .inboxStatus
    have hinbox : s1.reads .inbox = s.reads .inbox := s.reads_next_of_ne (by decide)
    by_cases hvalue : x .inboxStatus (s.reads .inboxStatus) &&& emptyBit = 0
    case neg =>
      rw [clears_succ_of_busy hvalue, ← s.reads_next_self .inboxStatus] at hclear
      obtain ⟨t, foreign, s', hreceives, hgives, hreads, hwritten⟩ :=
        ih (s := s1) (by rwa [hinbox]) (by rwa [hinbox]) hclear
      rw [hinbox] at hreceives hreads
      exact ⟨_, foreign, s', .busy hvalue hreceives, .cons rfl hgives, hreads, hwritten⟩
    rw [clears_succ_of_clear hvalue] at hclear
    let s2 := s1.next .inbox
    have hinbox2 : s2.reads .inbox = s.reads .inbox + 1 := by
      rw [s1.reads_next_self, hinbox]
    have hstatus2 : s2.reads .inboxStatus = s.reads .inboxStatus + 1 := by
      rw [s1.reads_next_of_ne (by decide), s.reads_next_self]
    have hmessage : x.device (.read .inbox) s1 = some (x .inbox (s.reads .inbox), s2) := by
      rw [← hinbox]
      rfl
    cases n with
    | zero =>
      exact ⟨_, [], s2, .ours (.clear hvalue) hours, .cons rfl (.cons hmessage (.nil _)), hinbox2,
        rfl⟩
    | succ n =>
      have hplace (i : Nat) : s2.reads .inbox + i = s.reads .inbox + (i + 1) := by omega
      obtain ⟨t, foreign, s', hreceives, hgives, hreads, hwritten⟩ := ih (s := s2)
        (fun i hi => by
          rw [hplace]
          exact hforeign (i + 1) (Nat.succ_lt_succ hi))
        (by rwa [hplace]) (by rw [hstatus2]; exact Nat.lt_of_succ_lt_succ hclear)
      rw [hplace] at hreceives hreads
      exact ⟨_, _, s', .foreign (.clear hvalue) (hforeign 0 (Nat.succ_pos n)) hreceives,
        .cons rfl (.cons hmessage (.cons rfl hgives)), hreads, hwritten⟩

/-- The readings of other registers do not matter to what the inbox brings. -/
theorem Brings.of_reads (h : x.Brings s n) (hreads : ∀ r ≠ .outboxStatus, s'.reads r = s.reads r) :
    x.Brings s' n := by
  have hinbox := hreads .inbox (by decide)
  have hstatus := hreads .inboxStatus (by decide)
  constructor
  · rw [hinbox]
    exact h.foreign
  · rw [hinbox]
    exact h.ours
  · rw [hstatus]
    exact h.shown

/-- Where there comes to be room, the message is posted. -/
theorem run_post (hroom : x.HasRoom s) (data : UInt32) :
    ∃ enough s', s'.written = s.written ++ [(.outbox, encodeMessage data)] ∧
      (∀ r ≠ .outboxStatus, s'.reads r = s.reads r) ∧
      ∀ patience ≥ enough, (post patience data).run x.device s = some ((), s') := by
  obtain ⟨i, hclear⟩ := hroom
  obtain ⟨polls, s1, hpolls, hgives, hwritten, hreads⟩ := exists_polls (clears_pos hclear)
  let s' : Seen := { s1 with written := s1.written ++ [(.outbox, encodeMessage data)] }
  refine ⟨polls.length + 1, s', congrArg (· ++ _) hwritten, hreads, fun patience hpatience => ?_⟩
  have hposts : Posts data (polls ++ [⟨.write .outbox (encodeMessage data), ()⟩]) :=
    ⟨polls, hpolls, rfl⟩
  refine (hposts.ends ?_).run (hgives.append (.cons rfl (.nil s')))
  rwa [List.length_append]

/-- Where a message on the property channel comes, it is received, and later ones are not read. -/
theorem run_receive (h : x.Brings s n) :
    ∃ enough s', s'.reads .inbox = s.reads .inbox + n + 1 ∧ s'.written = s.written ∧
      ∀ patience ≥ enough,
        (receive patience).run x.device s = some (x .inbox (s.reads .inbox + n) >>> 4, s') := by
  obtain ⟨count, hclear⟩ := h.shown
  obtain ⟨t, foreign, s', hreceives, hgives, hreads, hwritten⟩ :=
    exists_receives h.foreign h.ours hclear
  exact ⟨t.length, s', hreads, hwritten, fun patience hpatience =>
    (hreceives.ends hpatience hpatience).run hgives⟩

/-- What is posted and echoed comes back. -/
theorem run_echo (hroom : x.HasRoom s) (hbrings : x.Brings s n) (hdata : data.toNat < 2 ^ 28)
    (hecho : x .inbox (s.reads .inbox + n) = encodeMessage data) :
    ∃ enough s', s'.written = s.written ++ [(.outbox, encodeMessage data)] ∧
      ∀ patience ≥ enough,
        (do post patience data; receive patience).run x.device s = some (data, s') := by
  obtain ⟨enough, s1, hwritten, hreads, hpost⟩ := run_post hroom data
  obtain ⟨enough', s', -, hwritten', hreceive⟩ := run_receive (hbrings.of_reads hreads)
  refine ⟨enough + enough', s', hwritten'.trans hwritten, fun patience hpatience => ?_⟩
  rw [hreads .inbox (by decide), hecho, encodeMessage_shiftRight hdata] at hreceive
  exact Prog.run_bind_eq_some.mpr
    ⟨(), s1, hpost patience (by omega), hreceive patience (by omega)⟩

end Feed

/-! ### The address of a request -/

section Address

variable {m : Mailbox} {tags : List UInt32} {t : History} {patience : Nat} {data : UInt32}

theorem begins_post_writes (h : (post patience data).Begins t) :
    writes t <+: [(.outbox, encodeMessage data)] := by
  obtain ⟨rest, hposts⟩ := exists_posts_of_begins h
  rw [← hposts.writes, writes_append]
  exact List.prefix_append ..

theorem begins_submit_writes (h : (m.submit tags).Begins t) :
    writes t <+: [(.outbox, encodeMessage m.payload)] := by
  obtain ⟨rest, posting, hposting, heq⟩ := exists_submits_of_begins h
  have hwrites : writes (t ++ rest) = [(.outbox, encodeMessage m.payload)] := by
    rw [heq, writes_append, hposting.writes]
    rfl
  rw [← hwrites, writes_append]
  exact List.prefix_append ..

theorem answer_readsOnly (m : Mailbox) (tags : List UInt32) :
    ReadsOnly (receive m.patience >>= m.collect tags) :=
  (receiveWithin_readsOnly _ _).bind (collect_readsOnly m tags)

/-- However far a transaction comes, it posts nothing but its message, and that once at most. -/
theorem begins_transaction_writes (h : (m.transactInPlace tags).Begins t) :
    writes t <+: [(.outbox, encodeMessage m.payload)] := by
  rw [Mailbox.transactInPlace] at h
  split at h
  · obtain rfl := Prog.begins_pure.mp h
    exact List.nil_prefix
  obtain hsubmit | ⟨t1, t2, ⟨⟩, rfl, hsubmit, hrest⟩ := Prog.begins_bind.mp h
  · exact begins_submit_writes hsubmit
  rw [writes_append, submit_writes hsubmit, (answer_readsOnly m tags).writes_eq_nil hrest]
  exact List.prefix_append ..

/-- Where there comes to be room, a transaction posts its message, even if no answer comes. -/
theorem writes_of_hasRoom {x : Feed} {s : Seen} (hfit : Mailbox.requestWords tags ≤ bufferWords)
    (hroom : x.HasRoom s) : ∃ enough, ∀ patience ≥ enough,
      writes (({ m with patience }.transactInPlace tags).requests x.device s) =
        [(.outbox, encodeMessage m.payload)] := by
  obtain ⟨enough, s', -, -, hpost⟩ := Feed.run_post hroom m.payload
  refine ⟨enough, fun patience hpatience => ?_⟩
  have hsubmit : ({ m with patience }.submit tags).run x.device s = some ((), s') :=
    hpost patience hpatience
  have hrest := Prog.begins_requests x.device
    (receive patience >>= { m with patience }.collect tags) s'
  rw [Mailbox.transactInPlace, if_neg (by omega), Prog.requests_bind, hsubmit, writes_append,
    submit_writes (Prog.ends_of_run hsubmit)]
  exact congrArg (_ ++ ·) ((answer_readsOnly { m with patience } tags).writes_eq_nil hrest)

variable (hbuffer : 16 ∣ m.buffer.value.toNat) (hwindow : 16 ∣ m.window.toNat)
include hbuffer hwindow

theorem dvd_toBus : 16 ∣ (m.buffer.toBus m.window).value.toNat := by
  rw [toNat_toBus]
  omega

/-- The message for a request is the bus address of the buffer with the channel in its low digit. -/
theorem encodeMessage_payload :
    encodeMessage m.payload = (m.buffer.toBus m.window).value ||| propertyChannel ∧
      (encodeMessage m.payload >>> 4) <<< 4 = (m.buffer.toBus m.window).value := by
  have hbus := dvd_toBus hbuffer hwindow
  rw [Mailbox.payload, encodeMessage_address hbus]
  exact ⟨rfl, or_channel_shift hbus⟩

end Address

/-! ### Both directions -/

section Directions

variable {t : History} {patience : Nat}

theorem begins_post_guarded {data : UInt32} (h : (post patience data).Begins t) :
    Guarded (.write .outbox (encodeMessage data)) .outboxStatus fullBit t := by
  obtain ⟨rest, hposts⟩ := exists_posts_of_begins h
  exact hposts.guarded.of_append

theorem begins_receive_guarded (h : (receive patience).Begins t) :
    Guarded (.read .inbox) .inboxStatus emptyBit t := by
  obtain ⟨rest, foreign, ours, hreceives⟩ := exists_receives_of_begins h
  exact hreceives.guarded.of_append

/-- No message on the property channel is dropped. -/
theorem begins_receive_dropped (h : (receive patience).Begins t) :
    ∀ message ∈ dropped t, message.toNat % 16 ≠ 8 := by
  obtain ⟨rest, foreign, ours, hreceives⟩ := exists_receives_of_begins h
  intro message hmessage
  apply hreceives.channels.1
  rw [← hreceives.dropped, dropped_append]
  exact List.mem_append_left _ hmessage

/-- Receiving ends with the first message on the property channel. -/
theorem ends_receive {payload : UInt32} (h : (receive patience).Ends t payload) :
    ∃ foreign ours, taken t = foreign ++ [ours] ∧ dropped t = foreign ∧
      (∀ message ∈ foreign, message.toNat % 16 ≠ 8) ∧ ours.toNat % 16 = 8 ∧
      payload.toNat = ours.toNat / 16 := by
  obtain ⟨foreign, ours, hreceives, rfl⟩ := receives_of_ends h
  obtain ⟨hforeign, hours⟩ := hreceives.channels
  exact ⟨foreign, ours, hreceives.taken, hreceives.dropped, hforeign, hours,
    toNat_shiftRight_four ours⟩

end Directions

/-- A message is posted behind a reading of the status with room, and carries the low 28 bits of the
data. Messages are taken one by one behind a reading of the status that shows one; those on other
channels are dropped in order, and the first on the property channel is the result, with the later
ones left alone. An echo gives the data back. The message of a request spells the bus address of
its buffer. -/
theorem messages_round_trip :
    (∀ patience data t, (post patience data).Begins t →
      Guarded (.write .outbox (encodeMessage data)) .outboxStatus fullBit t ∧
      writes t <+: [(.outbox, encodeMessage data)] ∧
      ((post patience data).Ends t () → writes t = [(.outbox, encodeMessage data)])) ∧
    (∀ data, (encodeMessage data).toNat % 16 = 8 ∧
      (encodeMessage data).toNat / 16 = data.toNat % 2 ^ 28 ∧
      ∀ (x : Feed) s, x.HasRoom s → ∃ enough s',
        s'.written = s.written ++ [(.outbox, encodeMessage data)] ∧
        ∀ patience ≥ enough, (post patience data).run x.device s = some ((), s')) ∧
    (∀ patience t, (receive patience).Begins t →
      Guarded (.read .inbox) .inboxStatus emptyBit t ∧
      (∀ message ∈ dropped t, message.toNat % 16 ≠ 8) ∧
      ∀ payload, (receive patience).Ends t payload → ∃ foreign ours,
        taken t = foreign ++ [ours] ∧ dropped t = foreign ∧
        (∀ message ∈ foreign, message.toNat % 16 ≠ 8) ∧ ours.toNat % 16 = 8 ∧
        payload.toNat = ours.toNat / 16) ∧
    (∀ (x : Feed) s n, x.Brings s n → ∃ enough s', s'.reads .inbox = s.reads .inbox + n + 1 ∧
      ∀ patience ≥ enough,
        (receive patience).run x.device s = some (x .inbox (s.reads .inbox + n) >>> 4, s')) ∧
    (∀ (x : Feed) s n (data : UInt32), x.HasRoom s → x.Brings s n → data.toNat < 2 ^ 28 →
      x .inbox (s.reads .inbox + n) = encodeMessage data →
      ∃ enough s', s'.written = s.written ++ [(.outbox, encodeMessage data)] ∧
        ∀ patience ≥ enough,
          (do post patience data; receive patience).run x.device s = some (data, s')) ∧
    ∀ (m : Mailbox) (tags : List UInt32), 16 ∣ m.buffer.value.toNat → 16 ∣ m.window.toNat →
      ∃ bus : UInt32, bus.toNat = (m.buffer.value.toNat + m.window.toNat) % 2 ^ 32 ∧
        ((bus ||| 8) >>> 4) <<< 4 = bus ∧
        (∀ t, (m.transactInPlace tags).Begins t → writes t <+: [(.outbox, bus ||| 8)]) ∧
        (tags.length ≤ 1021 →
          (∀ t out, (m.transactInPlace tags).Ends t out → writes t = [(.outbox, bus ||| 8)]) ∧
          ∀ (x : Feed) s, x.HasRoom s → ∃ enough, ∀ patience ≥ enough,
            writes (({ m with patience }.transactInPlace tags).requests x.device s) =
              [(.outbox, bus ||| 8)]) := by
  refine ⟨fun patience data t h => ⟨begins_post_guarded h, begins_post_writes h, post_writes⟩,
    fun data => ⟨(encodeMessage_digits data).1, (encodeMessage_digits data).2, fun x s hroom => ?_⟩,
    fun patience t h => ⟨begins_receive_guarded h, begins_receive_dropped h, fun _ => ends_receive⟩,
    fun x s n hbrings => ?_, fun x s n data => Feed.run_echo, fun m tags hbuffer hwindow => ?_⟩
  · obtain ⟨enough, s', hwritten, -, hrun⟩ := Feed.run_post hroom data
    exact ⟨enough, s', hwritten, hrun⟩
  · obtain ⟨enough, s', hreads, -, hrun⟩ := Feed.run_receive hbrings
    exact ⟨enough, s', hreads, hrun⟩
  · obtain ⟨hmessage, hback⟩ := encodeMessage_payload hbuffer hwindow
    rw [hmessage] at hback
    refine ⟨_, toNat_toBus m.buffer m.window, hback, ?_, fun hshort => ?_⟩
    all_goals rw [← propertyChannel, ← hmessage]
    · exact fun t => begins_transaction_writes
    · have hwords := requestWords_eq tags
      have hfit : Mailbox.requestWords tags ≤ bufferWords := by
        rw [hwords, bufferWords]
        omega
      exact ⟨fun t out => transactInPlace_writes hfit, fun x s => writes_of_hasRoom hfit⟩

/-- A machine on which the outbox is full once, and the echo comes behind another message. -/
def congested : Feed
  | .outboxStatus, 0 => fullBit
  | .inbox, 0 => 0x10
  | .inbox, _ => 0x12345678
  | _, _ => 0

/-- A message that is echoed, and a request at `0x4000` in the window at `0xC0000000`. -/
theorem messages_round_trip_congested :
    (∃ patience s', (do post patience 0x1234567; receive patience).run congested.device {} =
      some (0x1234567, s') ∧ s'.written = [(.outbox, 0x12345678)]) ∧
    ∃ patience, writes ((Mailbox.transactInPlace ⟨⟨0x4000⟩, 0xC0000000, patience⟩ [7, 8]).requests
      congested.device {}) = [(.outbox, 0xC0004008)] := by
  obtain ⟨-, -, -, -, hecho, haddress⟩ := messages_round_trip
  have hroom : congested.HasRoom {} := ⟨1, by decide⟩
  have hbrings : congested.Brings {} 1 := by
    refine ⟨fun i hi => ?_, by decide, 2, by decide⟩
    obtain rfl : i = 0 := by omega
    decide
  constructor
  · obtain ⟨enough, s', hwritten, hrun⟩ :=
      hecho congested {} 1 0x1234567 hroom hbrings (by decide) (by decide)
    exact ⟨enough, s', hrun enough (Nat.le_refl _), hwritten⟩
  · obtain ⟨bus, hbus, -, -, hposts⟩ :=
      haddress ⟨⟨0x4000⟩, 0xC0000000, 0⟩ [7, 8] (by decide) (by decide)
    obtain ⟨enough, hwrites⟩ := (hposts (by decide)).2 congested {} hroom
    obtain rfl : bus = 0xC0004000 := UInt32.toNat_inj.mp hbus
    exact ⟨enough, hwrites enough (Nat.le_refl _)⟩

end Peripherals.Mailbox
