import Peripherals.Proofs.Mailbox.Messages

/-! The order in which a transaction uses the cache, the barriers, the registers and the buffer. The
request is written back before its message is posted, and the answer is discarded from the cache
before it is loaded. -/

namespace Peripherals.Mailbox

variable {m : Mailbox} {tags : List UInt32} {t : History}

/-! ### Shapes -/

/-- The words of the buffer from the word `index` on are loaded, one after another. -/
def loads (index : Nat) (words : List UInt32) : History :=
  (words.zipIdx index).map fun (word, i) => ⟨.load i, word⟩

/-- The request is stored, written back as far as it reaches, and posted. -/
def Submits (m : Mailbox) (tags : List UInt32) (t : History) : Prop :=
  ∃ posting, Posts m.payload posting ∧
    t = [⟨.fill (Mailbox.requestImage tags), ()⟩, ⟨.clean m.buffer (4 * (tags.length + 3)), ()⟩,
      ⟨.syncBarrier, ()⟩] ++ posting

/-- What is done about the payload `received` where the address of the buffer was posted, with
`count` words of records in it. Only an echo makes the driver look at the answer, and behind the
barrier. -/
inductive Closes (m : Mailbox) (received : UInt32) (count : Nat) : History → Prop
  | mismatch : received ≠ m.payload →
    Closes m received count [⟨.note (.mismatch m.payload received), ()⟩]
  | refused {code : UInt32} : received = m.payload → code ≠ successCode →
    Closes m received count [⟨.invalidate m.buffer (4 * (count + 3)), ()⟩, ⟨.memoryBarrier, ()⟩,
      ⟨.load 1, code⟩, ⟨.note (.refused code), ()⟩]
  | answered {words : List UInt32} : received = m.payload → words.length = count →
    Closes m received count ([⟨.invalidate m.buffer (4 * (count + 3)), ()⟩, ⟨.memoryBarrier, ()⟩,
      ⟨.load 1, successCode⟩] ++ loads headerWords words)

/-- A whole transaction: the request is submitted, then messages are received, and then the answer
is looked at. -/
def Exchanges (m : Mailbox) (tags : List UInt32) (t : History) : Prop :=
  ∃ submission arrival closing foreign ours, t = submission ++ arrival ++ closing ∧
    Submits m tags submission ∧ Receives arrival foreign ours ∧
    Closes m (ours >>> 4) tags.length closing

theorem requestWords_eq (tags : List UInt32) : Mailbox.requestWords tags = tags.length + 3 := by
  rw [Mailbox.requestWords, headerWords]
  omega

/-! ### The parts of a transaction -/

theorem submits_of_ends (h : (m.submit tags).Ends t ()) : Submits m tags t := by
  obtain ⟨⟨⟩, t1, rfl, h1⟩ := Prog.ends_request_bind.mp h
  obtain ⟨⟨⟩, t2, rfl, h2⟩ := Prog.ends_request_bind.mp h1
  obtain ⟨⟨⟩, t3, rfl, hpost⟩ := Prog.ends_request_bind.mp h2
  rw [requestWords_eq]
  exact ⟨t3, posts_of_ends hpost, rfl⟩

theorem Submits.ends (h : Submits m tags t) (hpatience : t.length ≤ m.patience) :
    (m.submit tags).Ends t () := by
  obtain ⟨posting, hposts, rfl⟩ := h
  rw [List.length_append] at hpatience
  rw [← requestWords_eq]
  exact Prog.ends_request_bind.mpr ⟨(), _, rfl, Prog.ends_request_bind.mpr ⟨(), _, rfl,
    Prog.ends_request_bind.mpr ⟨(), _, rfl, hposts.ends (Nat.le_of_add_left_le hpatience)⟩⟩⟩

/-- A submission that has begun can still end. -/
theorem exists_submits_of_begins (h : (m.submit tags).Begins t) :
    ∃ rest, Submits m tags (t ++ rest) := by
  -- A beginning that comes short of the message goes on with any posting.
  obtain ⟨posting, hposting⟩ := exists_posts_of_begins (.nil (post m.patience m.payload))
  obtain rfl | ⟨⟨⟩, t1, rfl, h1⟩ := Prog.begins_request_bind.mp h
  · exact ⟨_, posting, hposting, rfl⟩
  obtain rfl | ⟨⟨⟩, t2, rfl, h2⟩ := Prog.begins_request_bind.mp h1
  · exact ⟨_, posting, hposting, rfl⟩
  rw [requestWords_eq]
  obtain rfl | ⟨⟨⟩, t3, rfl, hpost⟩ := Prog.begins_request_bind.mp h2
  · exact ⟨_, posting, hposting, rfl⟩
  obtain ⟨rest, hposts⟩ := exists_posts_of_begins hpost
  exact ⟨rest, t3 ++ rest, hposts, rfl⟩

theorem loads_of_ends {count index : Nat} {loaded : Array UInt32} {out : List UInt32}
    (h : (Mailbox.loadWords count index loaded).Ends t out) :
    ∃ words, words.length = count ∧ t = loads index words := by
  induction count generalizing index loaded t with
  | zero =>
    obtain ⟨rfl, -⟩ := Prog.ends_pure.mp h
    exact ⟨[], rfl, rfl⟩
  | succ count ih =>
    rw [Mailbox.loadWords] at h
    obtain ⟨word, t1, rfl, h1⟩ := Prog.ends_request_bind.mp h
    obtain ⟨words, hlength, rfl⟩ := ih h1
    exact ⟨word :: words, congrArg (· + 1) hlength, rfl⟩

theorem ends_loads (words : List UInt32) (index : Nat) (loaded : Array UInt32) :
    ∃ out, (Mailbox.loadWords words.length index loaded).Ends (loads index words) out := by
  induction words generalizing index loaded with
  | nil => exact ⟨_, .pure _⟩
  | cons word words ih =>
    obtain ⟨out, hends⟩ := ih (index + 1) (loaded.push word)
    exact ⟨out, Prog.ends_request_bind.mpr ⟨word, _, rfl, hends⟩⟩

theorem closes_of_ends {received : UInt32} {out : Except Error Unit × List UInt32}
    (h : (m.collect tags received).Ends t out) : Closes m received tags.length t := by
  rw [Mailbox.collect, requestWords_eq] at h
  split at h
  case isTrue hforeign =>
    obtain ⟨⟨⟩, t1, rfl, h1⟩ := Prog.ends_request_bind.mp h
    obtain ⟨rfl, -⟩ := Prog.ends_pure.mp h1
    exact .mismatch hforeign
  case isFalse hsame =>
  have hechoed : received = m.payload := Decidable.not_not.mp hsame
  obtain ⟨⟨⟩, t1, rfl, h1⟩ := Prog.ends_request_bind.mp h
  obtain ⟨⟨⟩, t2, rfl, h2⟩ := Prog.ends_request_bind.mp h1
  obtain ⟨code, t3, rfl, h3⟩ := Prog.ends_request_bind.mp h2
  split at h3
  case isTrue hrefused =>
    obtain ⟨⟨⟩, t4, rfl, h4⟩ := Prog.ends_request_bind.mp h3
    obtain ⟨rfl, -⟩ := Prog.ends_pure.mp h4
    exact .refused hechoed hrefused
  case isFalse hdone =>
    obtain ⟨t4, t5, answer, rfl, hload, h5⟩ := Prog.ends_bind.mp h3
    obtain ⟨rfl, -⟩ := Prog.ends_pure.mp h5
    obtain ⟨words, hlength, rfl⟩ := loads_of_ends hload
    obtain rfl : code = successCode := Decidable.not_not.mp hdone
    rw [List.append_nil]
    exact .answered hechoed hlength

theorem ends_reopened {α : Type} {start : PhysAddr} {bytes : Nat} {code : UInt32}
    {k : UInt32 → Prog port α} {a : α} (h : (k code).Ends t a) :
    (do request (.invalidate start bytes); request .memoryBarrier; k (← request (.load 1))).Ends
      (⟨.invalidate start bytes, ()⟩ :: ⟨.memoryBarrier, ()⟩ :: ⟨.load 1, code⟩ :: t) a :=
  Prog.ends_request_bind.mpr ⟨(), _, rfl, Prog.ends_request_bind.mpr ⟨(), _, rfl,
    Prog.ends_request_bind.mpr ⟨code, t, rfl, h⟩⟩⟩

theorem Closes.ends {received : UInt32} (h : Closes m received tags.length t) :
    ∃ out, (m.collect tags received).Ends t out := by
  rw [Mailbox.collect, requestWords_eq]
  cases h with
  | mismatch hforeign =>
    rw [if_pos hforeign]
    exact ⟨_, Prog.ends_request_bind.mpr ⟨(), [], rfl, .pure _⟩⟩
  | @refused code hechoed hrefused =>
    rw [if_neg (Decidable.not_not.mpr hechoed)]
    refine ⟨(.error (.badResponseStatus code), tags), ends_reopened ?_⟩
    rw [if_pos hrefused]
    exact Prog.ends_request_bind.mpr ⟨(), [], rfl, .pure _⟩
  | @answered words hechoed hlength =>
    obtain ⟨out, hload⟩ := ends_loads words headerWords #[]
    rw [if_neg (Decidable.not_not.mpr hechoed), ← hlength]
    refine ⟨(.ok (), out), ends_reopened ?_⟩
    rw [if_neg (Decidable.not_not.mpr rfl)]
    exact Prog.ends_bind.mpr ⟨_, [], out, (List.append_nil _).symm, hload, .pure _⟩

theorem nonempty_reply (o : Op) : Nonempty (port.Reply o) := by
  cases o with
  | read _ | load _ => exact ⟨(0 : UInt32)⟩
  | _ => exact ⟨()⟩

theorem loadWords_ensures (count index : Nat) (loaded : Array UInt32) :
    (Mailbox.loadWords count index loaded).Ensures (fun _ => True) fun _ => True := by
  induction count generalizing index loaded with
  | zero => exact .pure trivial
  | succ count ih => exact .request_bind trivial fun word => ih (index + 1) (loaded.push word)

theorem collect_ensures (m : Mailbox) (tags : List UInt32) (received : UInt32) :
    (m.collect tags received).Ensures (fun _ => True) fun _ => True := by
  rw [Mailbox.collect]
  split
  · exact .request_bind trivial fun _ => .pure trivial
  · refine .request_bind trivial fun _ => .request_bind trivial fun _ =>
      .request_bind trivial fun code => ?_
    split
    · exact .request_bind trivial fun _ => .pure trivial
    · exact (loadWords_ensures _ _ _).bind fun _ _ _ _ => .pure trivial

/-- Settling that has begun can still end. -/
theorem exists_closes_of_begins {received : UInt32} (h : (m.collect tags received).Begins t) :
    ∃ rest, Closes m received tags.length (t ++ rest) := by
  obtain ⟨rest, out, hends⟩ := (collect_ensures m tags received).exists_ends nonempty_reply h
  exact ⟨rest, closes_of_ends hends⟩

/-! ### Whole transactions -/

theorem exchanges_of_ends {out : Except Error Unit × List UInt32}
    (hfit : Mailbox.requestWords tags ≤ bufferWords) (h : (m.transactInPlace tags).Ends t out) :
    Exchanges m tags t := by
  rw [Mailbox.transactInPlace, if_neg (by omega)] at h
  obtain ⟨t1, t2, ⟨⟩, rfl, hsubmit, hrest⟩ := Prog.ends_bind.mp h
  obtain ⟨t3, t4, received, rfl, hreceive, hcollect⟩ := Prog.ends_bind.mp hrest
  obtain ⟨foreign, ours, hreceives, rfl⟩ := receives_of_ends hreceive
  exact ⟨t1, t3, t4, foreign, ours, (List.append_assoc ..).symm, submits_of_ends hsubmit,
    hreceives, closes_of_ends hcollect⟩

/-- Every way of this shape is one in which a transaction can end. -/
theorem Exchanges.ends (hfit : Mailbox.requestWords tags ≤ bufferWords) (h : Exchanges m tags t)
    (hpatience : t.length ≤ m.patience) : ∃ out, (m.transactInPlace tags).Ends t out := by
  obtain ⟨submission, arrival, closing, foreign, ours, rfl, hsubmits, hreceives, hcloses⟩ := h
  simp only [List.length_append] at hpatience
  obtain ⟨out, hcollect⟩ := hcloses.ends
  have hsubmit := hsubmits.ends (by omega)
  have hreceive : (receive m.patience).Ends arrival (ours >>> 4) :=
    hreceives.ends (by omega) (by omega)
  rw [Mailbox.transactInPlace, if_neg (by omega), List.append_assoc]
  exact ⟨out, Prog.ends_bind.mpr ⟨_, _, (), rfl, hsubmit,
    Prog.ends_bind.mpr ⟨_, _, _, rfl, hreceive, hcollect⟩⟩⟩

/-- A transaction that has begun can still end. -/
theorem exists_exchanges_of_begins (hfit : Mailbox.requestWords tags ≤ bufferWords)
    (h : (m.transactInPlace tags).Begins t) : ∃ rest, Exchanges m tags (t ++ rest) := by
  rw [Mailbox.transactInPlace, if_neg (by omega)] at h
  obtain hsubmit | ⟨t1, t2, ⟨⟩, rfl, hsubmit, hrest⟩ := Prog.begins_bind.mp h
  · obtain ⟨rest, hsubmits⟩ := exists_submits_of_begins hsubmit
    obtain ⟨arrival, foreign, ours, hreceives⟩ := exists_receives
    obtain ⟨closing, hcloses⟩ := exists_closes_of_begins (.nil (m.collect tags (ours >>> 4)))
    exact ⟨rest ++ arrival ++ closing, t ++ rest, arrival, closing, foreign, ours, by simp,
      hsubmits, hreceives, hcloses⟩
  have hsubmits := submits_of_ends hsubmit
  obtain hreceive | ⟨t3, t4, received, rfl, hreceive, hcollect⟩ := Prog.begins_bind.mp hrest
  · obtain ⟨rest, foreign, ours, hreceives⟩ := exists_receives_of_begins hreceive
    obtain ⟨closing, hcloses⟩ := exists_closes_of_begins (.nil (m.collect tags (ours >>> 4)))
    exact ⟨rest ++ closing, t1, t2 ++ rest, closing, foreign, ours, by simp, hsubmits, hreceives,
      hcloses⟩
  · obtain ⟨foreign, ours, hreceives, rfl⟩ := receives_of_ends hreceive
    obtain ⟨rest, hcloses⟩ := exists_closes_of_begins hcollect
    exact ⟨rest, t1, t3, t4 ++ rest, foreign, ours, by simp, hsubmits, hreceives, hcloses⟩

/-- On every machine a transaction goes as far as some beginning of this shape. -/
theorem requests_ordered {σ : Type} (device : Device port σ) (s : σ)
    (hfit : Mailbox.requestWords tags ≤ bufferWords) :
    ∃ rest, Exchanges m tags ((m.transactInPlace tags).requests device s ++ rest) :=
  exists_exchanges_of_begins hfit (Prog.begins_requests device _ s)

/-- A request that does not fit does nothing. For any other, the whole request and nothing else is
written back, from the start of the buffer on, and its accesses are complete before the first access
to a register, the message is posted before anything is received, and the answer is loaded only for
an echo, after the same bytes are discarded and behind a barrier. These are all the ways in which a
transaction can end, and one that waits for ever has begun in this order. -/
theorem exchange_ordered (m : Mailbox) (tags : List UInt32) (t : History) :
    (1021 < tags.length → (m.transactInPlace tags).Begins t → t = []) ∧
    (tags.length ≤ 1021 → (Mailbox.requestImage tags).length = tags.length + 3 ∧
      ((m.transactInPlace tags).Begins t → ∃ rest, Exchanges m tags (t ++ rest)) ∧
      (∀ out, (m.transactInPlace tags).Ends t out → Exchanges m tags t) ∧
      (Exchanges m tags t → t.length ≤ m.patience →
        ∃ out, (m.transactInPlace tags).Ends t out)) := by
  have hwords := requestWords_eq tags
  have hbuffer : bufferWords = 1024 := rfl
  constructor
  · intro hlong h
    rw [Mailbox.transactInPlace, if_pos (by omega)] at h
    exact Prog.begins_pure.mp h
  · intro hshort
    have hfit : Mailbox.requestWords tags ≤ bufferWords := by omega
    exact ⟨(length_requestImage tags).trans hwords, exists_exchanges_of_begins hfit,
      fun out => exchanges_of_ends hfit, Exchanges.ends hfit⟩

/-- A machine that echoes one message at once and answers with the numbers of the words. -/
def echoing : Device port Unit
  | .read .inbox, s => some (0xC0004008, s)
  | .read _, s => some (0, s)
  | .load 1, s => some (successCode, s)
  | .load index, s => some (UInt32.ofNat index, s)
  | .write _ _, s | .fill _, s | .clean _ _, s | .invalidate _ _, s | .syncBarrier, s
  | .memoryBarrier, s | .note _, s => some ((), s)

theorem requests_echoing :
    (Mailbox.transactInPlace ⟨⟨0x4000⟩, 0xC0000000, 12⟩ [7, 8]).requests echoing () =
      [⟨.fill [20, 0, 7, 8, 0], ()⟩, ⟨.clean ⟨0x4000⟩ 20, ()⟩, ⟨.syncBarrier, ()⟩,
        ⟨.read .outboxStatus, 0⟩, ⟨.write .outbox 0xC0004008, ()⟩, ⟨.read .inboxStatus, 0⟩,
        ⟨.read .inbox, 0xC0004008⟩, ⟨.invalidate ⟨0x4000⟩ 20, ()⟩, ⟨.memoryBarrier, ()⟩,
        ⟨.load 1, successCode⟩, ⟨.load 2, 2⟩, ⟨.load 3, 3⟩] := by cbv

theorem run_echoing :
    (Mailbox.transactInPlace ⟨⟨0x4000⟩, 0xC0000000, 12⟩ [7, 8]).run echoing () =
      some ((.ok (), [2, 3]), ()) := by cbv

/-- A request of two words that is answered. -/
theorem exchange_ordered_echoed :
    let m : Mailbox := ⟨⟨0x4000⟩, 0xC0000000, 12⟩
    let t : History := [⟨.fill [20, 0, 7, 8, 0], ()⟩, ⟨.clean ⟨0x4000⟩ 20, ()⟩, ⟨.syncBarrier, ()⟩,
      ⟨.read .outboxStatus, 0⟩, ⟨.write .outbox 0xC0004008, ()⟩, ⟨.read .inboxStatus, 0⟩,
      ⟨.read .inbox, 0xC0004008⟩, ⟨.invalidate ⟨0x4000⟩ 20, ()⟩, ⟨.memoryBarrier, ()⟩,
      ⟨.load 1, successCode⟩, ⟨.load 2, 2⟩, ⟨.load 3, 3⟩]
    Exchanges m [7, 8] t ∧ ∃ out, (m.transactInPlace [7, 8]).Ends t out := by
  intro m t
  have hends := Prog.ends_of_run run_echoing
  rw [requests_echoing] at hends
  obtain ⟨-, -, hordered, hallowed⟩ := (exchange_ordered m [7, 8] t).2 (by decide)
  have hexchanges : Exchanges m [7, 8] t := hordered _ hends
  exact ⟨hexchanges, hallowed hexchanges (by decide)⟩

end Peripherals.Mailbox
