import Peripherals.Proofs.Beginnings
import Peripherals.Proofs.Mailbox.Firmware

/-! Transactions with a firmware that does what it likes. -/

namespace Peripherals.Mailbox

/-! ### Writes to registers -/

section Writes

variable {α β : Type} {t t' : List (Exchange port)}

def written : Exchange port → Option (Register × UInt32)
  | ⟨.write r value, _⟩ => some (r, value)
  | _ => none

/-- The registers that are written in a history, in order, with the words written. -/
def writes (t : List (Exchange port)) : List (Register × UInt32) := t.filterMap written

@[simp] theorem writes_nil : writes [] = [] := rfl

@[simp] theorem writes_append : writes (t ++ t') = writes t ++ writes t' :=
  List.filterMap_append

/-- The program writes no register, whatever it is answered. -/
abbrev ReadsOnly (p : Prog port α) : Prop :=
  p.Within fun o : Op => ∀ r value, o ≠ .write r value

theorem ReadsOnly.writes_eq_nil {p : Prog port α} (hp : ReadsOnly p) (h : p.Begins t) :
    writes t = [] := by
  refine List.filterMap_eq_nil_iff.mpr fun e he => ?_
  obtain ⟨o, answer⟩ := e
  cases o with
  | write r value => exact absurd rfl (hp.begins h _ he r value)
  | _ => rfl

theorem awaitClear_readsOnly (r : Register) (bits : UInt32) (patience : Nat) :
    ReadsOnly (awaitClear r bits patience) := by
  induction patience with
  | zero => exact .wedged
  | succ patience ih =>
    refine .bind (.request (by simp)) fun value => ?_
    split
    · exact .pure ()
    · exact ih

theorem receiveWithin_readsOnly (patience messages : Nat) :
    ReadsOnly (receiveWithin patience messages) := by
  induction messages with
  | zero => exact .wedged
  | succ messages ih =>
    refine .bind (awaitClear_readsOnly _ _ _) fun _ => .bind (.request (by simp)) fun message => ?_
    split
    · exact .pure _
    · exact .bind (.request (by simp)) fun _ => ih

theorem loadWords_readsOnly (count index : Nat) (loaded : Array UInt32) :
    ReadsOnly (Mailbox.loadWords count index loaded) := by
  induction count generalizing index loaded with
  | zero => exact .pure _
  | succ count ih => exact .bind (.request (by simp)) fun word => ih _ _

theorem collect_readsOnly (m : Mailbox) (tags : List UInt32) (received : UInt32) :
    ReadsOnly (m.collect tags received) := by
  rw [Mailbox.collect]
  split
  · exact .bind (.request (by simp)) fun _ => .pure _
  · refine .bind (.request (by simp)) fun _ => .bind (.request (by simp)) fun _ =>
      .bind (.request (by simp)) fun code => ?_
    split
    · exact .bind (.request (by simp)) fun _ => .pure _
    · exact .bind (loadWords_readsOnly _ _ _) fun _ => .pure _

theorem post_writes {patience : Nat} {data : UInt32} (h : (post patience data).Ends t ()) :
    writes t = [(.outbox, encodeMessage data)] := by
  obtain ⟨t1, t2, _, rfl, hawait, hwrite⟩ := Prog.ends_bind.mp h
  rw [writes_append, (awaitClear_readsOnly _ _ _).writes_eq_nil hawait.begins,
    Prog.ends_request.mp hwrite]
  rfl

theorem submit_writes {m : Mailbox} {tags : List UInt32} (h : (m.submit tags).Ends t ()) :
    writes t = [(.outbox, encodeMessage m.payload)] := by
  obtain ⟨t1, t2, _, rfl, hfill, h⟩ := Prog.ends_bind.mp h
  obtain ⟨t3, t4, _, rfl, hclean, h⟩ := Prog.ends_bind.mp h
  obtain ⟨t5, t6, _, rfl, hsync, hpost⟩ := Prog.ends_bind.mp h
  rw [Prog.ends_request.mp hfill, Prog.ends_request.mp hclean, Prog.ends_request.mp hsync]
  simp only [writes_append, post_writes hpost]
  rfl

/-- A transaction that fits the buffer writes to one register, and once. -/
theorem transactInPlace_writes {m : Mailbox} {tags : List UInt32}
    {out : Except Error Unit × List UInt32} (hfit : Mailbox.requestWords tags ≤ bufferWords)
    (h : (m.transactInPlace tags).Ends t out) :
    writes t = [(.outbox, encodeMessage m.payload)] := by
  rw [Mailbox.transactInPlace, if_neg (by omega)] at h
  obtain ⟨t1, t2, _, rfl, hsubmit, h⟩ := Prog.ends_bind.mp h
  obtain ⟨t3, t4, received, rfl, hreceive, hcollect⟩ := Prog.ends_bind.mp h
  rw [writes_append, writes_append, submit_writes hsubmit,
    (receiveWithin_readsOnly _ _).writes_eq_nil hreceive.begins,
    (collect_readsOnly m tags received).writes_eq_nil hcollect.begins]
  rfl

end Writes

/-! ### The request -/

variable {φ : Type} {base : PhysAddr} {m : Mailbox} {M : Machine m.buffer φ} {tags : List UInt32}
  {s s' : State φ}

theorem length_requestImage (tags : List UInt32) :
    (Mailbox.requestImage tags).length = Mailbox.requestWords tags := by
  simp only [Mailbox.requestImage, Mailbox.requestWords, headerWords, List.length_cons,
    List.length_append, List.length_nil]
  omega

/-- The firmware's side once a request has been stored and written back. -/
def Machine.handed (M : Machine base φ) (tags : List UInt32) (s : State φ) : Side φ :=
  { s.side with
    memory := M.clean base (4 * Mailbox.requestWords tags)
      (s.cached.store (Mailbox.requestImage tags)) s.side.memory }

/-- The firmware gets the whole request, whatever was in the buffer before. -/
theorem getElem?_handed (M : Machine base φ) (hfit : Mailbox.requestWords tags ≤ bufferWords)
    (s : State φ) {i : Nat} (hi : i < Mailbox.requestWords tags) :
    (M.handed tags s).memory[i]? = (Mailbox.requestImage tags)[i]? := by
  rw [Machine.handed, M.getElem?_clean _ _ (covers_self (by omega))]
  rw [← length_requestImage tags] at hfit hi
  exact s.cached.getElem?_store hfit hi

theorem run_submit (hfit : Mailbox.requestWords tags ≤ bufferWords) :
    (m.submit tags).run M.device s = (post m.patience m.payload).run M.device
      ⟨M.handed tags s, s.cached.store (Mailbox.requestImage tags)⟩ := by
  rw [← length_requestImage tags] at hfit
  simp only [Mailbox.submit, Prog.run_bind, run_fill hfit, run_clean, run_syncBarrier,
    Option.bind_some, Machine.handed]

theorem run_post (M : Machine base φ) (patience : Nat) (data : UInt32) (s : State φ) :
    (post patience data).run M.device s =
      ((awaitClear .outboxStatus fullBit patience).run M.device s).map fun r =>
        ((), { r.2 with side := M.write .outbox (encodeMessage data) r.2.side }) := by
  simp only [post, Prog.run_bind, run_write, Option.map_eq_bind, Function.comp_def]

/-! ### The answer -/

/-- The words that are loaded are those of the buffer, as far as it reaches. -/
theorem run_loadWords (count index : Nat) (hfit : index + count ≤ bufferWords)
    (loaded : Array UInt32) (s : State φ) :
    ∃ words, (Mailbox.loadWords count index loaded).run M.device s =
        some (loaded.toList ++ words, s) ∧ words.length = count ∧
      ∀ i < count, words[i]? = s.cached[index + i]? := by
  induction count generalizing index loaded with
  | zero =>
    refine ⟨[], ?_, rfl, by simp⟩
    rw [List.append_nil]
    rfl
  | succ count ih =>
    obtain ⟨word, hword⟩ : ∃ word, s.cached[index]? = some word :=
      ⟨_, Vector.getElem?_eq_getElem (by omega)⟩
    obtain ⟨words, hrun, hlength, hwords⟩ := ih (index + 1) (by omega) (loaded.push word)
    refine ⟨word :: words, ?_, by simp [hlength], ?_⟩
    · rw [Mailbox.loadWords, Prog.run_bind, run_load hword, Option.bind_some, hrun]
      simp
    · intro i hi
      cases i with
      | zero => exact hword.symm
      | succ i =>
        rw [List.getElem?_cons_succ, hwords i (by omega), Nat.add_assoc, Nat.add_comm 1 i]

/-- What a transaction comes to where the payload `sent` has been answered with `received` and the
firmware has left `memory` in the buffer: its result and the words of its records afterwards. -/
structure Settles (sent : UInt32) (tags : List UInt32) (received : UInt32) (memory : Buffer)
    (result : Except Error Unit) (after : List UInt32) : Prop where
  mismatch : received ≠ sent → result = .error (.addressMismatch sent received)
  refused : received = sent → memory.code ≠ successCode →
    result = .error (.badResponseStatus memory.code)
  done : received = sent → memory.code = successCode → result = .ok ()
  kept : ∀ e, result = .error e → after = tags
  length_eq : after.length = tags.length
  answered : result = .ok () → ∀ i < tags.length, after[i]? = memory[2 + i]?

namespace Settles

variable {sent received : UInt32} {memory : Buffer} {after : List UInt32}

theorem of_mismatch (h : received ≠ sent) :
    Settles sent tags received memory (.error (.addressMismatch sent received)) tags where
  mismatch _ := rfl
  refused hechoed := absurd hechoed h
  done hechoed := absurd hechoed h
  kept _ _ := rfl
  length_eq := rfl
  answered hok := nomatch hok

theorem of_refused (h : received = sent) (hcode : memory.code ≠ successCode) :
    Settles sent tags received memory (.error (.badResponseStatus memory.code)) tags where
  mismatch hforeign := absurd h hforeign
  refused _ _ := rfl
  done _ hsuccess := absurd hsuccess hcode
  kept _ _ := rfl
  length_eq := rfl
  answered hok := nomatch hok

theorem of_done (h : received = sent) (hcode : memory.code = successCode)
    (hlength : after.length = tags.length)
    (hwords : ∀ i < tags.length, after[i]? = memory[2 + i]?) :
    Settles sent tags received memory (.ok ()) after where
  mismatch hforeign := absurd h hforeign
  refused _ hrefused := absurd hcode hrefused
  done _ _ := rfl
  kept _ herror := nomatch herror
  length_eq := hlength
  answered _ := hwords

end Settles

/-- The driver settles a transaction by what is in memory, though it looks through the cache. -/
theorem run_collect (hfit : Mailbox.requestWords tags ≤ bufferWords) (b : Side φ)
    (cached : Buffer) (received : UInt32) :
    ∃ result after cached', (m.collect tags received).run M.device ⟨b, cached⟩ =
        some ((result, after), ⟨b, cached'⟩) ∧
      Settles m.payload tags received b.memory result after := by
  by_cases hechoed : received = m.payload
  case neg =>
    refine ⟨_, _, cached, ?_, .of_mismatch hechoed⟩
    simp [Mailbox.collect, hechoed, Prog.run_bind]
  have hsize : Mailbox.requestWords tags = 2 + tags.length + 1 := rfl
  -- Every word that is loaded lies in the part of the buffer that is discarded here.
  generalize hfresh :
    M.invalidate m.buffer (4 * Mailbox.requestWords tags) cached b.memory = fresh
  have hget {i : Nat} (hi : i < 2 + tags.length) : fresh[i]? = b.memory[i]? := by
    rw [← hfresh]
    exact M.getElem?_invalidate _ _ (covers_self (by omega))
  have hword : fresh[1]? = some b.memory.code := (hget (by omega)).trans b.memory.getElem?_one
  have hcode := run_load (M := M) (s := ⟨b, fresh⟩) hword
  by_cases hsuccess : b.memory.code = successCode
  case neg =>
    refine ⟨_, _, fresh, ?_, .of_refused hechoed hsuccess⟩
    simp [Mailbox.collect, hechoed, Prog.run_bind, hfresh, hcode, hsuccess]
  obtain ⟨words, hload, hlength, hwords⟩ := run_loadWords (M := M) tags.length headerWords
    (by rw [headerWords]; omega) #[] ⟨b, fresh⟩
  refine ⟨.ok (), words, fresh, ?_, .of_done hechoed hsuccess hlength fun i hi => ?_⟩
  · simp [Mailbox.collect, hechoed, Prog.run_bind, hfresh, hcode, hsuccess, hload]
  · rw [hwords i hi, headerWords]
    exact hget (by omega)

/-! ### Whole transactions -/

section Transactions

variable {a b : Side φ} {received : UInt32} {result : Except Error Unit} {after : List UInt32}

theorem posts_of_submit (hfit : Mailbox.requestWords tags ≤ bufferWords)
    (h : (m.submit tags).run M.device s = some ((), s')) :
    ∃ a, s' = ⟨M.write .outbox (encodeMessage m.payload) a,
        s.cached.store (Mailbox.requestImage tags)⟩ ∧
      M.Clears .outboxStatus fullBit (M.handed tags s) a := by
  rw [run_submit hfit, run_post, Option.map_eq_some_iff] at h
  obtain ⟨⟨⟨⟩, s1⟩, hawait, heq⟩ := h
  obtain ⟨a, rfl, hclears⟩ := clears_of_awaitClear hawait
  cases heq
  exact ⟨a, rfl, hclears⟩

/-- Where a transaction ends, there was room for its message and it was answered, and it has settled
by the answer. -/
theorem settles_of_run (hfit : Mailbox.requestWords tags ≤ bufferWords)
    (h : (m.transactInPlace tags).run M.device s = some ((result, after), s')) :
    ∃ a received, M.Clears .outboxStatus fullBit (M.handed tags s) a ∧
      M.Delivers (M.write .outbox (encodeMessage m.payload) a) received s'.side ∧
      Settles m.payload tags received s'.side.memory result after := by
  rw [Mailbox.transactInPlace, if_neg (by omega)] at h
  obtain ⟨⟨⟩, s1, hsubmit, h1⟩ := Prog.run_bind_eq_some.mp h
  obtain ⟨received, s2, hreceive, hcollect⟩ := Prog.run_bind_eq_some.mp h1
  obtain ⟨a, rfl, hclears⟩ := posts_of_submit hfit hsubmit
  obtain ⟨b, rfl, hdelivers⟩ := delivers_of_receiveWithin hreceive
  obtain ⟨result', after', cached', hrun, hsettles⟩ := run_collect (M := M) (m := m) hfit b
    (s.cached.store (Mailbox.requestImage tags)) received
  obtain ⟨⟨rfl, rfl⟩, rfl⟩ : (result' = result ∧ after' = after) ∧ ⟨b, cached'⟩ = s' := by
    simpa using hrun.symm.trans hcollect
  exact ⟨a, received, hclears, hdelivers, hsettles⟩

/-- A transaction ends where there comes to be room for its message and an answer. -/
theorem run_isSome_of_delivers (hfit : Mailbox.requestWords tags ≤ bufferWords)
    (hclears : M.Clears .outboxStatus fullBit (M.handed tags s) a)
    (hdelivers : M.Delivers (M.write .outbox (encodeMessage m.payload) a) received b) :
    ∃ enough, ∀ patience ≥ enough,
      (({ m with patience }.transactInPlace tags).run M.device s).isSome := by
  obtain ⟨enough, hpost⟩ := awaitClear_of_clears hclears
  obtain ⟨enough', hreceive⟩ := receiveWithin_of_delivers hdelivers
  refine ⟨enough + enough', fun patience hpatience => ?_⟩
  obtain ⟨result, after, cached, hcollect, -⟩ := run_collect (M := M) (m := { m with patience })
    hfit b (s.cached.store (Mailbox.requestImage tags)) received
  have hsubmit : ({ m with patience }.submit tags).run M.device s =
      some ((), ⟨M.write .outbox (encodeMessage m.payload) a,
        s.cached.store (Mailbox.requestImage tags)⟩) := by
    rw [run_submit (m := { m with patience }) hfit, run_post, hpost patience (by omega)]
    rfl
  rw [Mailbox.transactInPlace, if_neg (by omega), Prog.run_bind, hsubmit, Option.bind_some,
    Prog.run_bind, receive, hreceive patience (by omega) patience (by omega), Option.bind_some,
    hcollect]
  rfl

/-- A list of words that does not fit the buffer is refused at once. Any other is posted, once.
Where there comes to be room for the message and an answer to it, a driver with enough patience
ends, and settles the transaction by the first payload that it receives and by the buffer as the
firmware has left it. -/
theorem transaction_settles (m : Mailbox) (M : Machine m.buffer φ) (tags : List UInt32)
    (s : State φ) :
    (1021 < tags.length → (m.transactInPlace tags).requests M.device s = [] ∧
      (m.transactInPlace tags).run M.device s = some ((.error .tooLarge, tags), s)) ∧
    (tags.length ≤ 1021 → ∀ a b received,
      M.Clears .outboxStatus fullBit (M.handed tags s) a →
      M.Delivers (M.write .outbox (encodeMessage m.payload) a) received b →
      ∃ enough, ∀ patience,
        let p := { m with patience }.transactInPlace tags
        (enough ≤ patience → (p.run M.device s).isSome) ∧
        ∀ result after s', p.run M.device s = some ((result, after), s') →
          writes (p.requests M.device s) = [(.outbox, encodeMessage m.payload)] ∧
          s'.side = b ∧ Settles m.payload tags received b.memory result after) := by
  have hwords : Mailbox.requestWords tags = 2 + tags.length + 1 := rfl
  have hbuffer : bufferWords = 1024 := rfl
  constructor
  · intro hlong
    rw [Mailbox.transactInPlace, if_pos (by omega)]
    exact ⟨rfl, rfl⟩
  intro hshort a b received hclears hdelivers
  have hfit : Mailbox.requestWords tags ≤ bufferWords := by omega
  obtain ⟨enough, hends⟩ := run_isSome_of_delivers hfit hclears hdelivers
  refine ⟨enough, fun patience => ⟨hends patience, fun result after s' hrun => ?_⟩⟩
  obtain ⟨a', received', hclears', hdelivers', hsettles⟩ :=
    settles_of_run (m := { m with patience }) hfit hrun
  obtain rfl := hclears.unique hclears'
  obtain ⟨rfl, rfl⟩ := hdelivers.unique hdelivers'
  have hwrites := transactInPlace_writes hfit (Prog.ends_of_run hrun)
  exact ⟨hwrites, rfl, hsettles⟩

/-- A firmware that adds one to every word and echoes the message behind those that are waiting,
without a cache in between. -/
def incrementing : Machine ⟨0x4000⟩ (List UInt32) where
  read
    | .inbox, s => (s.own.headD 0, { s with own := s.own.tail })
    | .inboxStatus, s => (if s.own.isEmpty then emptyBit else 0, s)
    | .outbox, s | .outboxStatus, s => (0, s)
  write
    | .outbox, message, s =>
      ⟨s.own ++ [message], (s.memory.map (· + 1)).set 1 successCode one_lt_bufferWords⟩
    | _, _, s => s
  clean _ _ cached _ := cached
  invalidate _ _ _ memory := memory
  getElem?_clean _ _ _ := rfl
  getElem?_invalidate _ _ _ := rfl

/-- The echo arrives behind a message on another channel. -/
theorem incrementing_delivers (message : UInt32) (memory : Buffer)
    (hours : message &&& 0xF = propertyChannel) : incrementing.Delivers
      (incrementing.write .outbox message ⟨[0x10], memory⟩) (message >>> 4)
      ⟨[], (memory.map (· + 1)).set 1 successCode one_lt_bufferWords⟩ :=
  have hforeign : (0x10 : UInt32) &&& 0xF ≠ propertyChannel := by decide
  .foreign (.clear UInt32.zero_and) hforeign (.ours (.clear UInt32.zero_and) hours)

/-- A list of words that fills the buffer, with a message on another channel in the way. -/
theorem transaction_settles_full : ∃ patience s',
    (Mailbox.transactInPlace ⟨⟨0x4000⟩, 0xC0000000, patience⟩ (List.replicate 1021 7)).run
      incrementing.device ⟨⟨[0x10], Vector.replicate _ 0xFF⟩, Vector.replicate _ 0xEE⟩ =
        some ((.ok (), List.replicate 1021 8), s') := by
  obtain ⟨tags, htags⟩ : ∃ tags : List UInt32, tags = List.replicate 1021 7 := ⟨_, rfl⟩
  let m : Mailbox := ⟨⟨0x4000⟩, 0xC0000000, 0⟩
  let s : State (List UInt32) := ⟨⟨[0x10], Vector.replicate _ 0xFF⟩, Vector.replicate _ 0xEE⟩
  have hlength : tags.length = 1021 := htags ▸ List.length_replicate
  have hwords : Mailbox.requestWords tags = 1024 := by rw [Mailbox.requestWords, hlength]; rfl
  obtain ⟨x, hx⟩ : ∃ x, incrementing.handed tags s = ⟨[0x10], x⟩ := ⟨_, rfl⟩
  have hclears : incrementing.Clears .outboxStatus fullBit ⟨[0x10], x⟩ ⟨[0x10], x⟩ :=
    .clear UInt32.zero_and
  have hdelivers := incrementing_delivers (encodeMessage m.payload) x (by decide)
  have hsettles := (transaction_settles m incrementing tags s).2 (by omega)
  rw [hx] at hsettles
  obtain ⟨enough, hsettles⟩ := hsettles _ _ _ hclears hdelivers
  obtain ⟨hends, hsettles⟩ := hsettles enough
  obtain ⟨⟨⟨result, after⟩, s'⟩, hrun⟩ := Option.isSome_iff_exists.mp (hends (Nat.le_refl _))
  obtain ⟨-, -, hsettled⟩ := hsettles result after s' hrun
  have hechoed : encodeMessage m.payload >>> 4 = m.payload := by decide
  obtain rfl := hsettled.done hechoed (Vector.getElem_set_self _)
  have hafter : after = List.replicate 1021 8 := by
    refine List.eq_replicate_iff.mpr ⟨hsettled.length_eq.trans hlength, fun word hword => ?_⟩
    obtain ⟨i, hword⟩ := List.mem_iff_getElem?.mp hword
    obtain ⟨hi, -⟩ := List.getElem?_eq_some_iff.mp hword
    rw [hsettled.length_eq] at hi
    have hrequest := getElem?_handed incrementing (Nat.le_of_eq hwords) s
      (by omega : 2 + i < Mailbox.requestWords tags)
    have hseven : x[2 + i]? = some 7 := by
      rw [hx, Nat.add_comm, Mailbox.requestImage, List.getElem?_cons_succ, List.getElem?_cons_succ,
        List.getElem?_append_left hi, htags] at hrequest
      rw [Nat.add_comm, hrequest, List.getElem?_replicate_of_lt (by omega)]
    have hanswer := hsettled.answered rfl i hi
    rw [hword, Vector.getElem?_set_ne _ (by omega), Vector.getElem?_map, hseven] at hanswer
    exact Option.some.inj hanswer
  rw [← htags, ← hafter]
  exact ⟨enough, s', hrun⟩

end Transactions

end Peripherals.Mailbox
