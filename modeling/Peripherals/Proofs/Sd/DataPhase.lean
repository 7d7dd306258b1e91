import Peripherals.Proofs.Sd.Traffic

/-! The data phase of a command: which words go through the data port, and at which samples of the
interrupt status. -/

namespace Peripherals.Sd

open RegisterBlock (read write)

variable {d d' : Driver} {t : History}

/-- A wait for a register never fails: it can end with the news that the time is up. -/
theorem waitRegister_succeeds {reg : Register} {mask timeout : UInt32} {set : Bool} :
    Succeeds (waitRegister reg mask set timeout) := by
  unfold waitRegister Clock.waitFor
  generalize timeout.toNat / 1000 + 1 = rounds
  induction rounds with
  | zero => exact .pure
  | succ rounds ih =>
    refine .bind .perform fun _ => .bind (.bind .perform fun _ => .pure) fun found => ?_
    exact .ite .pure (.bind .perform fun _ => ih)

/-- A wait ends with the first read that shows what it waits for, or with no such read when the time
is up. -/
theorem waitRegister_sees {reg : Register} {mask timeout : UInt32} {set : Bool}
    {result : Except DeviceError Unit}
    (h : Acts (waitRegister reg mask set timeout) d t (.ok result) d') :
    d' = d ∧
      ((∃ e, result = .error e) ∧ (∀ v, readOf reg v ∈ t → hasBits v mask ≠ set) ∨
        result = .ok () ∧ ∃ before v, t = before ++ [readOf reg v] ∧ hasBits v mask = set ∧
          ∀ w, readOf reg w ∈ before → hasBits w mask ≠ set) := by
  unfold waitRegister Clock.waitFor at h
  generalize timeout.toNat / 1000 + 1 = rounds at h
  induction rounds generalizing t with
  | zero =>
    obtain ⟨rfl, hr, rfl⟩ := acts_pure.mp h
    exact ⟨rfl, .inl ⟨⟨_, Except.ok.inj hr⟩, by simp⟩⟩
  | succ rounds ih =>
    obtain ⟨_, t1, rfl, h1⟩ := acts_perform_bind.mp h
    rw [bind_assoc] at h1
    obtain ⟨v, t2, rfl, h2⟩ := acts_read_bind.mp h1
    rw [acts_pure_bind] at h2
    by_cases hseen : (hasBits v mask == set) = true
    · rw [if_pos hseen] at h2
      obtain ⟨rfl, hr, rfl⟩ := acts_pure.mp h2
      exact ⟨rfl, .inr ⟨Except.ok.inj hr, [_], v, rfl, eq_of_beq hseen, by simp⟩⟩
    · rw [if_neg hseen] at h2
      obtain ⟨_, t3, rfl, h3⟩ := acts_perform_bind.mp h2
      -- The reads of this round are that one and no other.
      have hround {t' : History} (ht' : ∀ w, readOf reg w ∈ t' → hasBits w mask ≠ set) (w : UInt32)
          (hw : readOf reg w ∈ ⟨.delay 1, ()⟩ :: readOf reg v :: ⟨.delay 999, ()⟩ :: t') :
          hasBits w mask ≠ set := by
        simp only [List.mem_cons, Exchange.mk.injEq, reduceCtorEq, false_and, false_or] at hw
        obtain ⟨-, hwv⟩ | hw := hw
        · obtain rfl := eq_of_heq hwv
          exact fun heq => hseen (beq_iff_eq.mpr heq)
        · exact ht' w hw
      obtain ⟨rfl, ⟨he, hunmet⟩ | ⟨rfl, before, w, rfl, hw, hunmet⟩⟩ := ih h3
      · exact ⟨rfl, .inl ⟨he, hround hunmet⟩⟩
      · exact ⟨rfl, .inr ⟨rfl, _ :: _ :: _ :: before, w, rfl, hw, hround hunmet⟩⟩

/-- A wait that is not over in time ends with a read that shows what it waited for. -/
theorem waitRegister_acts {reg : Register} {mask timeout : UInt32} {set : Bool}
    {result : Except DeviceError Unit}
    (h : Acts (waitRegister reg mask set timeout) d t (.ok result) d') :
    d' = d ∧ ((∃ e, result = .error e) ∨
      result = .ok () ∧ ∃ before v, t = before ++ [readOf reg v] ∧ hasBits v mask = set) := by
  obtain ⟨hd, ⟨he, -⟩ | ⟨hr, before, v, ht, hv, -⟩⟩ := waitRegister_sees h
  · exact ⟨hd, .inl he⟩
  · exact ⟨hd, .inr ⟨hr, before, v, ht, hv⟩⟩

theorem sampleStatus_acts {bits timeout : UInt32} {r : Except Error UInt32}
    (h : Acts (sampleStatus bits timeout) d t r d') :
    ∃ polls sample, r = .ok sample ∧ d' = d ∧ traffic polls = [] ∧
      t = polls ++
        [readOf .interrupt sample, writeOf .interrupt (Interrupt.errorMask ||| bits)] := by
  obtain ⟨t1, t2, result, d1, rfl, hw, h1⟩ := waitRegister_succeeds.acts_bind h
  obtain ⟨rfl, ht⟩ := (keepsQuiet_still.waitRegister .interrupt (fun _ => trivial) _ _ _).acts hw
  obtain ⟨sample, t3, rfl, h2⟩ := acts_read_bind.mp h1
  obtain ⟨t4, rfl, h3⟩ := acts_write_bind.mp h2
  obtain ⟨rfl, rfl, rfl⟩ := acts_pure.mp h3
  exact ⟨t1, sample, rfl, rfl, ht, rfl⟩

theorem receiveWords_acts {count : Nat} {ws : Array UInt32} {r : Except Error (Array UInt32)}
    (h : Acts (receiveWords count ws) d t r d') :
    ∃ new : List UInt32, r = .ok (ws ++ new.toArray) ∧ d' = d ∧ new.length = count ∧
      traffic t = new.map .received := by
  induction count generalizing ws t with
  | zero =>
    obtain ⟨rfl, rfl, rfl⟩ := acts_pure.mp h
    exact ⟨[], by simp, rfl, rfl, rfl⟩
  | succ count ih =>
    obtain ⟨word, t1, rfl, h1⟩ := acts_read_bind.mp h
    obtain ⟨new, rfl, rfl, hlen, ht⟩ := ih h1
    refine ⟨word :: new, by simp, rfl, by simp [hlen], ?_⟩
    rw [List.map_cons, ← ht, traffic_received]

theorem sendWords_acts {words : Array UInt32} {count first : Nat} {r : Except Error Unit}
    (hfit : first + count ≤ words.size) (h : Acts (sendWords words count first) d t r d') :
    r = .ok () ∧ d' = d ∧
      traffic t = ((words.toList.drop first).take count).map .sent := by
  induction count generalizing first t with
  | zero =>
    obtain ⟨rfl, rfl, rfl⟩ := acts_pure.mp h
    exact ⟨rfl, rfl, by simp⟩
  | succ count ih =>
    obtain ⟨t1, rfl, h1⟩ := acts_write_bind.mp h
    obtain ⟨rfl, rfl, ht⟩ := ih (by omega) h1
    refine ⟨rfl, rfl, ?_⟩
    have hlt : first < words.toList.length := by rw [Array.length_toList]; omega
    rw [List.drop_eq_getElem_cons hlt, List.take_succ_cons, List.map_cons, ← ht]
    simp [show first < words.size by omega]

/-- Blocks that are received arrive whole and in order, as many as there are samples without an
error. -/
theorem moveBlocks_receive {n blockWords blocks first : Nat} {ready timeout : UInt32}
    {ws : Array UInt32} {r : Except Error DataPhase}
    (h : Acts (moveBlocks (.receive n) blockWords ready timeout blocks first ws) d t r d') :
    ∃ (new : List UInt32) (stop : Option UInt32), r = .ok ⟨ws ++ new.toArray, stop⟩ ∧ d' = d ∧
      traffic t = new.map .received ∧ new.length ≤ blocks * blockWords ∧
      (stop = none → new.length = blocks * blockWords) := by
  induction blocks generalizing first ws t with
  | zero =>
    obtain ⟨rfl, rfl, rfl⟩ := acts_pure.mp h
    exact ⟨[], none, by simp, rfl, rfl, by simp, by simp⟩
  | succ blocks ih =>
    rcases acts_bind.mp h with ⟨e, -, hs⟩ | ⟨t1, t2, sample, d1, rfl, hs, h1⟩
    · obtain ⟨_, _, hs, -⟩ := sampleStatus_acts hs
      nomatch hs
    obtain ⟨polls, sample, hsample, rfl, hpolls, rfl⟩ := sampleStatus_acts hs
    obtain rfl := Except.ok.inj hsample
    rw [acts_ite] at h1
    split at h1
    · obtain ⟨rfl, rfl, rfl⟩ := acts_pure.mp h1
      exact ⟨[], some sample, by simp, rfl, by simp [hpolls], by simp, by simp⟩
    · rcases acts_bind.mp h1 with ⟨e, -, hw⟩ | ⟨t3, t4, _, d2, rfl, hw, h2⟩
      · obtain ⟨_, hw, -⟩ := receiveWords_acts hw
        nomatch hw
      obtain ⟨block, hblock, rfl, hlen, ht3⟩ := receiveWords_acts hw
      obtain rfl := Except.ok.inj hblock
      obtain ⟨new, stop, rfl, rfl, ht4, hle, hall⟩ := ih h2
      refine ⟨block ++ new, stop, by simp, rfl, ?_, ?_, fun hstop => ?_⟩
      · simp [hpolls, ht3, ht4]
      · rw [List.length_append, hlen, Nat.succ_mul]
        omega
      · rw [List.length_append, hlen, hall hstop, Nat.succ_mul]
        omega

/-- The history samples a status for which `ok` holds, and clears `bits`, at the point at which
exactly the words `ws` have been sent. -/
def SampledAfter (t : History) (ws : List UInt32) (bits : UInt32) (ok : UInt32 → Bool) : Prop :=
  ∃ before sample after,
    t = before ++ readOf .interrupt sample ::
      writeOf .interrupt (Interrupt.errorMask ||| bits) :: after ∧
    sent before = ws ∧ ok sample = true

theorem SampledAfter.append_left {t1 : History} {ws1 ws : List UInt32} {bits : UInt32}
    {ok : UInt32 → Bool} (h : SampledAfter t ws bits ok) (h1 : sent t1 = ws1) :
    SampledAfter (t1 ++ t) (ws1 ++ ws) bits ok := by
  obtain ⟨before, sample, after, rfl, hws, hok⟩ := h
  exact ⟨t1 ++ before, sample, after, by simp, by simp [h1, hws], hok⟩

theorem SampledAfter.append_right {t2 : History} {ws : List UInt32} {bits : UInt32}
    {ok : UInt32 → Bool} (h : SampledAfter t ws bits ok) :
    SampledAfter (t ++ t2) ws bits ok := by
  obtain ⟨before, sample, after, rfl, hws, hok⟩ := h
  exact ⟨before, sample, after ++ t2, by simp, hws, hok⟩

theorem take_drop_add (ws : List UInt32) (first m n : Nat) :
    (ws.drop first).take (m + n) = (ws.drop first).take m ++ (ws.drop (first + m)).take n := by
  rw [List.take_add, List.drop_drop]

theorem sent_of_traffic {ws : List UInt32} (h : traffic t = ws.map .sent) : sent t = ws := by
  rw [sent, h]
  simp [List.filterMap_map, Function.comp_def, Traffic.sent?]

/-- Blocks that are sent go out whole and in order, each after a sample without an error. -/
theorem moveBlocks_send {words : Array UInt32} {blockWords blocks first : Nat}
    {ready timeout : UInt32} {ws : Array UInt32} {r : Except Error DataPhase}
    (hfit : (first + blocks) * blockWords ≤ words.size)
    (h : Acts (moveBlocks (.send words) blockWords ready timeout blocks first ws) d t r d') :
    ∃ (k : Nat) (stop : Option UInt32), r = .ok ⟨ws, stop⟩ ∧ d' = d ∧ k ≤ blocks ∧
      (stop = none → k = blocks) ∧
      traffic t = ((words.toList.drop (first * blockWords)).take (k * blockWords)).map .sent ∧
      ∀ i < k, SampledAfter t ((words.toList.drop (first * blockWords)).take (i * blockWords))
        ready (isClean · ready) := by
  induction blocks generalizing first t with
  | zero =>
    obtain ⟨rfl, rfl, rfl⟩ := acts_pure.mp h
    exact ⟨0, none, rfl, rfl, Nat.le_refl 0, fun _ => rfl, by simp,
      fun _ hi => absurd hi (by omega)⟩
  | succ blocks ih =>
    rcases acts_bind.mp h with ⟨e, -, hs⟩ | ⟨t1, t2, sample, d1, rfl, hs, h1⟩
    · obtain ⟨_, _, hs, -⟩ := sampleStatus_acts hs
      nomatch hs
    obtain ⟨polls, sample, hsample, rfl, hpolls, rfl⟩ := sampleStatus_acts hs
    obtain rfl := Except.ok.inj hsample
    rw [acts_ite] at h1
    split at h1
    · obtain ⟨rfl, rfl, rfl⟩ := acts_pure.mp h1
      exact ⟨0, some _, rfl, rfl, by omega, by simp, by simp [hpolls],
        fun _ hi => absurd hi (by omega)⟩
    · rename_i hclean
      have hsize : first * blockWords + blockWords ≤ words.size := by
        rw [← Nat.succ_mul]
        exact Nat.le_trans (Nat.mul_le_mul_right _ (by omega)) hfit
      rcases acts_bind.mp h1 with ⟨e, -, hw⟩ | ⟨t3, t4, _, d2, rfl, hw, h2⟩
      · nomatch (sendWords_acts hsize hw).1
      obtain ⟨-, rfl, ht3⟩ := sendWords_acts hsize hw
      obtain ⟨k, stop, rfl, rfl, hk, hall, ht4, hsamples⟩ :=
        ih (by rw [Nat.add_right_comm]; exact hfit) h2
      rw [Nat.succ_mul] at ht4 hsamples
      have hword (n : Nat) :
          (words.toList.drop (first * blockWords)).take ((n + 1) * blockWords) =
            (words.toList.drop (first * blockWords)).take blockWords ++
              (words.toList.drop (first * blockWords + blockWords)).take (n * blockWords) := by
        rw [Nat.succ_mul, Nat.add_comm, take_drop_add]
      refine ⟨k + 1, stop, rfl, rfl, by omega, fun hstop => by rw [hall hstop], ?_, ?_⟩
      · rw [hword]
        simp [hpolls, ht3, ht4]
      · intro i hi
        cases i with
        | zero =>
          refine ⟨polls, sample, t3 ++ t4, by simp, by simp [sent, hpolls], ?_⟩
          simpa using hclean
        | succ i =>
          rw [hword]
          have hsent : sent (polls ++ [readOf .interrupt sample,
              writeOf .interrupt (Interrupt.errorMask ||| ready)] ++ t3) =
                (words.toList.drop (first * blockWords)).take blockWords := by
            rw [sent_append, sent_of_traffic ht3]
            simp [sent, hpolls]
          have hlater := (hsamples i (by omega)).append_left hsent
          simpa using hlater

end Peripherals.Sd
