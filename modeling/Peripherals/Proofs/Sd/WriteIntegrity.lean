import Peripherals.Proofs.Sd.DataCommand
import Peripherals.Proofs.Word

/-! What a request to write sends: every attempt starts over with the first word of the buffer, and
the last attempt of a request that succeeds sends all of them, block by block. -/

namespace Peripherals.Sd

variable {config : Config} {command : Command} {address timeout sector : UInt32} {count : UInt16}
  {words : List UInt32} {d d' : Driver} {t : History} {l l' : List Traffic}

/-- The attempt sends whole blocks of `words`, from the first on, and words at all only if its
command is `command`. -/
def SendsBlocks (command : Command) (count : UInt16) (words : List UInt32)
    (a : UInt32 × List UInt32) : Prop :=
  ∃ k ≤ count.toNat, a.2 = words.take (128 * k) ∧ (a.1 ≠ command.word.bits → a.2 = [])

/-- Words are sent only after a command, and each attempt sends whole blocks of `words`. -/
structure Orderly (command : Command) (count : UInt16) (words : List UInt32) (l : List Traffic) :
    Prop where
  first : sentFirst l = []
  blocks : ∀ a ∈ attempts l, SendsBlocks command count words a

theorem Orderly.append (h1 : Orderly command count words l) (h2 : Orderly command count words l') :
    Orderly command count words (l ++ l') where
  first := by rw [sentFirst_append h2.first, h1.first]
  blocks a ha := by
    rw [attempts_append h2.first, List.mem_append] at ha
    exact ha.elim (h1.blocks a) (h2.blocks a)

theorem orderly_of_unsent (h : sent t = []) : Orderly command count words (traffic t) where
  first := sentFirst_eq_nil h
  blocks a ha := by
    have hnone := attempts_of_none_sent h a ha
    exact ⟨0, Nat.zero_le _, by simp [hnone], fun _ => hnone⟩

theorem orderly_command {k : Nat} (hk : k ≤ count.toNat) :
    Orderly command count words
      (.command command.word.bits :: (words.take (128 * k)).map .sent) where
  first := rfl
  blocks a ha := by
    rw [attempts, attempts_map_sent, sentFirst_map_sent, List.mem_singleton] at ha
    subst ha
    exact ⟨k, hk, rfl, fun h => absurd rfl h⟩

/-- The history ends with a command that sends exactly `words`, each block after a sample in which
the card is ready and reports no error, and then samples the completion of the transfer. -/
def EndsSending (command : Command) (count : UInt16) (address : UInt32) (words : List UInt32)
    (t : History) : Prop :=
  ∃ before after, t = before ++ sectorWrites command count address ++ after ∧
    traffic after = words.map .sent ∧
    (∀ i < count.toNat, SampledAfter after (words.take (128 * i)) Interrupt.writeReady
      (isClean · Interrupt.writeReady)) ∧
    SampledAfter after words Interrupt.dataDone isComplete

theorem EndsSending.append_left (t1 : History) (h : EndsSending command count address words t) :
    EndsSending command count address words (t1 ++ t) := by
  obtain ⟨before, after, rfl, hrest⟩ := h
  exact ⟨t1 ++ before, after, by simp, hrest⟩

/-- An attempt to send sectors sends whole blocks from the first on, and all of them where it
succeeds. -/
theorem issue_send {words : Array UInt32} {blocks : Nat} {r : Except Error Unit}
    (hwords : words.size = count.toNat * sectorWords) (hsize : d.blockSize = sectorSize)
    (h : Acts (issue (dataCommand true blocks) address timeout (.send words)) d t r d') :
    d'.blockSize = sectorSize ∧ d'.card.highCapacity = d.card.highCapacity ∧
      d'.last.received = #[] ∧
      Orderly (dataCommand true blocks) count words.toList (traffic t) ∧
      (r = .ok () → EndsSending (dataCommand true blocks) count address words.toList t) := by
  have hblocks : (Transfer.send words).size / d.blockWords ≤ maxBlocks := by
    rw [Transfer.size, hwords, sectors_div hsize]
    exact count_le_maxBlocks count
  rcases keepsIssue_approaches.beforeStart (dataCommand_valid true blocks)
    (dataCommand_plain true blocks) hblocks h with
    ⟨⟨e, rfl⟩, happroach, hreceived⟩ | ⟨before, t1, t2, d1, rfl, happroach, -, hstart, ht2, hok⟩
  · exact ⟨happroach.blockSize.trans hsize, happroach.highCapacity, hreceived,
      orderly_of_unsent happroach.unsent, by simp⟩
  have hsize1 : d1.blockSize = sectorSize := happroach.blockSize.trans hsize
  have hlast : OnlyLast d1 d' := start_onlyLast hstart
  have hcount : words.size / d1.blockWords = count.toNat := by
    rw [hwords, sectors_div hsize1]
  have hlength : words.toList.length = sectorWords * count.toNat := by
    rw [Array.length_toList, hwords, Nat.mul_comm]
  have hwhole : words.toList.take (sectorWords * count.toNat) = words.toList :=
    List.take_of_length_le (Nat.le_of_eq hlength)
  obtain ⟨after, k, hk, rfl, hsent, hreceived, hall⟩ :=
    start_send (dataCommand_hasData true blocks) (dataCommand_isRead true blocks) hstart
  rw [hcount] at hk hall
  rw [blockWords_eq hsize1, Nat.mul_comm k] at hsent hall
  refine ⟨?_, ?_, hreceived, ?_, fun hr => ?_⟩
  · rw [hlast]
    exact hsize1
  · rw [hlast]
    exact happroach.highCapacity
  · have htraffic : traffic (before ++ (opening d1 (dataCommand true blocks).word address
        (.send words) ++ after ++ t2)) = traffic before ++
          .command (dataCommand true blocks).word.bits ::
            (words.toList.take (128 * k)).map .sent := by
      rw [traffic_append, traffic_append, traffic_append, ht2, hsent, List.append_nil]
      rfl
    rw [htraffic]
    exact (orderly_of_unsent happroach.unsent).append (orderly_command hk)
  · obtain rfl := hok hr
    obtain ⟨rfl, hready, hdone⟩ := hall hr
    rw [hwhole] at hsent hdone
    have hsend : (Transfer.send words).size = count.toNat * sectorWords := hwords
    refine ⟨before, after, ?_, hsent, fun i hi => ?_, hdone⟩
    · rw [opening_sectors hsize1 hsend, List.append_nil, List.append_assoc]
    · have hi := hready i hi
      rw [Nat.mul_comm i] at hi
      exact hi

/-- Attempts to send sectors send whole blocks from the first on, each attempt anew, and the last
one all of them where it succeeds. Nothing arrives. -/
theorem attemptData_send {words : Array UInt32} {blocks attempts left made : Nat}
    {arrived : Array UInt32} {done : Bool} (hwords : words.size = count.toNat * sectorWords)
    (hsize : d.blockSize = sectorSize)
    (h : Runs (attemptData (dataCommand true blocks) address timeout (.send words) attempts left
      made #[]) d t (done, arrived) d') :
    d'.card.highCapacity = d.card.highCapacity ∧ arrived = #[] ∧
      Orderly (dataCommand true blocks) count words.toList (traffic t) ∧
      (done = true → EndsSending (dataCommand true blocks) count address words.toList t) := by
  induction left generalizing d t made with
  | zero =>
    obtain ⟨rfl, hresult, rfl⟩ := runs_pure.mp h
    obtain ⟨rfl, rfl⟩ := Prod.mk.inj hresult
    exact ⟨rfl, rfl, orderly_of_unsent rfl, nofun⟩
  | succ left ih =>
    obtain ⟨t1, t2, r, d1, rfl, hissue, h1⟩ := runs_bind.mp h
    obtain ⟨hsize1, hcard, hreceived, horderly, hok⟩ := issue_send hwords hsize hissue
    have h2 := runs_get_bind.mp h1
    have hcover : cover d1.last.received #[] = #[] := by
      rw [hreceived]
      rfl
    rw [hcover] at h2
    cases r with
    | ok =>
      obtain ⟨rfl, hresult, rfl⟩ := runs_pure.mp h2
      obtain ⟨rfl, rfl⟩ := Prod.mk.inj hresult
      rw [List.append_nil]
      exact ⟨hcard, rfl, horderly, fun _ => hok rfl⟩
    | error e =>
      obtain ⟨t3, rfl, h3⟩ := runs_say_bind.mp h2
      obtain ⟨hcard2, harrived, horderly2, hdone⟩ := ih hsize1 h3
      refine ⟨hcard2.trans hcard, harrived, ?_, fun hd => ?_⟩
      · rw [traffic_append]
        exact horderly.append horderly2
      · exact ((hdone hd).append_left [_]).append_left t1

/-- A sample that the driver takes for a card that is ready has the bit for it and no error bit. -/
theorem ready_of_isClean {sample : UInt32} (h : isClean sample Interrupt.writeReady = true) :
    hasBits sample Interrupt.writeReady = true ∧ hasBits sample Interrupt.errorMask = false :=
  bits_of_isClean h rfl rfl

/-- A sample that the driver takes for the completion of a transfer has the bit for it. -/
theorem done_of_isComplete {sample : UInt32} (h : isComplete sample = true) :
    hasBits sample Interrupt.dataDone = true := by
  have hseen : hasBits (sample &&& (Interrupt.errorMask ||| Interrupt.dataDone))
      Interrupt.dataDone = true := by
    rcases Bool.or_eq_true_iff.mp h with h1 | h1
    · rw [eq_of_beq h1]
      rfl
    · rw [eq_of_beq h1]
      rfl
  rwa [hasBits_and] at hseen

theorem SampledAfter.mono {bits : UInt32} {ok ok' : UInt32 → Bool}
    (h : SampledAfter t words bits ok) (hok : ∀ s, ok s = true → ok' s = true) :
    SampledAfter t words bits ok' := by
  obtain ⟨before, sample, after, ht, hwords, hsample⟩ := h
  exact ⟨before, sample, after, ht, hwords, hok sample hsample⟩

/-- A request to write leaves its buffer as it was. Whatever becomes of it, words are sent only by
its own command, and each attempt sends whole blocks of the words of the buffer, from the first on.
Where it succeeds, its last attempt has sent them all, each block after a sample in which the card
was ready without an error, and has then seen the transfer complete. -/
theorem readWrite_sends_buffer {buffer buffer' : Buffer} {result : Except BiosError Unit}
    (hd : Reachable config d)
    (h : Runs (readWrite config .write buffer sector count 0) d t (result, buffer') d') :
    buffer' = buffer ∧ ∃ words : List UInt32,
      words.length = 128 * count.toNat ∧
      (∀ j < 512 * count.toNat,
        words[j / 4]?.map (Word.byte · (j % 4)) = some (buffer.bytes[j]?.getD 0)) ∧
      Orderly (if count = 1 then .writeBlock else .writeMultipleBlock) count words (traffic t) ∧
      (result = .ok () → count ≠ 0 → ∃ (before after : History) (address : UInt32),
        t = before ++ sectorWrites (if count = 1 then .writeBlock else .writeMultipleBlock) count
          address ++ after ∧
        Addresses d'.card.highCapacity sector address ∧
        traffic after = words.map .sent ∧
        (∀ i < count.toNat, SampledAfter after (words.take (128 * i)) Interrupt.writeReady fun s =>
          hasBits s Interrupt.writeReady && !hasBits s Interrupt.errorMask) ∧
        SampledAfter after words Interrupt.dataDone (hasBits · Interrupt.dataDone)) := by
  have hwords : (buffer.words (count.toNat * sectorWords)).size = count.toNat * sectorWords := by
    simp [Buffer.words, Word.arrayOfBytes]
  have hlen : (buffer.words (count.toNat * sectorWords)).toList.length = 128 * count.toNat := by
    rw [Array.length_toList, hwords, Nat.mul_comm]
    rfl
  have hbytes (j : Nat) (hj : j < 512 * count.toNat) :
      (buffer.words (count.toNat * sectorWords)).toList[j / 4]?.map (Word.byte · (j % 4)) =
        some (buffer.bytes[j]?.getD 0) := by
    rw [Array.getElem?_toList]
    refine Word.byte_arrayOfBytes buffer.bytes ?_
    rw [← hwords, ← Array.length_toList, hlen]
    omega
  rcases readWrite_runs h with ⟨hsent, hbuffer, hzero⟩ | ⟨address, done, arrived, d1, d2, t1, t2,
    t3, hcount, rfl, hgate, -, haddress, hattempt, ht3, hbuffer, hok⟩
  · exact ⟨hbuffer, _, hlen, hbytes, orderly_of_unsent hsent, fun hr hc => absurd (hzero hr) hc⟩
  have hsize : d1.blockSize = sectorSize :=
    (keepsReset_sectorSized.ensureDataMode config).acts hgate hd.blockSize
  have hunsent : sent t1 = [] := (keepsReset_unsent.ensureDataMode config).acts hgate
  obtain ⟨hcard, rfl, horderly, hdone⟩ := attemptData_send hwords hsize hattempt
  have hcommand : dataCommand true ((buffer.words (count.toNat * sectorWords)).size / sectorWords) =
      if count = 1 then .writeBlock else .writeMultipleBlock := by
    rw [hwords, Nat.mul_div_cancel _ (by decide)]
    exact dataCommand_sectors true hcount
  refine ⟨?_, _, hlen, hbytes, ?_, fun hr _ => ?_⟩
  · rw [← buffer.overlay_empty]
    exact hbuffer
  · rw [traffic_append, traffic_append, ht3, List.append_nil, ← hcommand]
    exact (orderly_of_unsent hunsent).append horderly
  · obtain ⟨rfl, rfl, rfl⟩ := hok hr
    obtain ⟨before, after, rfl, hafter, hready, hcomplete⟩ := hdone rfl
    refine ⟨t1 ++ before, after, address, ?_, ?_, hafter, fun i hi => ?_, ?_⟩
    · rw [← hcommand]
      simp [Transfer.size, Direction.transfer]
    · rw [hcard]
      exact haddress
    · refine (hready i hi).mono fun s hs => ?_
      simp [ready_of_isClean hs]
    · exact hcomplete.mono fun s hs => done_of_isComplete hs

theorem readWrite_sends_buffer_prompt :
    ∃ t buffer' d', Reachable { writeProtect := false } {} ∧
      Runs (readWrite { writeProtect := false } .write ⟨0, Array.replicate 513 7⟩ 3 1 0) {} t
        (.ok (), buffer') d' ∧
      buffer' = ⟨0, Array.replicate 513 7⟩ ∧ ∃ words : List UInt32,
        words.length = 128 ∧
        (∀ j < 512, words[j / 4]?.map (Word.byte · (j % 4)) =
          some ((Array.replicate 513 (7 : UInt8))[j]?.getD 0)) ∧
        Orderly .writeBlock 1 words (traffic t) ∧
        ∃ (before after : History) (address : UInt32),
          t = before ++ sectorWrites .writeBlock 1 address ++ after ∧
          Addresses d'.card.highCapacity 3 address ∧
          traffic after = words.map .sent ∧
          (∀ i < 1, SampledAfter after (words.take (128 * i)) Interrupt.writeReady fun s =>
            hasBits s Interrupt.writeReady && !hasBits s Interrupt.errorMask) ∧
          SampledAfter after words Interrupt.dataDone (hasBits · Interrupt.dataDone) := by
  obtain ⟨t, ⟨result, buffer'⟩, d', hrun, hok⟩ :
      ∃ t a d', Runs (readWrite { writeProtect := false } .write ⟨0, Array.replicate 513 7⟩ 3 1 0)
        {} t a d' ∧ a.1.toBool = true :=
    exists_runs (P := fun _ a _ => a.1.toBool)
      (by decide +kernel : ((Prog.run (promptCard [.ioSetOpCond])
        ((readWrite { writeProtect := false } .write ⟨0, Array.replicate 513 7⟩ 3 1 0).run {})
        0).any _) = true)
  cases result with
  | error => nomatch hok
  | ok =>
    obtain ⟨hbuffer, words, hlen, hbytes, horderly, hends⟩ :=
      readWrite_sends_buffer (reachable_start _) hrun
    exact ⟨t, buffer', d', reachable_start _, hrun, hbuffer, words, hlen, hbytes, horderly,
      hends rfl (by decide)⟩

end Peripherals.Sd
