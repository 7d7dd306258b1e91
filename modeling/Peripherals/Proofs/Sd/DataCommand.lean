import Peripherals.Proofs.Sd.Operation

/-! From a request for sectors to its data commands: the reasons to refuse it, the gate, the
address, and the attempts. -/

namespace Peripherals.Sd

section Command

variable (isWrite : Bool) (blocks : Nat)

theorem dataCommand_valid : (dataCommand isWrite blocks).word.isReserved = false := by
  unfold dataCommand
  cases isWrite <;> cases decide (1 < blocks) <;> rfl

theorem dataCommand_plain : (dataCommand isWrite blocks).isApplication = false := by
  unfold dataCommand
  cases isWrite <;> cases decide (1 < blocks) <;> rfl

theorem dataCommand_hasData : (dataCommand isWrite blocks).word.hasData = true := by
  unfold dataCommand
  cases isWrite <;> cases decide (1 < blocks) <;> rfl

theorem dataCommand_isRead : (dataCommand isWrite blocks).word.isRead = !isWrite := by
  unfold dataCommand
  cases isWrite <;> cases decide (1 < blocks) <;> rfl

theorem dataCommand_other :
    (dataCommand isWrite blocks).word.bits ≠ Command.sendStatus.word.bits := by
  unfold dataCommand
  cases isWrite <;> cases decide (1 < blocks) <;> decide

theorem dataCommand_sectors {count : UInt16} (hcount : count ≠ 0) :
    dataCommand isWrite count.toNat =
      if count = 1 then dataCommand isWrite 1 else dataCommand isWrite 2 := by
  have hpos : count.toNat ≠ 0 := fun h0 => hcount (UInt16.toNat_inj.mp h0)
  by_cases hone : count = 1
  · subst hone
    rfl
  · have hne : count.toNat ≠ 1 := fun h1 => hone (UInt16.toNat_inj.mp h1)
    have hmany : 1 < count.toNat := by omega
    simp [dataCommand, hmany, hone]

end Command

/-- `address` is how a card that counts in blocks or in bytes is given the address of `sector`. -/
def Addresses (highCapacity : Bool) (sector address : UInt32) : Prop :=
  if highCapacity then address = sector else address.toNat = 512 * sector.toNat

theorem blockAddress_iff {highCapacity : Bool} {block address : UInt32} :
    blockAddress highCapacity block = some address ↔ Addresses highCapacity block address := by
  have hsize : sectorSize.toNat = 512 := rfl
  have hbound := address.toNat_lt
  unfold blockAddress Addresses
  rw [hsize]
  cases highCapacity with
  | true => simp [eq_comm]
  | false =>
    rw [if_neg Bool.false_ne_true, if_neg Bool.false_ne_true]
    constructor
    · intro h
      split at h
      · rw [← Option.some.inj h, UInt32.toNat_mul, hsize]
        omega
      · nomatch h
    · intro h
      rw [if_pos (by omega)]
      apply congrArg some
      rw [← UInt32.toNat_inj, UInt32.toNat_mul, hsize, h]
      omega

theorem blockWords_eq {d : Driver} (h : d.blockSize = sectorSize) : d.blockWords = sectorWords := by
  rw [Driver.blockWords, h]
  rfl

theorem sectors_div {d : Driver} (h : d.blockSize = sectorSize) (count : Nat) :
    count * sectorWords / d.blockWords = count := by
  rw [blockWords_eq h]
  exact Nat.mul_div_cancel _ (by decide)

/-- The writes that start the command `command` for the blocks of `data` at `address`. -/
def blockWrites (command : Command) (address : UInt32) (data : Transfer) : History :=
  [writeOf .blockSizeCount (sectorSize ||| (UInt32.ofNat (data.size / sectorWords) <<< 16)),
    writeOf .argument address, writeOf .command command.word.bits]

theorem opening_blocks {d : Driver} (h : d.blockSize = sectorSize) (command : Command)
    (address : UInt32) (data : Transfer) :
    opening d command.word address data = blockWrites command address data := by
  rw [opening, blockWrites, h, blockWords_eq h]

/-- The writes that start the command `command` for `count` sectors at `address`. -/
def sectorWrites (command : Command) (count : UInt16) (address : UInt32) : History :=
  [writeOf .blockSizeCount (sectorSize ||| (count.toUInt32 <<< 16)), writeOf .argument address,
    writeOf .command command.word.bits]

theorem opening_sectors {d : Driver} {data : Transfer} {count : UInt16}
    (h : d.blockSize = sectorSize) (hdata : data.size = count.toNat * sectorWords)
    (command : Command) (address : UInt32) :
    opening d command.word address data = sectorWrites command count address := by
  have hcount : UInt32.ofNat count.toNat = count.toUInt32 := by
    rw [← UInt32.toNat_inj, UInt16.toNat_toUInt32]
    exact UInt32.toNat_ofNat_of_lt' (Nat.lt_trans count.toNat_lt (by decide))
  rw [opening_blocks h, blockWrites, sectorWrites, hdata, Nat.mul_div_cancel _ (by decide), hcount]

theorem count_le_maxBlocks (count : UInt16) : count.toNat ≤ maxBlocks :=
  Nat.le_of_lt_succ count.toNat_lt

/-- The way to a data command sends no word and leaves the blocks and the addressing of the card
as they are. -/
structure Approaches (d : Driver) (t : History) (d' : Driver) : Prop where
  blockSize : d'.blockSize = d.blockSize
  highCapacity : d'.card.highCapacity = d.card.highCapacity
  unsent : sent t = []

theorem sent_quiet {e : Exchange port} (h : Quiet e) : sent [e] = [] :=
  sent_of_still (traffic_quiet h)

theorem keepsIssue_approaches : KeepsIssue Approaches where
  refl _ := ⟨rfl, rfl, rfl⟩
  trans h1 h2 :=
    ⟨h2.blockSize.trans h1.blockSize, h2.highCapacity.trans h1.highCapacity,
      by simp [h1.unsent, h2.unsent]⟩
  quiet _ _ h := ⟨rfl, rfl, sent_quiet h⟩
  last _ _ := ⟨rfl, rfl, rfl⟩
  command _ _ := ⟨rfl, rfl, rfl⟩
  received _ _ := ⟨rfl, rfl, rfl⟩
  noticed _ := ⟨rfl, rfl, rfl⟩
  acknowledged _ _ _ := ⟨rfl, rfl, rfl⟩
  forgotten _ _ := ⟨rfl, rfl, rfl⟩

theorem keepsIssue_unsent : KeepsIssue fun _ t _ => sent t = [] where
  refl _ := rfl
  trans h1 h2 := by simp [h1, h2]
  quiet _ _ h := sent_quiet h
  last _ _ := rfl
  command _ _ := rfl
  received _ _ := rfl
  noticed _ := rfl
  acknowledged _ _ _ := rfl
  forgotten _ _ := rfl

theorem keepsCard_unsent : KeepsCard fun _ t _ => sent t = [] :=
  keepsIssue_unsent.keepsCard fun _ _ _ => rfl

theorem keepsReset_unsent : KeepsReset fun _ t _ => sent t = [] where
  toKeepsCard := keepsCard_unsent
  addressed _ _ _ := rfl
  dropped _ := rfl
  switched _ := rfl
  cleared _ := rfl
  fresh _ _ := rfl
  scr := keepsCard_unsent.readScr fun _ _ => rfl

section Request

variable {config : Config} {direction : Direction} {buffer buffer' : Buffer} {sector : UInt32}
  {count device : UInt16} {answer : Except BiosError Unit} {data : Transfer} {d d' : Driver}
  {t : History}

/-- What a request for sectors is answered where it is not carried out. Of several reasons the first
counts. -/
def refusal? (config : Config) (direction : Direction) (buffer : Buffer) (count device : UInt16) :
    Option (Except BiosError Unit) :=
  if device ≠ 0 then some (.error .unknownDevice)
  else if count = 0 then some (.ok ())
  else if direction = .write ∧ config.writeProtect then some (.error .writeProtected)
  else if buffer.bytes.size < 512 * count.toNat ∨ buffer.address % 4 ≠ 0 then some (.error .general)
  else none

theorem refusal_ok (h : refusal? config direction buffer count device = some (.ok ())) :
    count = 0 := by
  unfold refusal? at h
  grind

theorem unusable_none {size : Nat} :
    buffer.unusable? size = none ↔ ¬(buffer.bytes.size < size ∨ buffer.address % 4 ≠ 0) := by
  unfold Buffer.unusable? Buffer.isAligned
  by_cases hshort : buffer.bytes.size < size
  · simp [hshort]
  · by_cases haligned : buffer.address % 4 = 0
    · simp [hshort, haligned]
    · simp [hshort, haligned]

theorem bytes_of_sectors (count : UInt16) :
    4 * (count.toNat * sectorWords) = 512 * count.toNat := by
  have hwords : sectorWords = 128 := rfl
  rw [hwords]
  omega

/-- A refused request is answered at once, but for a report. -/
theorem readWrite_refused {result : Except BiosError Unit × Buffer}
    (hrefused : refusal? config direction buffer count device = some answer)
    (h : Runs (readWrite config direction buffer sector count device) d t result d') :
    result = (answer, buffer) ∧ d' = d ∧ ∀ e ∈ t, ∃ n, e = noteOf n := by
  have hanswered (h : Runs (pure (answer, buffer)) d t result d') :
      result = (answer, buffer) ∧ d' = d ∧ ∀ e ∈ t, ∃ n, e = noteOf n := by
    obtain ⟨rfl, rfl, rfl⟩ := runs_pure.mp h
    exact ⟨rfl, rfl, by simp⟩
  have hreported {n : Note} (h : Runs (say n >>= fun _ => pure (answer, buffer)) d t result d') :
      result = (answer, buffer) ∧ d' = d ∧ ∀ e ∈ t, ∃ n, e = noteOf n := by
    obtain ⟨t1, rfl, h1⟩ := runs_say_bind.mp h
    obtain ⟨rfl, rfl, rfl⟩ := runs_pure.mp h1
    exact ⟨rfl, rfl, by simp⟩
  unfold refusal? at hrefused
  split at hrefused
  · obtain rfl := Option.some.inj hrefused
    rw [readWrite, if_pos ‹_›] at h
    exact hanswered h
  split at hrefused
  · obtain rfl := Option.some.inj hrefused
    rw [readWrite, if_neg ‹_›, if_pos ‹_›] at h
    exact hanswered h
  split at hrefused
  · obtain rfl := Option.some.inj hrefused
    rw [readWrite, if_neg ‹_›, if_neg ‹_›, if_pos ‹_›] at h
    exact hreported h
  split at hrefused
  · obtain rfl := Option.some.inj hrefused
    rename_i hunusable
    rw [← bytes_of_sectors] at hunusable
    obtain ⟨e, he⟩ := Option.ne_none_iff_exists'.mp (mt unusable_none.mp (not_not_intro hunusable))
    rw [readWrite, if_neg ‹_›, if_neg ‹_›, if_neg ‹_›, he] at h
    exact hreported h
  · nomatch hrefused

/-- A request that is not refused is for sectors of this device, and is no write where all writes
are refused. -/
theorem not_refused (haccepted : refusal? config direction buffer count device = none) :
    device = 0 ∧ count ≠ 0 ∧ ¬(direction = .write ∧ config.writeProtect) ∧
      buffer.unusable? (4 * (count.toNat * sectorWords)) = none := by
  unfold refusal? at haccepted
  split at haccepted
  · nomatch haccepted
  split at haccepted
  · nomatch haccepted
  split at haccepted
  · nomatch haccepted
  split at haccepted
  · nomatch haccepted
  rename_i hdevice hcount hwrite hbuffer
  rw [← bytes_of_sectors] at hbuffer
  exact ⟨Decidable.not_not.mp hdevice, hcount, hwrite, unusable_none.mpr hbuffer⟩

/-- A request that is not refused is carried out, and every failure of it is reported. -/
theorem readWrite_accepted (haccepted : refusal? config direction buffer count device = none)
    (h : Runs (readWrite config direction buffer sector count device) d t (answer, buffer') d') :
    ∃ outcome arrived t1 t2, t = t1 ++ t2 ∧ Runs (accessBlocks config
        (direction.transfer buffer (count.toNat * sectorWords)) sector) d t1 (outcome, arrived) d' ∧
      buffer' = buffer.overlay arrived ∧
      (outcome = .ok () ∧ answer = .ok () ∧ t2 = [] ∨
        ∃ e, outcome = .error e ∧ answer = .error direction.fault ∧
          t2 = [noteOf (.requestFailed sector count e)]) := by
  obtain ⟨hdevice, hcount, hwrite, hbuffer⟩ := not_refused haccepted
  rw [readWrite, if_neg (not_not_intro hdevice), if_neg hcount, if_neg hwrite, hbuffer] at h
  obtain ⟨t1, t2, ⟨outcome, arrived⟩, d1, rfl, haccess, h1⟩ := runs_bind.mp h
  cases outcome with
  | ok =>
    obtain ⟨rfl, hresult, rfl⟩ := runs_pure.mp h1
    obtain ⟨rfl, rfl⟩ := Prod.mk.inj hresult
    exact ⟨_, arrived, t1, [], rfl, haccess, rfl, .inl ⟨rfl, rfl, rfl⟩⟩
  | error e =>
    obtain ⟨t3, rfl, h2⟩ := runs_say_bind.mp h1
    obtain ⟨rfl, hresult, rfl⟩ := runs_pure.mp h2
    obtain ⟨rfl, rfl⟩ := Prod.mk.inj hresult
    exact ⟨_, arrived, t1, _, rfl, haccess, rfl, .inr ⟨e, rfl, rfl, rfl⟩⟩

/-- The attempts at the data command of a transfer, as many as the settings allow. -/
def attempt (config : Config) (data : Transfer) (address : UInt32) : Step (Bool × Array UInt32) :=
  attemptData (dataCommand data.isSend (data.size / sectorWords)) address config.dataTimeout data
    (max config.maxRetries.toNat 1) (max config.maxRetries.toNat 1) 0 #[]

theorem transferBlocks_runs {result : Except Error Unit × Array UInt32}
    (h : Runs (transferBlocks config data sector) d t result d') :
    (t = [] ∧ result.2 = #[] ∧ ∃ e, result.1 = .error e) ∨
      ∃ address done d1 t1 t2, Addresses d.card.highCapacity sector address ∧ t = t1 ++ t2 ∧
        Runs (attempt config data address) d t1 (done, result.2) d1 ∧ traffic t2 = [] ∧
        (result.1 = .ok () → done = true ∧ t2 = [] ∧ d' = d1) := by
  have h1 := runs_get_bind.mp h
  cases haddress : blockAddress d.card.highCapacity sector with
  | none =>
    rw [haddress] at h1
    obtain ⟨rfl, rfl, rfl⟩ := runs_pure.mp h1
    exact .inl ⟨rfl, rfl, _, rfl⟩
  | some address =>
    rw [haddress] at h1
    dsimp only at h1
    by_cases hblocks : data.size / sectorWords < 1
    · rw [if_pos hblocks] at h1
      obtain ⟨rfl, rfl, rfl⟩ := runs_pure.mp h1
      exact .inl ⟨rfl, rfl, _, rfl⟩
    rw [if_neg hblocks] at h1
    obtain ⟨t2, t3, ⟨done, arrived⟩, d1, rfl, hattempt, h2⟩ := runs_bind.mp h1
    refine .inr ⟨address, done, d1, t2, t3, blockAddress_iff.mp haddress, rfl, ?_⟩
    cases done with
    | true =>
      obtain ⟨rfl, rfl, rfl⟩ := runs_pure.mp h2
      exact ⟨hattempt, rfl, fun _ => ⟨rfl, rfl, rfl⟩⟩
    | false =>
      obtain ⟨t4, rfl, h3⟩ := runs_say_bind.mp h2
      have h4 := runs_modify_bind.mp h3
      obtain ⟨rfl, rfl, rfl⟩ := runs_pure.mp h4
      exact ⟨hattempt, traffic_quiet trivial, nofun⟩

theorem Buffer.overlay_empty (b : Buffer) : b.overlay #[] = b := by
  have hbytes : Word.overlay #[] b.bytes = b.bytes := by
    apply Array.ext <;> simp [Word.overlay]
  rw [Buffer.overlay, hbytes]

/-- A request for sectors either ends before its data command, with the buffer as it was and without
having sent a word, or brings the card to the transfer state and attempts the command. -/
theorem readWrite_runs {result : Except BiosError Unit × Buffer}
    (h : Runs (readWrite config direction buffer sector count device) d t result d') :
    (sent t = [] ∧ result.2 = buffer ∧ (result.1 = .ok () → count = 0)) ∨
      ∃ address done arrived d1 d2 t1 t2 t3, count ≠ 0 ∧
        t = t1 ++ (t2 ++ t3) ∧ Acts (ensureDataMode config) d t1 (.ok ()) d1 ∧
        buffer.unusable? (4 * (count.toNat * sectorWords)) = none ∧
        Addresses d1.card.highCapacity sector address ∧
        Runs (attempt config (direction.transfer buffer (count.toNat * sectorWords)) address) d1 t2
          (done, arrived) d2 ∧
        traffic t3 = [] ∧ result.2 = buffer.overlay arrived ∧
        (result.1 = .ok () → done = true ∧ t3 = [] ∧ d' = d2) := by
  obtain ⟨answer, buffer'⟩ := result
  cases hrefusal : refusal? config direction buffer count device with
  | some refused =>
    obtain ⟨hresult, rfl, hnotes⟩ := readWrite_refused hrefusal h
    obtain ⟨rfl, rfl⟩ := Prod.mk.inj hresult
    refine .inl ⟨sent_of_still (traffic_of_notes hnotes), rfl, fun hr => ?_⟩
    exact refusal_ok (hrefusal.trans (congrArg some hr))
  | none =>
    obtain ⟨-, hcount, -, hbuffer⟩ := not_refused hrefusal
    obtain ⟨outcome, arrived, t1, t2, rfl, haccess, rfl, hend⟩ := readWrite_accepted hrefusal h
    have ht2 : traffic t2 = [] := by
      rcases hend with ⟨-, -, rfl⟩ | ⟨e, -, -, rfl⟩ <;> rfl
    have hok (hr : answer = .ok ()) : outcome = .ok () ∧ t2 = [] := by
      rcases hend with ⟨houtcome, -, hnil⟩ | ⟨e, -, rfl, -⟩
      · exact ⟨houtcome, hnil⟩
      · nomatch hr
    obtain ⟨tg, tt, gate, dg, rfl, hgate, h2⟩ := runs_bind.mp haccess
    have hunsent : sent tg = [] := (keepsReset_unsent.ensureDataMode config).acts hgate
    have hrefused (hnone : tt = [] ∧ arrived = #[] ∧ ∃ e, outcome = .error e) :
        sent (tg ++ tt ++ t2) = [] ∧ buffer.overlay arrived = buffer ∧
          (answer = .ok () → count = 0) := by
      obtain ⟨rfl, rfl, e, rfl⟩ := hnone
      refine ⟨by simp [hunsent, sent_of_still ht2], buffer.overlay_empty, fun hr => ?_⟩
      nomatch (hok hr).1
    cases gate with
    | error e =>
      obtain ⟨rfl, houtcome, rfl⟩ := runs_pure.mp h2
      obtain ⟨rfl, rfl⟩ := Prod.mk.inj houtcome
      exact .inl (hrefused ⟨rfl, rfl, e, rfl⟩)
    | ok =>
      rcases transferBlocks_runs h2 with hnone |
        ⟨address, done, d2, t3, t4, haddress, rfl, hattempt, ht4, hdone⟩
      · exact .inl (hrefused hnone)
      refine .inr ⟨address, done, arrived, dg, d2, tg, t3, t4 ++ t2, hcount, by simp, hgate,
        hbuffer, haddress, hattempt, by simp [ht4, ht2], rfl, fun hr => ?_⟩
      obtain ⟨rfl, rfl⟩ := hok hr
      obtain ⟨rfl, rfl, rfl⟩ := hdone rfl
      exact ⟨rfl, rfl, rfl⟩

end Request

end Peripherals.Sd
