import Peripherals.Proofs.Sd.Address
import Peripherals.Proofs.Sd.Gate
import Peripherals.Proofs.Sd.Orders
import Peripherals.Proofs.Sd.Validation

/-! A data command that fails is attempted again, and given up after so many attempts. A card on
which one has been given up has no address, so the next access enumerates it again. -/

namespace Peripherals.Sd

variable {config : Config} {command : Command} {address sector timeout : UInt32} {data : Transfer}
  {d d1 d' : Driver} {t : History} {r : Except Error Unit}

/-! One attempt. -/

/-- An attempt issues the command with the whole transfer. Unless it fails before that, it starts
the command once; apart from the status of a card that interrupts it gives no other order. Of a
transfer to the card it sends words from the first on, and all of its blocks where it succeeds. -/
structure Attempt (command : Command) (address timeout : UInt32) (data : Transfer) (d : Driver)
    (t : History) (r : Except Error Unit) (d' : Driver) : Prop where
  issued : Acts (issue command address timeout data) d t r d'
  started : ((∃ e, r = .error e) ∧ ∀ a, own a t = []) ∨
    ∃ before after, t = before ++ (blockWrites command address data ++ after) ∧
      ∀ a, own a t = [order command address]
  sends (words : Array UInt32) : data = .send words → sent t <+: words.toList ∧
    (r = .ok () → sent t = words.toList.take (data.size / sectorWords * sectorWords))

theorem attempt_of_issue {blocks : Nat} (hsize : d.blockSize = sectorSize)
    (h : Acts (issue (dataCommand data.isSend blocks) address timeout data) d t r d') :
    Attempt (dataCommand data.isSend blocks) address timeout data d t r d' := by
  by_cases hblocks : data.size / d.blockWords ≤ maxBlocks
  -- Too many blocks for the counter: the command is refused without a sweep.
  case neg =>
    obtain ⟨hrefused, herror⟩ := issue_refused (fun hvalid => hblocks hvalid.2) h
    have hquiet := (refuseInvalid_acts hrefused).1
    have hstill : traffic t = [] := (keepsQuiet_still.quietAll d hquiet).2
    refine ⟨h, .inl ⟨herror, own_of_silent (commands_of_still hstill)⟩, fun words _ => ?_⟩
    obtain ⟨e, rfl⟩ := herror
    rw [sent_of_still hstill]
    exact ⟨List.nil_prefix, nofun⟩
  obtain ⟨t1, t2, d1, rfl, hs, h1⟩ := issue_acts (dataCommand_valid _ _) hblocks h
  have hunsent : sent t1 = [] := keepsIssue_unsent.sweep.acts hs
  rcases h1 with ⟨-, rfl, rfl, rfl⟩ | ⟨-, h2⟩
  · refine ⟨h, .inl ⟨⟨_, rfl⟩, fun a => ?_⟩, fun words _ => ?_⟩
    · rw [List.append_nil, sweep_own hs]
    · rw [List.append_nil, hunsent]
      exact ⟨List.nil_prefix, nofun⟩
  obtain ⟨t3, t4, rfl, hstart, ht4, -⟩ :=
    startReported_acts ((announce_passes (dataCommand_plain _ _)).mp h2)
  have hsize1 : d1.blockSize = sectorSize := keepsIssue_sectorSized.sweep.acts hs hsize
  refine ⟨h, .inr ?_, ?_⟩
  · obtain ⟨after, rfl, -⟩ := start_opens hstart
    refine ⟨t1, after ++ t4, ?_, fun a => ?_⟩
    · rw [opening_blocks hsize1, List.append_assoc]
    · rw [own_append, sweep_own hs, own_append, own_of_silent (commands_of_still ht4),
        List.append_nil, List.nil_append, own, orders_start hstart]
      simpa [order] using dataCommand_other data.isSend blocks
  · rintro words rfl
    obtain ⟨after, k, -, rfl, hsent, -, hall⟩ :=
      start_send (dataCommand_hasData _ _) (dataCommand_isRead _ _) hstart
    have hopening (word : CommandWord) : sent (opening d1 word address (.send words)) = [] := rfl
    have hstarted : sent after = words.toList.take (k * d1.blockWords) := sent_of_traffic hsent
    rw [sent_append, sent_append, sent_append, hunsent, hopening, hstarted, sent_of_still ht4,
      List.append_nil, List.nil_append, List.nil_append, ← blockWords_eq hsize1]
    refine ⟨List.take_prefix _ _, fun hr => ?_⟩
    obtain ⟨rfl, -⟩ := hall hr
    rfl

/-! One attempt after the other. -/

/-- After `made` attempts, `n` more fail, one after the other. Each is the same command with the
same argument and the whole transfer, and its failure is reported. -/
inductive Fails (command : Command) (address timeout : UInt32) (data : Transfer) (attempts : Nat) :
    (made n : Nat) → Driver → History → Driver → Prop
  | none (made : Nat) (d : Driver) : Fails command address timeout data attempts made 0 d [] d
  | more {made n : Nat} {d d1 d' : Driver} {t1 t2 : History} {e : Error} :
    Attempt command address timeout data d t1 (.error e) d1 →
    Fails command address timeout data attempts (made + 1) n d1 t2 d' →
    Fails command address timeout data attempts made (n + 1) d
      (t1 ++ noteOf (.attemptFailed command (made + 1) attempts e) :: t2) d'

/-- Attempts are made until one succeeds or none is left. -/
theorem attemptData_runs {blocks attempts left made : Nat} {arrived arrived' : Array UInt32}
    {done : Bool} (hsize : d.blockSize = sectorSize)
    (h : Runs (attemptData (dataCommand data.isSend blocks) address timeout data attempts left made
      arrived) d t (done, arrived') d') :
    (done = true ∧ ∃ n < left, ∃ t1 t2 d1, t = t1 ++ t2 ∧
      Fails (dataCommand data.isSend blocks) address timeout data attempts made n d t1 d1 ∧
      Attempt (dataCommand data.isSend blocks) address timeout data d1 t2 (.ok ()) d') ∨
    (done = false ∧
      Fails (dataCommand data.isSend blocks) address timeout data attempts made left d t d') := by
  -- The failures that came before are counted in `made` only, so that they need no hypothesis.
  induction left generalizing d t made arrived with
  | zero =>
    obtain ⟨rfl, hresult, rfl⟩ := runs_pure.mp h
    exact .inr ⟨congrArg Prod.fst hresult, .none made d'⟩
  | succ left ih =>
    obtain ⟨t1, t2, r, d1, rfl, hissue, h1⟩ := runs_bind.mp h
    have hattempt := attempt_of_issue hsize hissue
    have hsize1 : d1.blockSize = sectorSize :=
      (keepsIssue_sectorSized.issue (fun _ _ _ h => h) _ _ _).acts hissue hsize
    have h2 := runs_get_bind.mp h1
    cases r with
    | ok =>
      obtain ⟨rfl, hresult, rfl⟩ := runs_pure.mp h2
      refine .inl ⟨congrArg Prod.fst hresult, 0, by omega, [], t1, d, ?_, .none made d, hattempt⟩
      rw [List.append_nil, List.nil_append]
    | error e =>
      obtain ⟨t3, rfl, h3⟩ := runs_say_bind.mp h2
      rcases ih hsize1 h3 with ⟨hdone, n, hn, t4, t5, d2, rfl, hfails, hlast⟩ | ⟨hdone, hfails⟩
      · refine .inl ⟨hdone, n + 1, by omega, _, t5, d2, ?_, .more hattempt hfails, hlast⟩
        rw [List.append_assoc, List.cons_append]
      · exact .inr ⟨hdone, .more hattempt hfails⟩

/-- How a data command for `sector` ends that can be attempted `limit` times: with the first attempt
that succeeds, or given up after as many failures. A card on which one has been given up has no
address. -/
inductive Retries (command : Command) (address sector timeout : UInt32) (data : Transfer)
    (limit : Nat) : Driver → History → Except Error Unit → Driver → Prop
  | succeeds {n : Nat} {d d1 d' : Driver} {t1 t2 : History} : n < limit →
    Fails command address timeout data limit 0 n d t1 d1 →
    Attempt command address timeout data d1 t2 (.ok ()) d' →
    Retries command address sector timeout data limit d (t1 ++ t2) (.ok ()) d'
  | givenUp {d d1 : Driver} {t : History} :
    Fails command address timeout data limit 0 limit d t d1 →
    Retries command address sector timeout data limit d (t ++ [noteOf (.givingUp command sector)])
      (.error .retriesExhausted) { d1 with card := { d1.card with rca := 0 } }

theorem transferBlocks_retries {outcome : Except Error Unit} {arrived : Array UInt32}
    (hsize : d.blockSize = sectorSize) (haddress : Addresses d.card.highCapacity sector address)
    (hsome : 1 ≤ data.size / sectorWords)
    (h : Runs (transferBlocks config data sector) d t (outcome, arrived) d') :
    Retries (dataCommand data.isSend (data.size / sectorWords)) address sector config.dataTimeout
      data (max config.maxRetries.toNat 1) d t outcome d' := by
  have h1 := runs_get_bind.mp h
  rw [blockAddress_iff.mpr haddress] at h1
  dsimp only at h1
  rw [if_neg (Nat.not_lt.mpr hsome)] at h1
  obtain ⟨t1, t2, ⟨done, arrived'⟩, d1, rfl, hattempts, h2⟩ := runs_bind.mp h1
  rcases attemptData_runs hsize hattempts with
    ⟨rfl, n, hn, t3, t4, d2, rfl, hfails, hlast⟩ | ⟨rfl, hfails⟩
  · obtain ⟨rfl, hresult, rfl⟩ := runs_pure.mp h2
    obtain rfl := congrArg Prod.fst hresult
    rw [List.append_nil]
    exact .succeeds hn hfails hlast
  · obtain ⟨t3, rfl, h3⟩ := runs_say_bind.mp h2
    have h4 := runs_modify_bind.mp h3
    obtain ⟨rfl, hresult, rfl⟩ := runs_pure.mp h4
    obtain rfl := congrArg Prod.fst hresult
    exact .givenUp hfails

/-! The access after one that has been given up. -/

/-- Whether the operation is an access to the card: it goes through the gate. -/
def Operation.accesses (config : Config) : Operation → Bool
  | ensureDataMode => true
  | readWrite direction buffer _ count device =>
    (refusal? config direction buffer count device).isNone
  | ioctl device _ => device == 0
  | _ => false

/-- Whether the operation enumerates a card by itself. -/
def Operation.enumerates : Operation → Bool
  | init | cardReset => true
  | _ => false

/-- An operation that neither accesses nor enumerates the card gives it no address. -/
theorem Operation.unaddressed {o : Operation} {a : o.Answer} (haccess : o.accesses config = false)
    (henumerates : o.enumerates = false) (h : Runs (o.step config) d t a d')
    (hzero : d.card.rca = 0) : d'.card.rca = 0 := by
  cases o with
  | init => nomatch henumerates
  | cardReset => nomatch henumerates
  | ensureDataMode => nomatch haccess
  | issueCommand command argument timeout =>
    exact ((keepsCard_address.issueCommand _ _ _).acts h).zero hzero
  | switchClockRate base target =>
    exact ((keepsCard_address.switchClockRate _ _).acts h).zero hzero
  | readWrite direction buffer sector count device =>
    obtain ⟨answer, hrefused⟩ : ∃ answer,
        refusal? config direction buffer count device = some answer := by
      rw [← Option.isSome_iff_exists]
      simpa [Operation.accesses] using haccess
    obtain ⟨-, rfl, -⟩ := readWrite_refused hrefused h
    exact hzero
  | ioctl device request =>
    have hdevice : device ≠ 0 := by simpa [Operation.accesses] using haccess
    have h1 : Runs (Sd.ioctl config device request) d t a d' := h
    rw [Sd.ioctl, if_pos hdevice] at h1
    obtain ⟨-, -, rfl⟩ := runs_pure.mp h1
    exact hzero

/-- An access begins with the gate, and from an accepted request for sectors the transfer of the
sectors follows where the gate is passed. Its failure is answered by the fault of its direction. -/
theorem readWrite_transfers {direction : Direction} {buffer : Buffer} {count device : UInt16}
    {result : Except BiosError Unit × Buffer}
    (haccepted : refusal? config direction buffer count device = none)
    (h : Runs (readWrite config direction buffer sector count device) d t result d') :
    ∃ gate t1 t2 d1, t = t1 ++ t2 ∧ Acts (ensureDataMode config) d t1 gate d1 ∧
      (gate = .ok () → ∃ t3 t4 outcome arrived, t2 = t3 ++ t4 ∧
        Runs (transferBlocks config (direction.transfer buffer (count.toNat * sectorWords)) sector)
          d1 t3 (outcome, arrived) d' ∧
        (outcome = .ok () → result.1 = .ok ()) ∧
        ∀ e, outcome = .error e →
          (direction = .read → result.1 = .error .readFault) ∧
          (direction = .write → result.1 = .error .writeFault)) := by
  obtain ⟨answer, buffer'⟩ := result
  obtain ⟨outcome, arrived, t1, t2, rfl, haccess, -, hend⟩ := readWrite_accepted haccepted h
  obtain ⟨t3, t4, gate, d1, rfl, hgate, h1⟩ := runs_bind.mp haccess
  refine ⟨gate, t3, t4 ++ t2, d1, List.append_assoc _ _ _, hgate, ?_⟩
  rintro rfl
  refine ⟨t4, t2, outcome, arrived, rfl, h1, ?_⟩
  rcases hend with ⟨rfl, rfl, -⟩ | ⟨e, rfl, rfl, -⟩
  · exact ⟨fun _ => rfl, nofun⟩
  · refine ⟨nofun, fun _ _ => ⟨?_, ?_⟩⟩
    · rintro rfl
      rfl
    · rintro rfl
      rfl

/-- An access to a card without an address begins with a reset of the controller. -/
theorem Operation.resets {o : Operation} {a : o.Answer} (haccess : o.accesses config = true)
    (h : Runs (o.step config) d t a d') (hzero : d.card.rca = 0) :
    ∃ reset rest, t = reset ++ rest ∧ ResetsHost reset := by
  have hgate {t1 t2 : History} {r : Except Error Unit} {d1 : Driver}
      (hg : Acts (Sd.ensureDataMode config) d t1 r d1) :
      ∃ reset rest, t1 ++ t2 = reset ++ rest ∧ ResetsHost reset := by
    obtain ⟨reset, rest, rfl, hopens⟩ := ensureDataMode_begins hg
    exact ⟨reset, rest ++ t2, List.append_assoc _ _ _, hopens.unaddressed hzero⟩
  cases o with
  | init | cardReset | issueCommand | switchClockRate => nomatch haccess
  | ensureDataMode =>
    rw [← t.append_nil]
    exact hgate h
  | readWrite direction buffer sector count device =>
    have haccepted : refusal? config direction buffer count device = none := by
      simpa [Operation.accesses] using haccess
    obtain ⟨gate, t1, t2, d1, rfl, hg, -⟩ := readWrite_transfers haccepted h
    exact hgate hg
  | ioctl device request =>
    obtain rfl : device = 0 := by simpa [Operation.accesses] using haccess
    obtain ⟨t1, t2, r, d1, rfl, hg, -⟩ := ioctl_runs h
    exact hgate hg

/-- After operations that neither access nor enumerate the card, the next access to it begins with a
reset of the controller. -/
def ResetsNext (config : Config) (d : Driver) : Prop :=
  ∀ os t1 d1, Session config d os t1 d1 →
    (∀ o ∈ os, o.accesses config = false ∧ o.enumerates = false) →
    ∀ (o : Operation) t2 a d2, o.accesses config = true → Runs (o.step config) d1 t2 a d2 →
      ∃ reset rest, t2 = reset ++ rest ∧ ResetsHost reset

theorem resetsNext_of_zero (hzero : d.card.rca = 0) : ResetsNext config d := by
  intro os t1 d1 hsession hidle o t2 a d2 haccess hstep
  -- The address alone is carried along the session.
  have hzero1 : d1.card.rca = 0 := by
    clear hstep
    induction hsession with
    | nil d => exact hzero
    | cons hx _ ih =>
      rw [List.forall_mem_cons] at hidle
      obtain ⟨⟨hquiet, hplain⟩, hrest⟩ := hidle
      exact ih (Operation.unaddressed hquiet hplain hx hzero) hrest
  exact Operation.resets haccess hstep hzero1

/-- A data command for sectors that the card can address is attempted again as long as it fails, and
always ends. It succeeds if and only if an attempt does. After as many failures as the settings
allow, and after one at least, it is given up: the card has no address then, and the next access to
it begins with a reset of the controller. A request for sectors that passes the gate ends with this
command, and answers its failure with a read fault or a write fault, as its direction is. -/
theorem dataCommand_retried (hd : Reachable config d) :
    (∀ data sector address, Addresses d.card.highCapacity sector address →
      1 ≤ data.size / sectorWords →
      (∀ (σ : Type) (machine : Device port σ), (∀ o s, (machine o s).isSome) → ∀ s,
        (((transferBlocks config data sector).run d).run machine s).isSome) ∧
      ∀ t outcome arrived d', Runs (transferBlocks config data sector) d t (outcome, arrived) d' →
        Retries (dataCommand data.isSend (data.size / sectorWords)) address sector
          config.dataTimeout data (max config.maxRetries.toNat 1) d t outcome d' ∧
        (outcome ≠ .ok () → outcome = .error .retriesExhausted ∧ d'.card.rca = 0 ∧
          ResetsNext config d')) ∧
    ∀ direction buffer sector count device t result d',
      refusal? config direction buffer count device = none →
      Runs (readWrite config direction buffer sector count device) d t result d' →
      ∃ gate t1 t2 d1, t = t1 ++ t2 ∧ Acts (ensureDataMode config) d t1 gate d1 ∧
        Reachable config d1 ∧
        (gate = .ok () → ∃ t3 t4 outcome arrived, t2 = t3 ++ t4 ∧
          Runs (transferBlocks config (direction.transfer buffer (count.toNat * sectorWords))
            sector) d1 t3 (outcome, arrived) d' ∧
          (outcome = .ok () → result.1 = .ok ()) ∧
          ∀ e, outcome = .error e →
            (direction = .read → result.1 = .error .readFault) ∧
            (direction = .write → result.1 = .error .writeFault)) := by
  refine ⟨fun data sector address haddress hsome => ⟨?_, ?_⟩, ?_⟩
  · intro σ machine hanswers s
    have hends : Ends (fun _ => True) (fun r => ∀ e, r.1 = .error e → True)
        (transferBlocks config data sector) d :=
      transferBlocks_ends (fun _ _ => trivial) (.inl trivial) (.inl trivial)
    exact hends.run_isSome hanswers s
  · intro t outcome arrived d' h
    have hretries := transferBlocks_retries hd.blockSize haddress hsome h
    refine ⟨hretries, fun hfailed => ?_⟩
    cases hretries with
    | succeeds => exact absurd rfl hfailed
    | givenUp => exact ⟨rfl, rfl, resetsNext_of_zero rfl⟩
  · intro direction buffer sector count device t result d' haccepted h
    obtain ⟨gate, t1, t2, d1, rfl, hgate, htransfer⟩ := readWrite_transfers haccepted h
    exact ⟨gate, t1, t2, d1, rfl, hgate, hd.step (o := .ensureDataMode) hgate, htransfer⟩

theorem dataCommand_retried_givenUp :
    ∃ d t1 outcome arrived d' t2 answer d2, Reachable {} d ∧ d.card.rca ≠ 0 ∧
      Runs (transferBlocks {} (.receive 128) 3) d t1 (outcome, arrived) d' ∧
      Retries .readSingleBlock 1536 3 5000000 (.receive 128) 3 d t1 (.error .retriesExhausted) d' ∧
      d'.card.rca = 0 ∧ Runs (ioctl {} 0 .diskName) d' t2 answer d2 ∧
      ∃ reset rest, t2 = reset ++ rest ∧ ResetsHost reset := by
  obtain ⟨t, ⟨d, ⟨outcome, arrived⟩, answer⟩, d2, hrun, hgivenUp⟩ : ∃ t a d2, Runs (do
      let _ ← (ensureDataMode {}).run
      let d ← get
      let result ← transferBlocks {} (.receive 128) 3
      let answer ← ioctl {} 0 .diskName
      pure (d, result, answer)) {} t a d2 ∧
      (a.1.card.rca != 0 && !a.1.card.highCapacity &&
        failure? a.2.1.1 == some .retriesExhausted) = true :=
    exists_runs (P := fun _
        (a : Driver × (Except Error Unit × Array UInt32) × Except BiosError IoctlResponse) _ =>
      a.1.card.rca != 0 && !a.1.card.highCapacity &&
        failure? a.2.1.1 == some .retriesExhausted)
      (by decide +kernel : ((Prog.run (promptCard [.ioSetOpCond, .readSingleBlock])
        (StateT.run _ _) 0).any _) = true)
  obtain ⟨t0, _, gate, d0, -, hgate, hrest⟩ := runs_bind.mp hrun
  obtain ⟨t1, _, ⟨_, _⟩, d', -, htransfer, hrest⟩ := runs_bind.mp (runs_get_bind.mp hrest)
  obtain ⟨t2, _, _, _, -, hioctl, hpair⟩ := runs_bind.mp hrest
  obtain ⟨-, hanswers, rfl⟩ := runs_pure.mp hpair
  obtain ⟨rfl, hresults⟩ := Prod.mk.inj hanswers
  obtain ⟨hresult, rfl⟩ := Prod.mk.inj hresults
  obtain ⟨rfl, rfl⟩ := Prod.mk.inj hresult
  simp only [Bool.and_eq_true, bne_iff_ne, Bool.not_eq_true', beq_iff_eq] at hgivenUp
  obtain ⟨⟨haddressed, hbytes⟩, hfailed⟩ := hgivenUp
  have hd : Reachable {} d := (reachable_start {}).step (o := .ensureDataMode) hgate
  have haddress : Addresses d.card.highCapacity 3 1536 := by
    rw [hbytes]
    rfl
  obtain ⟨hretries, hnext⟩ :=
    ((dataCommand_retried hd).1 (.receive 128) 3 1536 haddress (by decide)).2 _ _ _ _ htransfer
  obtain ⟨rfl, hzero, hresets⟩ := hnext (by rintro rfl; nomatch hfailed)
  exact ⟨d, t1, _, arrived, d', t2, answer, d2, hd, haddressed, htransfer, hretries, hzero, hioctl,
    hresets [] [] d' (.nil d') (by simp) (.ioctl 0 .diskName) t2 answer d2 rfl hioctl⟩

end Peripherals.Sd
