import Peripherals.Proofs.Sd.Answer
import Peripherals.Proofs.Sd.Operation
import Peripherals.Proofs.Sd.Orders

/-! A card that is ready. The gate in front of an access ends well only where the card has told that
it is in the transfer state, and a card that tells so at once is asked nothing else. -/

namespace Peripherals.Sd

variable {config : Config} {d d' : Driver} {t : History}

/-- The card at `rca` is asked for its status: the command is seen to be done at a sample without an
error, and the response is `v`. -/
def AsksStatus (rca : UInt16) (v : UInt32) (t : History) : Prop :=
  ∃ size polls sample notes,
    t = [writeOf .blockSizeCount size, writeOf .argument (rca.toUInt32 <<< 16),
        writeOf .command Command.sendStatus.word.bits] ++
      (polls ++ [readOf .interrupt sample,
        writeOf .interrupt (Interrupt.errorMask ||| Interrupt.commandDone),
        readOf .response0 v] ++ notes) ∧
    (∀ e ∈ polls, Polls e) ∧
    hasBits sample Interrupt.commandDone = true ∧ hasBits sample Interrupt.errorMask = false ∧
    ∀ e ∈ notes, ∃ n, e = noteOf n

theorem commands_of_polls (h : ∀ e ∈ t, Polls e) : commands t = [] := by
  induction t with
  | nil => rfl
  | cons e t ih =>
    rw [List.forall_mem_cons] at h
    have hfirst : commands [e] = [] := by
      obtain ⟨r | ⟨r, v⟩ | us | _ | _ | _, _⟩ := e
      case read | write => cases r <;> first | rfl | exact h.1.elim
      all_goals rfl
    rw [← List.singleton_append, commands_append, hfirst, ih h.2]
    rfl

theorem AsksStatus.orders {rca : UInt16} {v : UInt32} (h : AsksStatus rca v t) (a : UInt32) :
    orders a t = [order .sendStatus (rca.toUInt32 <<< 16)] := by
  obtain ⟨size, polls, sample, notes, rfl, hpolls, -, -, hnotes⟩ := h
  have hsilent : commands (polls ++ [readOf .interrupt sample,
      writeOf .interrupt (Interrupt.errorMask ||| Interrupt.commandDone),
      readOf .response0 v] ++ notes) = [] := by
    rw [commands_append, commands_append, commands_of_polls hpolls,
      commands_of_still (traffic_of_notes hnotes)]
    rfl
  rw [orders_append, orders_of_silent hsilent, List.append_nil]
  rfl

theorem AsksStatus.reports {rca : UInt16} {v : UInt32} {t2 : History} (h : AsksStatus rca v t)
    (h2 : ∀ e ∈ t2, ∃ n, e = noteOf n) : AsksStatus rca v (t ++ t2) := by
  obtain ⟨size, polls, sample, notes, rfl, hpolls, hdone, herror, hnotes⟩ := h
  refine ⟨size, polls, sample, notes ++ t2, by simp, hpolls, hdone, herror, fun e he => ?_⟩
  exact (List.mem_append.mp he).elim (hnotes e) (h2 e)

/-- A status command that succeeds is swept for, started and answered. -/
theorem sendStatus_succeeds {u : Unit}
    (h : Acts (issueCommand .sendStatus d.card.rcaArgument commandTimeout) d t (.ok u) d') :
    d'.cardRemoved = false ∧ OnlyLast d d' ∧ ∃ swept asked d1, t = swept ++ asked ∧
      Acts sweep d swept (.ok ()) d1 ∧ AsksStatus d.card.rca d'.last.reply asked := by
  obtain ⟨swept, t3, d1, rfl, hs, ⟨-, -, herror, -⟩ | ⟨hpresent, h2⟩⟩ :=
    issue_acts rfl (by simp [Transfer.size]) h
  · nomatch herror
  obtain ⟨asked, t4, rfl, hstart, -, hok⟩ := startReported_acts ((announce_passes rfl).mp h2)
  obtain rfl := hok rfl
  rw [List.append_nil]
  have hlast := start_onlyLast hstart
  refine ⟨?_, (sweep_onlyLast hs hpresent).trans hlast, swept, asked, d1, rfl, hs, ?_⟩
  · rw [hlast]
    exact hpresent
  · obtain ⟨polls, sample, after, hasked, hpolls, hclean, -, hshort⟩ :=
      start_responds (.inl rfl) rfl hstart
    obtain rfl := hshort rfl
    obtain ⟨hdone, herror⟩ := bits_of_isClean hclean rfl rfl
    exact ⟨_, polls, sample, [], hasked, hpolls, hdone, herror, by simp⟩

theorem queryStatus_succeeds {status : CardStatus} (h : Acts queryStatus d t (.ok status) d') :
    d'.cardRemoved = false ∧ OnlyLast d d' ∧ ∃ swept asked d1, t = swept ++ asked ∧
      Acts sweep d swept (.ok ()) d1 ∧ AsksStatus d.card.rca status.raw asked := by
  obtain ⟨t1, t2, result, d1, rfl, hissue, h1⟩ := acts_observe_bind.mp (acts_get_bind.mp h)
  cases result with
  | error e =>
    obtain ⟨t3, rfl, h2⟩ := acts_report_bind.mp h1
    nomatch (acts_throw.mp (acts_modify_bind.mp h2)).2.1
  | ok =>
    have hreport : status = ⟨d1.last.reply⟩ ∧ d' = d1 ∧ ∀ e ∈ t2, ∃ n, e = noteOf n := by
      have h2 := acts_get_bind.mp h1
      rw [acts_ite] at h2
      split at h2
      · obtain ⟨t3, rfl, h3⟩ := acts_report_bind.mp h2
        obtain ⟨rfl, hstatus, rfl⟩ := acts_pure.mp h3
        exact ⟨Except.ok.inj hstatus, rfl, by simp⟩
      · obtain ⟨rfl, hstatus, rfl⟩ := acts_pure.mp h2
        exact ⟨Except.ok.inj hstatus, rfl, by simp⟩
    obtain ⟨rfl, rfl, hnotes⟩ := hreport
    obtain ⟨hpresent, hlast, swept, asked, d2, rfl, hs, hasks⟩ := sendStatus_succeeds hissue
    exact ⟨hpresent, hlast, swept, asked ++ t2, d2, List.append_assoc _ _ _, hs,
      hasks.reports hnotes⟩

/-- The gate ends well only with a query of the status that finds the card in the transfer state. -/
theorem ensureDataMode_ends (h : Acts (ensureDataMode config) d t (.ok ()) d') :
    ∃ t1 t2 d1 status, t = t1 ++ t2 ∧ Acts queryStatus d1 t2 (.ok status) d' ∧
      status.state = .transfer := by
  have hconfirm {d1 : Driver} {t : History} (h : Acts confirmTransfer d1 t (.ok ()) d') :
      ∃ status, Acts queryStatus d1 t (.ok status) d' ∧ status.state = .transfer := by
    obtain ⟨t1, t2, status, d2, rfl, hq, h1⟩ := acts_bind_ok.mp h
    by_cases hready : status.state = .transfer
    · rw [if_pos hready] at h1
      obtain ⟨rfl, -, rfl⟩ := acts_pure.mp h1
      rw [List.append_nil]
      exact ⟨status, hq, hready⟩
    · rw [if_neg hready] at h1
      obtain ⟨t3, -, h2⟩ := acts_report_bind.mp h1
      nomatch (acts_throw.mp (acts_modify_bind.mp h2)).2.1
  have henter {d0 : Driver} {t : History} (h : Acts (enterTransfer config) d0 t (.ok ()) d') :
      ∃ t1 t2 d1 status, t = t1 ++ t2 ∧ Acts queryStatus d1 t2 (.ok status) d' ∧
        status.state = .transfer := by
    obtain ⟨t1, t2, status, d1, rfl, hq, h1⟩ := acts_bind_ok.mp h
    by_cases hready : status.state = .transfer
    · rw [if_pos hready] at h1
      obtain ⟨rfl, -, rfl⟩ := acts_pure.mp h1
      exact ⟨[], t1, d0, status, by simp, hq, hready⟩
    · rw [if_neg hready] at h1
      obtain ⟨t3, t4, _, d2, rfl, -, h2⟩ := acts_bind_ok.mp h1
      obtain ⟨status', hq', hready'⟩ := hconfirm h2
      exact ⟨t1 ++ t3, t4, d2, status', by simp, hq', hready'⟩
  have h1 := acts_get_bind.mp h
  by_cases hzero : d.card.rca = 0
  · rw [if_pos hzero] at h1
    obtain ⟨t1, t2, _, d1, rfl, -, h2⟩ := acts_bind_ok.mp h1
    obtain ⟨t3, t4, d2, status, rfl, hq, hready⟩ := henter h2
    exact ⟨t1 ++ t3, t4, d2, status, by simp, hq, hready⟩
  · rw [if_neg hzero] at h1
    exact henter h1

/-- The driver has only asked the card for its status. Nothing but the record of the last command
has changed, the card is there, and the one order was given, beside one for a card that interrupted.
-/
structure OnlyAsks (d : Driver) (t : History) (d' : Driver) : Prop where
  onlyLast : OnlyLast d d'
  present : d'.cardRemoved = false
  asked : ∃ swept asked v d1, t = swept ++ asked ∧ Acts sweep d swept (.ok ()) d1 ∧
    AsksStatus d.card.rca v asked
  orders : ∃ sample t', t = readOf .interrupt sample :: t' ∧ ∀ a, orders a t =
    (if hasBits sample Interrupt.card = true ∧ d.card.rca ≠ 0 then
      [order .sendStatus (d.card.rca.toUInt32 <<< 16)] else []) ++
        [order .sendStatus (d.card.rca.toUInt32 <<< 16)]

theorem queryStatus_onlyAsks {status : CardStatus} (h : Acts queryStatus d t (.ok status) d') :
    OnlyAsks d t d' := by
  obtain ⟨hpresent, hlast, swept, asked, d1, rfl, hs, hasks⟩ := queryStatus_succeeds h
  obtain ⟨sample, t', rfl, horders⟩ := sweep_orders hs
  refine ⟨hlast, hpresent, ⟨_, asked, status.raw, d1, rfl, hs, hasks⟩, sample, t' ++ asked, rfl,
    fun a => ?_⟩
  rw [orders_append, horders, hasks.orders]
  rfl

theorem ensureDataMode_queries {r : Except Error Unit} (haddress : d.card.rca ≠ 0)
    (h : Acts (ensureDataMode config) d t r d') :
    ∃ t1 t2 answer d1, t = t1 ++ t2 ∧ Acts queryStatus d t1 answer d1 := by
  have h1 := acts_get_bind.mp h
  rw [if_neg haddress] at h1
  rcases acts_bind.mp h1 with ⟨e, -, hq⟩ | ⟨t1, t2, status, d1, rfl, hq, -⟩
  · exact ⟨t, [], .error e, d', t.append_nil.symm, hq⟩
  · exact ⟨t1, t2, .ok status, d1, rfl, hq⟩

/-- A card with an address that is in the transfer state passes the gate at once. -/
theorem ensureDataMode_passes {status : CardStatus} {d1 : Driver} {t1 t2 : History}
    {r : Except Error Unit} (haddress : d.card.rca ≠ 0)
    (hquery : Acts queryStatus d t1 (.ok status) d1) (hready : status.state = .transfer)
    (h : Acts (ensureDataMode config) d (t1 ++ t2) r d') : t2 = [] ∧ r = .ok () ∧ d' = d1 := by
  have h1 := acts_get_bind.mp h
  rw [if_neg haddress] at h1
  -- The gate starts with the query, and a query that starts with the same requests is the same.
  rcases acts_bind.mp h1 with ⟨e, rfl, hq⟩ | ⟨t3, t4, status', d2, heq, hq, h2⟩
  · obtain ⟨-, -, hresult⟩ := hquery.unique hq (List.append_nil (t1 ++ t2)).symm
    nomatch congrArg Prod.fst hresult
  · obtain ⟨-, rfl, hresult⟩ := hquery.unique hq heq
    obtain ⟨hstatus, rfl⟩ := Prod.mk.inj hresult
    obtain rfl := Except.ok.inj hstatus
    rw [if_pos hready] at h2
    obtain ⟨rfl, rfl, rfl⟩ := acts_pure.mp h2
    exact ⟨rfl, rfl, rfl⟩

theorem ensureDataMode_of_query {status : CardStatus} (haddress : d.card.rca ≠ 0)
    (hquery : Acts queryStatus d t (.ok status) d') (hready : status.state = .transfer) :
    Acts (ensureDataMode config) d t (.ok ()) d' := by
  refine acts_get_bind.mpr ?_
  rw [if_neg haddress]
  refine acts_bind_ok.mpr ⟨t, [], status, d', t.append_nil.symm, hquery, ?_⟩
  rw [if_pos hready]
  exact acts_pure.mpr ⟨rfl, rfl, rfl⟩

/-- The gate is passed again and again by a card that is in the transfer state whenever it is asked
first. -/
inductive StaysReady (config : Config) : Driver → List History → Driver → Prop
  | nil (d : Driver) : StaysReady config d [] d
  | cons {d d1 d2 d' : Driver} {t1 t2 : History} {ts : List History} {status : CardStatus}
    {r : Except Error Unit} : Acts queryStatus d t1 (.ok status) d1 →
      (status.raw >>> 9) &&& 0xF = 4 → Acts (ensureDataMode config) d (t1 ++ t2) r d2 →
        StaysReady config d2 ts d' → StaysReady config d ((t1 ++ t2) :: ts) d'

theorem StaysReady.onlyAsks {ts : List History} (h : StaysReady config d ts d')
    (haddress : d.card.rca ≠ 0) :
    OnlyLast d d' ∧ ∀ t ∈ ts, ∃ d1 d2, OnlyLast d d1 ∧ OnlyAsks d1 t d2 := by
  induction h with
  | nil d => exact ⟨rfl, by simp⟩
  | @cons d d1 d2 d' t1 t2 ts status r hquery hready hgate _ ih =>
    rw [← status.state_eq_transfer] at hready
    obtain ⟨rfl, rfl, rfl⟩ := ensureDataMode_passes haddress hquery hready hgate
    have hasks := queryStatus_onlyAsks hquery
    have hcard : d2.card = d.card := by rw [hasks.onlyLast]
    obtain ⟨hlast, hrest⟩ := ih (by rwa [hcard])
    refine ⟨hasks.onlyLast.trans hlast, List.forall_mem_cons.mpr ⟨?_, fun t ht => ?_⟩⟩
    · rw [List.append_nil]
      exact ⟨d, d2, rfl, hasks⟩
    · obtain ⟨d3, d4, hlast3, hasks3⟩ := hrest t ht
      exact ⟨d3, d4, hasks.onlyLast.trans hlast3, hasks3⟩

def isReady : Except Error CardStatus → Bool
  | .ok status => status.state == .transfer
  | .error _ => false

theorem ready_of_isReady {answer : Except Error CardStatus} (h : isReady answer = true) :
    ∃ status, answer = .ok status ∧ status.state = .transfer := by
  cases answer with
  | ok status => exact ⟨status, rfl, eq_of_beq h⟩
  | error e => nomatch h

/-- The gate is sound: where it ends well the card is there, and the last command was the question
for its status, which was answered without an error from the transfer state. And it does nothing to
a card that is ready: a card with an address that answers the first question from the transfer state
is asked nothing else, and nothing changes but the record of the last command, however often the
gate is passed. -/
theorem ensureDataMode_ready (config : Config) (d : Driver) :
    (∀ t d', Acts (ensureDataMode config) d t (.ok ()) d' →
      d'.cardRemoved = false ∧ ∃ before asked v, t = before ++ asked ∧
        AsksStatus d'.card.rca v asked ∧ (v >>> 9) &&& 0xF = 4) ∧
    (d.card.rca ≠ 0 →
      (∀ t r d', Acts (ensureDataMode config) d t r d' → ∃ t1 t2 answer d1, t = t1 ++ t2 ∧
        Acts queryStatus d t1 answer d1 ∧
        ∀ status, answer = .ok status → (status.raw >>> 9) &&& 0xF = 4 →
          t2 = [] ∧ r = .ok () ∧ d' = d1 ∧ d'.card = d.card ∧ OnlyAsks d t d') ∧
      ∀ ts d', StaysReady config d ts d' →
        OnlyLast d d' ∧ ∀ t ∈ ts, ∃ d1 d2, OnlyLast d d1 ∧ OnlyAsks d1 t d2) := by
  refine ⟨fun t d' h => ?_, fun haddress => ⟨fun t r d' h => ?_,
    fun ts d' h => h.onlyAsks haddress⟩⟩
  · obtain ⟨t1, t2, d1, status, rfl, hquery, hready⟩ := ensureDataMode_ends h
    obtain ⟨hpresent, hlast, swept, asked, d2, rfl, -, hasks⟩ := queryStatus_succeeds hquery
    refine ⟨hpresent, t1 ++ swept, asked, status.raw, by simp, ?_,
      status.state_eq_transfer.mp hready⟩
    rw [hlast]
    exact hasks
  · obtain ⟨t1, t2, answer, d1, rfl, hquery⟩ := ensureDataMode_queries haddress h
    refine ⟨t1, t2, answer, d1, rfl, hquery, ?_⟩
    rintro status rfl hready
    rw [← status.state_eq_transfer] at hready
    obtain ⟨rfl, rfl, rfl⟩ := ensureDataMode_passes haddress hquery hready h
    have hasks := queryStatus_onlyAsks hquery
    rw [List.append_nil]
    refine ⟨rfl, rfl, rfl, ?_, hasks⟩
    rw [hasks.onlyLast]

theorem ensureDataMode_ready_twice :
    ∃ t1 t2 d', StaysReady {} { card := { rca := 5 } } [t1, t2] d' ∧
      (CardInfo.rca { rca := 5 } ≠ 0 ∧ OnlyLast { card := { rca := 5 } } d') ∧
      ∀ t ∈ [t1, t2], ∃ d1 d2, OnlyLast { card := { rca := 5 } } d1 ∧ OnlyAsks d1 t d2 := by
  obtain ⟨t, ⟨first, second⟩, d', hrun, hboth⟩ : ∃ t a d', Runs (do
      let first ← queryStatus.run
      let second ← queryStatus.run
      pure (first, second)) { card := { rca := 5 } } t a d' ∧
      (isReady a.1 && isReady a.2) = true :=
    exists_runs (P := fun _ (a : Except Error CardStatus × Except Error CardStatus) _ =>
      isReady a.1 && isReady a.2)
      (by decide +kernel : ((Prog.run (promptCard []) (StateT.run _ _) 0).any _) = true)
  obtain ⟨hfirst, hsecond⟩ := Bool.and_eq_true_iff.mp hboth
  obtain ⟨t1, t2, _, d1, -, h1, hrest⟩ := runs_bind.mp hrun
  obtain ⟨t3, t4, _, d2, -, h2, hpair⟩ := runs_bind.mp hrest
  obtain ⟨-, hanswers, rfl⟩ := runs_pure.mp hpair
  obtain ⟨rfl, rfl⟩ := Prod.mk.inj hanswers
  obtain ⟨status1, rfl, hready1⟩ := ready_of_isReady hfirst
  obtain ⟨status2, rfl, hready2⟩ := ready_of_isReady hsecond
  have hcard : d1.card.rca = 5 := by rw [(queryStatus_onlyAsks h1).onlyLast]
  have hgate1 : Acts (ensureDataMode {}) { card := { rca := 5 } } (t1 ++ []) (.ok ()) d1 := by
    rw [List.append_nil]
    exact ensureDataMode_of_query (by decide) h1 hready1
  have hgate2 : Acts (ensureDataMode {}) d1 (t3 ++ []) (.ok ()) d' := by
    rw [List.append_nil]
    exact ensureDataMode_of_query (by rw [hcard]; decide) h2 hready2
  have hstays := StaysReady.cons h1 (status1.state_eq_transfer.mp hready1) hgate1
    (.cons h2 (status2.state_eq_transfer.mp hready2) hgate2 (.nil d'))
  obtain ⟨hlast, hasks⟩ := ((ensureDataMode_ready {} _).2 (by decide)).2 _ _ hstays
  exact ⟨_, _, d', hstays, ⟨by decide, hlast⟩, hasks⟩

end Peripherals.Sd
