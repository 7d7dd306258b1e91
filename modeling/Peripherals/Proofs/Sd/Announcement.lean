import Peripherals.Proofs.Sd.Answer
import Peripherals.Proofs.Sd.Completion
import Peripherals.Proofs.Sd.RemovedCard

/-! Application commands. Each is announced to the card, and is started only where the announcement
has been answered without an error. Nothing but the wait for that answer comes between the two. -/

namespace Peripherals.Sd

variable {command : Command} {argument timeout : UInt32} {data : Transfer} {d d1 d' : Driver}
  {t : History} {r : Except Error Unit}

/-- The sample shows that a command is done, and no error. -/
def ShowsDone (sample : UInt32) : Prop :=
  hasBits sample Interrupt.commandDone = true ∧ hasBits sample Interrupt.errorMask = false

theorem isClean_commandDone {sample : UInt32} :
    isClean sample Interrupt.commandDone = true ↔ ShowsDone sample := by
  refine ⟨fun h => bits_of_isClean h rfl rfl, fun ⟨hdone, herror⟩ => ?_⟩
  have hnone : sample &&& Interrupt.errorMask = 0 := by simpa [hasBits] using herror
  have hone : sample &&& Interrupt.commandDone = Interrupt.commandDone := by
    apply UInt32.toNat_inj.mp
    have hsome : (sample &&& Interrupt.commandDone).toNat ≠ 0 := by
      simpa [hasBits, ← UInt32.toNat_inj] using hdone
    simpa [Interrupt.commandDone, Nat.and_one_is_mod] using hsome
  rw [isClean, Word.and_or, hnone, hone, UInt32.zero_or]
  rfl

/-- How a command is opened does not depend on the record of the last one. -/
theorem opening_of_onlyLast (h : OnlyLast d d') (word : CommandWord) (argument : UInt32)
    (data : Transfer) : opening d' word argument data = opening d word argument data := by
  rw [h]
  rfl

/-- Where its announcement is not answered, the driver knows of no other command. -/
def announcementFailed (sample : UInt32) : Outcome where
  command := some .appCommand
  error := sample &&& Interrupt.errorMask &&& Interrupt.named
  interrupt := sample

/-- The command is announced with the address of the card. Its own start follows at once where the
announcement is seen done without an error, and is the last; any other announcement is what the
failure and the record of the last command are about. -/
def Wraps (d : Driver) (command : Command) (argument : UInt32) (data : Transfer) (t : History)
    (r : Except Error Unit) (d' : Driver) : Prop :=
  ∃ sample wait rest,
    t = opening d Command.appCommand.word (d.card.rca.toUInt32 <<< 16) .none ++ (wait ++ rest) ∧
    Awaits sample wait ∧
    (ShowsDone sample → ∃ v after,
      rest = readOf .response0 v :: (opening d command.word argument data ++ after) ∧
        commands after = []) ∧
    (¬ShowsDone sample → rest = [] ∧ r = .error (reason .appCommand sample) ∧
      d'.last = announcementFailed sample)

/-- A command with a short response and nothing to wait for after it. -/
theorem start_short (hplain : command.word.waitsForTransfer = false)
    (hshort : command.word.response = .short ∨ command.word.response = .shortBusy)
    (h : Acts (start command command.word argument timeout data) d t r d') :
    ∃ sample wait rest, t = opening d command.word argument data ++ (wait ++ rest) ∧
      Awaits sample wait ∧
      (ShowsDone sample ∧ r = .ok () ∧ (∃ v, rest = [readOf .response0 v]) ∨
        ¬ShowsDone sample ∧ rest = [] ∧ r = .error (reason command sample) ∧ d'.last =
          { command := some command
            error := sample &&& Interrupt.errorMask &&& Interrupt.named
            interrupt := sample }) := by
  obtain ⟨sample, wait, rest, rfl, hawaits, ⟨hclean, hok, _, _, hr⟩ | ⟨hfault, hfailed⟩⟩ :=
    start_plain hplain h
  · obtain ⟨v, rfl, -⟩ := readResponse_short hshort hr
    exact ⟨sample, wait, _, rfl, hawaits, .inl ⟨isClean_commandDone.mp hclean, hok, v, rfl⟩⟩
  · refine ⟨sample, wait, rest, rfl, hawaits, .inr ⟨?_, hfailed⟩⟩
    simp [← isClean_commandDone, hfault]

/-- The announcement is such a command. -/
theorem announcement_acts {rca : UInt32}
    (h : Acts (start .appCommand Command.appCommand.word rca timeout .none) d t r d') :
    ∃ sample wait rest, t = opening d Command.appCommand.word rca .none ++ (wait ++ rest) ∧
      Awaits sample wait ∧
      (ShowsDone sample ∧ r = .ok () ∧ (∃ v, rest = [readOf .response0 v]) ∨
        ¬ShowsDone sample ∧ rest = [] ∧ r = .error (reason .appCommand sample) ∧
          d'.last = announcementFailed sample) :=
  start_short rfl (.inl rfl) h

theorem startReported_opens (h : Acts (startReported command argument timeout data) d t r d') :
    ∃ after, t = opening d command.word argument data ++ after ∧ commands after = [] := by
  obtain ⟨t1, t2, rfl, hstart, hstill, -⟩ := startReported_acts h
  obtain ⟨after, rfl, hsilent⟩ := start_commands hstart
  exact ⟨after ++ t2, by simp, by simp [hsilent, commands_of_still hstill]⟩

theorem announced_wraps (happ : command.isApplication = true) (h : Acts (do
      announce command timeout
      startReported command argument timeout data) d t r d') :
    Wraps d command argument data t r d' := by
  rw [announce, bind_assoc, acts_get_bind, happ, if_pos rfl] at h
  rcases acts_bind.mp h with ⟨e, rfl, ha⟩ | ⟨t1, t2, _, d1, rfl, ha, h1⟩
  · obtain ⟨sample, wait, rest, rfl, hawaits, ⟨-, hok, -⟩ | ⟨hfault, hfailed⟩⟩ :=
      announcement_acts ha
    · cases hok
    · exact ⟨sample, wait, rest, rfl, hawaits, fun hdone => absurd hdone hfault, fun _ => hfailed⟩
  · obtain ⟨sample, wait, rest, rfl, hawaits, ⟨hdone, -, v, rfl⟩ | ⟨-, -, he, -⟩⟩ :=
      announcement_acts ha
    · obtain ⟨after, rfl, hsilent⟩ := startReported_opens h1
      -- The announcement changes only the record of the last command.
      have hopening := opening_of_onlyLast (start_onlyLast ha) command.word argument data
      refine ⟨sample, wait, readOf .response0 v :: (opening d command.word argument data ++ after),
        by simp [hopening, CardInfo.rcaArgument], hawaits, fun _ => ⟨v, after, rfl, hsilent⟩,
        fun hfault => absurd hdone hfault⟩
    · cases he

/-- The sweep in front of a command may ask the card for its status, and notices a removal. -/
structure SweptFirst (d : Driver) (t : History) (d1 : Driver) : Prop where
  sweeps : Acts sweep d t (.ok ()) d1
  asks : ∀ w ∈ commands t, w = Command.sendStatus.word.bits
  removed : d1.cardRemoved = true ↔ d.cardRemoved = true ∨ noteOf .removed ∈ t

theorem sweep_first (h : Acts sweep d t (.ok ()) d1) : SweptFirst d t d1 where
  sweeps := h
  asks w hw := by
    obtain ⟨sample, t', -, hcommands⟩ := sweep_commands h
    rw [hcommands] at hw
    split at hw
    · exact List.mem_singleton.mp hw
    · nomatch hw
  removed := by
    obtain ⟨sample, before, noted, after, rfl, -, hbefore, -, hafter, hnotice⟩ := sweep_notices h
    rcases hnotice with ⟨-, rfl, hgone⟩ | ⟨-, rfl, hsame⟩
    · simp [hgone]
    · simp [hsame, hbefore, hafter, statusQuery_unnoticed]

/-- An application command is started only after its announcement, and only where that is answered
without an error. No other command is announced. -/
theorem application_command_announced (hvalid : command.word.isReserved = false) :
    CompletesFrom (fun _ => True) (issue command argument timeout data) d ∧
    ∀ t r d', Acts (issue command argument timeout data) d t r d' →
      maxBlocks < data.size / d.blockWords ∧ commands t = [] ∧ r = .error .tooManyBlocks ∨
      ∃ swept given d1, t = swept ++ given ∧ SweptFirst d swept d1 ∧
        (d1.cardRemoved = true ∧ given = [] ∧ r = .error .cardRemoved ∨
          d1.cardRemoved = false ∧
            (command.isApplication = true → Wraps d command argument data given r d') ∧
            (command.isApplication = false → ∃ after,
              given = opening d command.word argument data ++ after ∧ commands after = [])) := by
  refine ⟨issue_completes (by simp) (.inl trivial), fun t r d' h => ?_⟩
  by_cases hblocks : data.size / d.blockWords ≤ maxBlocks
  case neg =>
    obtain ⟨hrefused, -⟩ := issue_refused (fun hboth => hblocks hboth.2) h
    obtain ⟨hquiet, ⟨-, -, -, hfits⟩ | ⟨-, hreserved, -⟩ | ⟨rfl, hmany, -⟩⟩ :=
      refuseInvalid_acts hrefused
    · exact absurd hfits hblocks
    · simp [hvalid] at hreserved
    · exact .inl ⟨hmany, commands_of_quiet hquiet, rfl⟩
  obtain ⟨swept, given, d1, rfl, hs, hgiven⟩ := issue_acts hvalid hblocks h
  refine .inr ⟨swept, given, d1, rfl, sweep_first hs, ?_⟩
  rcases hgiven with ⟨hgone, rfl, rfl, -⟩ | ⟨hpresent, h1⟩
  · exact .inl ⟨hgone, rfl, rfl⟩
  have hopening (word : CommandWord) (argument : UInt32) (data : Transfer) :
      opening d1 word argument data = opening d word argument data := by
    rw [sweep_onlyLast hs hpresent]
    rfl
  refine .inr ⟨hpresent, fun happ => ?_, fun hplain => ?_⟩
  · have hwraps := announced_wraps happ h1
    rwa [Wraps, (sweep_card hs).1, hopening, hopening] at hwraps
  · rw [← hopening]
    exact startReported_opens ((announce_passes hplain).mp h1)

/-- A card that has chosen an address. -/
def addressed : Driver := { card := { rca := 0x1234 } }

/-- Such a card is asked for its extended status. -/
theorem application_command_announced_once :
    ∃ t d' swept given,
      Acts (issue (.application 13) 0 commandTimeout .none) addressed t (.ok ()) d' ∧
      commands t = [Command.appCommand.word.bits, (Command.application 13).word.bits] ∧
      t = swept ++ given ∧ Wraps addressed (.application 13) 0 .none given (.ok ()) d' := by
  obtain ⟨t, r, d', hrun, hends⟩ : ∃ t r d',
      Acts (issue (.application 13) 0 commandTimeout .none) addressed t r d' ∧ (r.toBool &&
        commands t == [Command.appCommand.word.bits, (Command.application 13).word.bits]) = true :=
    exists_runs (P := fun t (r : Except Error Unit) _ => r.toBool &&
        commands t == [Command.appCommand.word.bits, (Command.application 13).word.bits])
      (by decide +kernel : ((Prog.run (promptCard []) (StateT.run _ _) 0).any _) = true)
  obtain ⟨hok, hcommands⟩ : r.toBool = true ∧ commands t =
      [Command.appCommand.word.bits, (Command.application 13).word.bits] := by simpa using hends
  cases r with
  | error => cases hok
  | ok =>
    obtain ⟨hmany, -⟩ | ⟨swept, given, d1, ht, -, ⟨-, -, he⟩ | ⟨-, hwraps, -⟩⟩ :=
      (application_command_announced (by decide)).2 t _ d' hrun
    · simp [Transfer.size] at hmany
    · cases he
    · exact ⟨t, d', swept, given, hrun, hcommands, ht, hwraps (by decide)⟩

end Peripherals.Sd
