import Mathlib.Data.List.Forall2
import Peripherals.Proofs.Sd.Checkpoints
import Peripherals.Proofs.Sd.Completion

/-! Whether a command succeeds. The samples of the interrupt status decide it, and nothing else: it
succeeds where there is a sample for every checkpoint and each of them passes. -/

namespace Peripherals.Sd

variable {command : Command} {word : CommandWord} {argument timeout : UInt32} {data : Transfer}
  {d d' : Driver} {t : History} {r : Except Error Unit}

theorem responses_opening (after : History) :
    responses (opening d word argument data ++ after) = responses after := rfl

theorem traffic_opening (after : History) :
    traffic (opening d word argument data ++ after) = .command word.bits :: traffic after := rfl

/-- Where one sample does not pass, not all of them do. -/
theorem Deviates.not_passes {cs : List Checkpoint} {sample : UInt32} (h : Deviates cs t sample) :
    ¬List.Forall₂ Checkpoint.Passes cs (Sd.samples t) := by
  obtain ⟨passed, c, rest, rfl, hfails, good, hgood, hpassed⟩ := h.samples
  intro hall
  rw [hgood] at hall
  have hlast := List.forall₂_drop passed.length hall
  rw [List.drop_left, hpassed.length_eq, List.drop_left] at hlast
  cases hlast with
  | cons hpasses _ => exact hfails hpasses

theorem Deviates.opening {cs : List Checkpoint} {sample : UInt32} (h : Deviates cs t sample) :
    Deviates cs (opening d word argument data ++ t) sample := by
  obtain ⟨hsamples, before, bits, rfl⟩ := h
  exact ⟨hsamples, opening d word argument data ++ before, bits, by rw [List.append_assoc]⟩

/-- A command that has succeeded has moved all its blocks, in the direction of its word, and has
read and recorded the response that its word asks for. -/
structure Performed (command : Command) (word : CommandWord) (words : Nat) (t : History)
    (o : Outcome) : Prop where
  traffic : ∃ values : List UInt32, values.length = words ∧
    Sd.traffic t = .command word.bits :: values.map (wordTraffic word.isRead)
  registers : (responses t).map Prod.fst = word.response.registers
  recorded : RecordsSuccess command t o

/-- A command succeeds exactly if every sample passes its checkpoint. Where it fails, the first
sample that does not pass is recorded, and nothing is done after it. -/
theorem start_decided (hfits : data.Fits word.isRead) :
    CompletesFrom (fun _ => True) (start command word argument timeout data) d ∧
    ∀ t r d', Acts (start command word argument timeout data) d t r d' →
      let points := checkpoints word data d.blockWords
      (r = .ok () ↔ List.Forall₂ Checkpoint.Passes points (samples t)) ∧
      (r = .ok () →
        Performed command word
          (if word.hasData then data.size / d.blockWords * d.blockWords else 0) t d'.last) ∧
      (r ≠ .ok () → ∃ sample, Deviates points t sample ∧ commands t = [word.bits] ∧
        d'.last.success = false ∧ d'.last.interrupt = sample) := by
  refine ⟨start_completes (fun _ _ => trivial) d, fun t r d' h => ?_⟩
  obtain ⟨after, stop, rfl, hchecked, hends, hrecorded⟩ := start_checked h
  cases stop with
  | none =>
    obtain rfl : r = .ok () := hends
    obtain ⟨values, hlen, htraffic⟩ := hchecked.traffic (directed_checkpoints _ _ _ hfits)
    obtain ⟨hcommand, hsuccess, herror, hinterrupt, hresponse⟩ := hrecorded rfl
    refine ⟨iff_of_true rfl hchecked.passes, fun _ => ⟨⟨values, ?_, ?_⟩, ?_,
        hcommand, hsuccess, herror, hinterrupt, hresponse⟩,
      fun hne => absurd rfl hne⟩
    · rw [hlen, words_checkpoints]
    · rw [traffic_opening, htraffic]
    · rw [responses_opening, hchecked.responses, registers_checkpoints]
  | some sample =>
    obtain ⟨rfl, hsuccess, -, hinterrupt⟩ := hends
    have hdeviates := hchecked.deviates
    refine ⟨iff_of_false nofun ?_, nofun, fun _ => ⟨sample, hdeviates.opening, ?_, hsuccess,
      hinterrupt⟩⟩
    · exact hdeviates.not_passes
    · obtain ⟨after', heq, hsilent⟩ := start_commands h
      rw [List.append_cancel_left heq]
      exact congrArg (_ :: ·) hsilent

/-- A block is read from a card that answers at once. -/
theorem start_decided_read :
    ∃ t d', Acts (start .readSingleBlock Command.readSingleBlock.word 0 commandTimeout
        (.receive 128)) {} t (.ok ()) d' ∧
      List.Forall₂ Checkpoint.Passes [.command .short, .block true true 128, .completion]
        (samples t) ∧
      Performed .readSingleBlock Command.readSingleBlock.word 128 t d'.last := by
  obtain ⟨t, r, d', hrun, hends⟩ : ∃ t r d', Acts (start .readSingleBlock
      Command.readSingleBlock.word 0 commandTimeout (.receive 128)) {} t r d' ∧
        r.toBool = true :=
    exists_runs (P := fun _ (r : Except Error Unit) _ => r.toBool)
      (by decide +kernel : ((Prog.run (promptCard []) (StateT.run _ _) 0).any _) = true)
  cases r with
  | error => nomatch hends
  | ok =>
    have hread : Transfer.Fits Command.readSingleBlock.word.isRead (.receive 128) := rfl
    obtain ⟨hiff, hperformed, -⟩ := (start_decided hread).2 t _ d' hrun
    exact ⟨t, d', hrun, hiff.mp rfl, hperformed rfl⟩

end Peripherals.Sd
