import Peripherals.Proofs.Sd.DataCommand
import Peripherals.Proofs.Sd.WriteProtection

/-! Commands that do not exist. The words of the others keep clear of the marker, and no word of a
command that does not exist is ever written to the command register: the command is refused before
the machine is asked for anything. -/

namespace Peripherals.Sd

/-! The words of the commands. -/

/-- An index and the fields of a command keep to their places in a word. -/
def FitsWord (index : Nat) (fields : UInt32) : Prop := index < 64 ∧ fields.toNat < 2 ^ 24

instance (index : Nat) (fields : UInt32) : Decidable (FitsWord index fields) :=
  inferInstanceAs (Decidable (_ ∧ _))

theorem fitsWord_of_standard {index : Nat} {fields : UInt32}
    (h : standardFields? index = some fields) : FitsWord index fields := by
  unfold standardFields? at h
  -- An index that the table leaves out has no fields.
  split at h
  all_goals cases h
  all_goals decide

theorem fitsWord_of_application {index : Nat} {fields : UInt32}
    (h : applicationFields? index = some fields) : FitsWord index fields := by
  unfold applicationFields? at h
  split at h
  all_goals cases h
  all_goals decide

namespace CommandWord

variable {index : Nat} {fields : UInt32}

theorem toNat_encode (h : FitsWord index fields) :
    (encode index fields).bits.toNat = index * 2 ^ 24 + fields.toNat := by
  have hindex := h.1
  have hshift : (UInt32.ofNat index <<< 24).toNat = index <<< 24 := by
    rw [UInt32.toNat_shiftLeft, UInt32.toNat_ofNat']
    show ((index % 2 ^ 32) <<< 24) % 2 ^ 32 = index <<< 24
    rw [Nat.shiftLeft_eq, Nat.shiftLeft_eq]
    omega
  rw [encode, UInt32.toNat_or, hshift, ← Nat.shiftLeft_add_eq_or_of_lt h.2, Nat.shiftLeft_eq]

/-- The word has the index of its command in the bits 24 to 29, and nothing above it. -/
def Indexed (w : CommandWord) (index : UInt32) : Prop :=
  w.bits >>> 24 &&& 0x3F = index ∧ w.bits >>> 30 = 0

theorem indexed_encode (h : FitsWord index fields) :
    (encode index fields).Indexed (UInt32.ofNat index) := by
  obtain ⟨hindex, hfields⟩ := h
  have hword := toNat_encode ⟨hindex, hfields⟩
  constructor
  · rw [← UInt32.toNat_inj, UInt32.toNat_and, UInt32.toNat_shiftRight, hword, UInt32.toNat_ofNat']
    show (index * 2 ^ 24 + fields.toNat) >>> 24 &&& (2 ^ 6 - 1) = index % 2 ^ 32
    rw [Nat.and_two_pow_sub_one_eq_mod, Nat.shiftRight_eq_div_pow]
    omega
  · rw [← UInt32.toNat_inj, UInt32.toNat_shiftRight, hword]
    show (index * 2 ^ 24 + fields.toNat) >>> 30 = 0
    rw [Nat.shiftRight_eq_div_pow]
    omega

end CommandWord

namespace Command

variable {c : Command} {fields : UInt32}

/-- The fields of the command, if there is one, by the table of its kind. -/
def fields? (c : Command) : Option UInt32 :=
  if c.isApplication then applicationFields? c.index.toNat else standardFields? c.index.toNat

theorem fitsWord_of_fields (h : c.fields? = some fields) : FitsWord c.index.toNat fields := by
  unfold fields? at h
  split at h
  · exact fitsWord_of_application h
  · exact fitsWord_of_standard h

theorem word_of_some (h : c.fields? = some fields) : c.word = .encode c.index.toNat fields := by
  unfold fields? at h
  simp only [word, h]

theorem word_of_none (h : c.fields? = none) : c.word = .reserved := by
  unfold fields? at h
  simp only [word, h]

theorem indexed_of_some (h : c.fields? = some fields) : c.word.Indexed c.index := by
  rw [word_of_some h]
  simpa using CommandWord.indexed_encode (fitsWord_of_fields h)

/-- The word of a command is the marker, or it has the index of the command in its place. -/
theorem word_cases (c : Command) : c.word = .reserved ∨ c.word.Indexed c.index := by
  cases hfields : c.fields? with
  | none => exact .inl (word_of_none hfields)
  | some fields => exact .inr (indexed_of_some hfields)

/-- The marker stands for the commands that no table has, and for no other. -/
theorem word_eq_reserved : c.word = .reserved ↔ c.fields? = none := by
  refine ⟨fun hmarker => ?_, word_of_none⟩
  cases hfields : c.fields? with
  | none => rfl
  | some fields =>
    have hindexed := indexed_of_some hfields
    rw [hmarker] at hindexed
    exact absurd hindexed.2 (by decide)

end Command

/-! What is refused, and what is started. -/

section Refused

variable {command : Command} {argument timeout : UInt32} {data : Transfer} {d d' : Driver}
  {t : History}

/-- A command that does not exist is reported and refused, and that is all. -/
theorem issue_reserved (hreserved : command.word.isReserved = true) :
    (issue command argument timeout data).run.run d =
      .op (.note (.invalidCommand command)) fun _ =>
        .pure (.error (.reservedCommand command),
          { d with last := { command := some command } }) := by
  have hrefused : (refuseInvalid command data).run.run d =
      .op (.note (.invalidCommand command)) fun _ =>
        .pure (.error (.reservedCommand command),
          { d with last := { command := some command } }) := by
    show (ite (command.word.isReserved = true) _ _ : Action Unit).run.run d = _
    rw [if_pos hreserved]
    rfl
  show ((refuseInvalid command data).run.run d >>= _) = _
  rw [hrefused]
  rfl

/-- The word starts a command that exists. -/
def Existing (w : UInt32) : Prop := ∃ c : Command, c.word.isReserved = false ∧ c.word.bits = w

theorem Session.starts_existing {config : Config} {os : List Operation}
    (h : Session config d os t d') : Starts Existing d t d' := by
  have hissue (command : Command) (argument timeout : UInt32) (data : Transfer) :
      Keeps (Starts Existing) (issue command argument timeout data).run :=
    issue_starts ⟨.sendStatus, rfl, rfl⟩ ⟨.appCommand, rfl, rfl⟩ fun hvalid => ⟨_, hvalid, rfl⟩
  have haccess : KeepsAccess config (Starts Existing) := by
    have hall : ∀ command ∈ gateCommands ++ enumerationCommands,
        command.word.isReserved = false := by decide
    exact keepsAccess_starts config fun command hcommand => ⟨command, hall command hcommand, rfl⟩
  have hdata (data : Transfer) : KeepsData (Starts Existing) data := fun _ _ _ _ => hissue _ _ _ _
  refine h.keeps haccess.toComposes fun o _ => haccess.step hdata ?_ ?_ ?_
  · exact fun _ _ _ _ => hissue _ _ _ _
  · exact fun _ _ => starts_of_silent rfl
  · exact fun _ _ => starts_of_silent rfl

end Refused

/-- The word of a command, whatever its number, is the marker, or it has the index of the command
in its place and nothing above it; it is the marker where no table has the command, and only there.
A command with the marker is refused with a report and no other request to the machine, and all that
the driver keeps of it is that it was the last and did not succeed. So in any session, whatever the
commands that are asked for, no word is written to the command register but that of a command that
exists, and never the marker. -/
theorem reserved_refused (command : Command) :
    (command.word = .reserved ∨
        command.word.bits >>> 24 &&& 0x3F = command.index ∧ command.word.bits >>> 30 = 0) ∧
      (command.word = .reserved ↔ command.fields? = none) ∧
      (command.word.isReserved = true →
        ∀ (argument timeout : UInt32) (data : Transfer) (d : Driver),
          (issue command argument timeout data).run.run d =
            .op (.note (.invalidCommand command)) fun _ =>
              .pure (.error (.reservedCommand command),
                { d with last := { command := some command, success := false } })) ∧
      ∀ (config : Config) (d d' : Driver) (os : List Operation) (t : History),
        Session config d os t d' → ∀ w ∈ commands t, w >>> 30 = 0 ∧
          ∃ c : Command, c.word.isReserved = false ∧ c.word.bits = w := by
  refine ⟨command.word_cases, Command.word_eq_reserved,
    fun hreserved argument timeout data d => issue_reserved hreserved,
    fun config d d' os t hs w hw => ?_⟩
  obtain ⟨c, hc, rfl⟩ := hs.starts_existing w hw
  rcases c.word_cases with hmarker | hindexed
  · rw [hmarker] at hc
    nomatch hc
  · exact ⟨hindexed.2, c, hc, rfl⟩

/-- The number 99 is beyond the table. The command that is asked for after it is started. -/
theorem reserved_refused_beyond :
    (issueCommand (.application 99) 0 1000).run.run {} =
        .op (.note (.invalidCommand (.application 99))) (fun _ =>
          .pure (.error (.reservedCommand (.application 99)),
            { last := { command := some (.application 99), success := false } })) ∧
      ∃ t d', Session {} {} [.issueCommand (.application 99) 0 1000,
          .issueCommand .sendStatus 0 1000] t d' ∧
        Command.sendStatus.word.bits ∈ commands t ∧ CommandWord.reserved.bits ∉ commands t := by
  obtain ⟨-, -, hrefused, hsession⟩ := reserved_refused (.application 99)
  refine ⟨hrefused (by decide) 0 1000 .none {}, ?_⟩
  obtain ⟨t1, a, d1, t2, b, d', hfirst, hlater, hstarted⟩ := exists_runs_after
    (promptCard []) 0 (promptCard []) 0
    (x := (Operation.issueCommand (.application 99) 0 1000).step {})
    (y := (Operation.issueCommand .sendStatus 0 1000).step {}) (d := {})
    (P := fun _ t _ => (commands t).contains Command.sendStatus.word.bits)
    (by decide +kernel)
  have hs := Session.cons hfirst (.cons hlater (.nil d'))
  refine ⟨_, d', hs, ?_, fun hmarker => ?_⟩
  · rw [commands_append, commands_append, List.mem_append, List.mem_append]
    exact .inr (.inl (List.contains_iff_mem.mp hstarted))
  · obtain ⟨htop, -⟩ := hsession {} {} d' _ _ hs _ hmarker
    exact absurd htop (by decide)

end Peripherals.Sd
