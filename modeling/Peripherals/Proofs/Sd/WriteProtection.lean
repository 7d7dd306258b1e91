import Peripherals.Proofs.Sd.Operation
import Peripherals.Proofs.Sd.Protocol

/-! Write protection. The only way to the data port is a request to write, which is refused, so over
a whole session nothing is written to it; and no operation of its own accord starts a command that
would have the card wait for data. -/

namespace Peripherals.Sd

variable {config : Config} {d d' : Driver} {t : History}

/-- The word starts a command with a data phase in which the host sends. -/
def sendsData (w : UInt32) : Bool :=
  (CommandWord.mk w).hasData && !(CommandWord.mk w).isRead

/-! The commands of an enumeration. -/

def enumerationCommands : List Command :=
  [.goIdleState, .sendIfCond, .ioSetOpCond, .appCommand, .sendOpCond, .voltageSwitch, .allSendCid,
    .sendRelativeAddr, .selectCard, .setBlockLength, .sendScr, .setBusWidth]

/-- The orders are for commands of an enumeration. -/
def Enumerating (l : List Order) : Prop :=
  ∀ o ∈ l, o.word ∈ enumerationCommands.map (·.word.bits)

theorem Enumerating.append {l l' : List Order} (h : Enumerating l) (h' : Enumerating l') :
    Enumerating (l ++ l') :=
  fun o ho => (List.mem_append.mp ho).elim (h o) (h' o)

theorem enumerating_order {command : Command} (h : command ∈ enumerationCommands)
    (argument : UInt32) : Enumerating [order command argument] := by
  intro o ho
  rw [List.mem_singleton.mp ho]
  exact List.mem_map_of_mem h

theorem enumerating_announced {command : Command} (h : command ∈ enumerationCommands)
    (rca : UInt16) (argument : UInt32) : Enumerating (announced rca command argument) :=
  (enumerating_order (by decide) _).append (enumerating_order h argument)

theorem Course.script_enumerating (course : Course) : Enumerating course.script := by
  have hasks : Enumerating (asks 0 course.argument course.polls) := by
    intro o ho
    obtain ⟨l, hl, hol⟩ := List.mem_flatten.mp ho
    rw [(List.mem_replicate.mp hl).2] at hol
    exact enumerating_announced (by decide) _ _ o hol
  have hagreement : Enumerating course.agreement :=
    ((enumerating_order (by decide) _).append ((enumerating_order (by decide) _).append
      (enumerating_order (by decide) _))).append
      ((enumerating_announced (by decide) _ _).append hasks)
  have hvoltage : Enumerating (voltage course.accepts1v8) := by
    unfold voltage
    split
    · exact enumerating_order (by decide) _
    · exact fun _ ho => nomatch ho
  have hidentification : Enumerating identification :=
    (enumerating_order (by decide) _).append (enumerating_order (by decide) _)
  have hselection : Enumerating (selection course.rca course.highCapacity) := by
    cases course.highCapacity with
    | true => exact enumerating_order (by decide) _
    | false => exact (enumerating_order (by decide) _).append (enumerating_order (by decide) _)
  have hwidening : Enumerating (widening course.rca course.wide) := by
    unfold widening
    split
    · exact enumerating_announced (by decide) _ _
    · exact fun _ ho => nomatch ho
  have hopening := (hagreement.append hvoltage).append hidentification
  exact (hopening.append (hselection.append (enumerating_announced (by decide) _ _))).append
    hwidening

/-- A reset starts the commands of an enumeration, and asks for the status of an interrupting card.
-/
theorem resetOnce_words {r : Except Error (Option SwitchFailure)}
    (h : Acts (resetOnce config) d t r d') :
    ∀ w ∈ commands t,
      w = Command.sendStatus.word.bits ∨ w ∈ enumerationCommands.map (·.word.bits) := by
  obtain ⟨course, hcourse⟩ := resetOnce_follows h
  intro w hw
  -- The status of a card that interrupts is asked for at any time, and stands in no script.
  by_cases hstatus : w = Command.sendStatus.word.bits
  · exact .inl hstatus
  · right
    rw [← orders_word 0 t, List.mem_map] at hw
    obtain ⟨o, ho, rfl⟩ := hw
    have hown : o ∈ own 0 t := List.mem_filter.mpr ⟨ho, by simpa using hstatus⟩
    exact course.script_enumerating o ((hcourse.given 0).subset hown)

/-! What holds of the words of all commands that are started. -/

/-- The words that start the commands satisfy `P`. -/
def Starts (P : UInt32 → Prop) (_ : Driver) (t : History) (_ : Driver) : Prop :=
  ∀ w ∈ commands t, P w

section Starts

variable {P : UInt32 → Prop} {command : Command} {argument timeout : UInt32} {data : Transfer}

theorem starts_of_silent (h : commands t = []) : Starts P d t d' := by
  simp [Starts, h]

theorem keepsQuiet_starts : KeepsQuiet (Starts P) where
  refl _ := starts_of_silent rfl
  trans h1 h2 w hw := by
    rw [commands_append, List.mem_append] at hw
    exact hw.elim (h1 w) (h2 w)
  quiet _ _ he := starts_of_silent (commands_of_still (traffic_quiet he))

/-- A command that does not exist starts nothing, and so its own word need not be looked at. -/
theorem issue_starts (hstatus : P Command.sendStatus.word.bits)
    (happ : P Command.appCommand.word.bits)
    (hown : command.word.isReserved = false → P command.word.bits) :
    Keeps (Starts P) (issue command argument timeout data).run := by
  intro d t r d' h w hw
  cases hreserved : command.word.isReserved with
  | true =>
    obtain ⟨hrefused, -⟩ := issue_refused (by simp [hreserved]) h
    rw [commands_of_quiet (refuseInvalid_acts hrefused).1] at hw
    nomatch hw
  | false =>
    rcases issue_words h w hw with rfl | rfl | rfl
    · exact hstatus
    · exact happ
    · exact hown hreserved

theorem keepsAccess_starts (config : Config)
    (hall : ∀ command ∈ gateCommands ++ enumerationCommands, P command.word.bits) :
    KeepsAccess config (Starts P) where
  toKeepsQuiet := keepsQuiet_starts
  reset _ _ _ _ h w hw := by
    rcases resetOnce_words h w hw with rfl | hw
    · exact hall _ (by decide)
    · obtain ⟨command, hcommand, rfl⟩ := List.mem_map.mp hw
      exact hall command (List.mem_append_right _ hcommand)
  gate hgate _ _ := issue_starts (hall _ (by decide)) (hall _ (by decide)) fun _ =>
    hall _ (List.mem_append_left _ hgate)
  dropped _ := starts_of_silent rfl
  switched _ := starts_of_silent rfl
  version _ _ := starts_of_silent rfl

end Starts

/-! What the operations of a protected driver do. -/

/-- No command is started that sends data. -/
def Unwritten (_ : Driver) (t : History) (_ : Driver) : Prop :=
  ∀ w ∈ commands t, sendsData w = false

theorem unwritten_of_silent (h : commands t = []) : Unwritten d t d' := by
  simp [Unwritten, h]

theorem issue_unwritten {command : Command} {argument timeout : UInt32} {data : Transfer}
    (hreads : sendsData command.word.bits = false) :
    Keeps Unwritten (issue command argument timeout data).run :=
  issue_starts (P := fun w => sendsData w = false) (by decide) (by decide) fun _ => hreads

theorem keepsAccess_unwritten (config : Config) : KeepsAccess config Unwritten :=
  keepsAccess_starts (P := fun w => sendsData w = false) config (by decide)

section Protected

variable (hprotect : config.writeProtect = true)
include hprotect

theorem reads_of_protected {direction : Direction}
    (haccepted : ¬(direction = .write ∧ config.writeProtect)) : direction = .read := by
  cases direction with
  | read => rfl
  | write => exact absurd ⟨rfl, hprotect⟩ haccepted

theorem keepsSectors_unsent : KeepsSectors config fun _ t _ => sent t = [] := by
  intro direction haccepted buffer words blocks argument timeout
  obtain rfl := reads_of_protected hprotect haccepted
  show Keeps _ (issue _ argument timeout (.receive words)).run
  exact keepsIssue_unsent.issue (by simp [Transfer.isSend]) _ _ _

theorem keepsSectors_unwritten : KeepsSectors config Unwritten := by
  intro direction haccepted buffer words blocks argument timeout
  obtain rfl := reads_of_protected hprotect haccepted
  have hread : sendsData (dataCommand false blocks).word.bits = false := by
    show (_ && !(dataCommand false blocks).word.isRead) = false
    simp [dataCommand_isRead]
  exact issue_unwritten hread

/-- Over every session of a driver that refuses all writes nothing is written to the data port. No
operation but a command of the caller's own starts a command that sends data, least of all one that
writes blocks. -/
theorem protected_unwritten {os : List Operation} (hs : Session config {} os t d) :
    sent t = [] ∧
      ∀ (o : Operation) (t1 : History) (a : o.Answer) (d1 : Driver),
        (∀ command argument timeout, o ≠ .issueCommand command argument timeout) →
        Runs (o.step config) d t1 a d1 →
          (∀ w ∈ commands t1, sendsData w = false) ∧
          Command.writeBlock.word.bits ∉ commands t1 ∧
          Command.writeMultipleBlock.word.bits ∉ commands t1 := by
  constructor
  · have hunsent : KeepsReset fun _ t _ => sent t = [] := keepsReset_unsent
    refine hs.keeps hunsent.toComposes fun o _ => ?_
    refine (hunsent.access config).stepSectors (keepsSectors_unsent hprotect) ?_ ?_ ?_
    · exact fun command argument timeout _ => hunsent.issueCommand _ _ _
    · exact fun _ _ => rfl
    · exact fun _ _ => rfl
  · intro o t1 a d1 hother hrun
    have hwords : Unwritten d t1 d1 := by
      refine (keepsAccess_unwritten config).stepSectors (keepsSectors_unwritten hprotect) ?_ ?_ ?_
        hrun
      · exact fun command argument timeout ho => absurd ho (hother _ _ _)
      · exact fun _ _ => unwritten_of_silent rfl
      · exact fun _ _ => unwritten_of_silent rfl
    refine ⟨hwords, fun hmem => ?_, fun hmem => ?_⟩
    · exact absurd (hwords _ hmem) (by decide)
    · exact absurd (hwords _ hmem) (by decide)

end Protected

/-- Such a driver can read. -/
theorem protected_unwritten_read :
    ∃ t d', Session {} {} [.readWrite .read ⟨0, Array.replicate 512 0⟩ 3 1 0] t d' ∧
      Command.readSingleBlock.word.bits ∈ commands t ∧ sent t = [] ∧
      Command.writeBlock.word.bits ∉ commands t := by
  obtain ⟨t, a, d', hrun, hread⟩ :
      ∃ t a d', Runs ((Operation.readWrite .read ⟨0, Array.replicate 512 0⟩ 3 1 0).step {}) {} t a
        d' ∧ (commands t).contains Command.readSingleBlock.word.bits = true :=
    exists_runs (P := fun t _ _ => (commands t).contains Command.readSingleBlock.word.bits)
      (by decide +kernel : ((Prog.run (promptCard [.ioSetOpCond])
        ((readWrite {} .read ⟨0, Array.replicate 512 0⟩ 3 1 0).run {}) 0).any _) = true)
  have hsession := Session.cons hrun (.nil d')
  rw [List.append_nil] at hsession
  obtain ⟨hunsent, -⟩ := protected_unwritten rfl hsession
  have hempty : Session {} {} [] [] {} := .nil {}
  obtain ⟨-, hwords⟩ := protected_unwritten rfl hempty
  obtain ⟨-, hwrite, -⟩ := hwords _ t a d' nofun hrun
  exact ⟨t, d', hsession, List.contains_iff_mem.mp hread, hunsent, hwrite⟩

end Peripherals.Sd
