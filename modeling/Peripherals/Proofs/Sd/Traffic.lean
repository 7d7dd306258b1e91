import Peripherals.Proofs.Sd.Quiet

/-! The traffic of a history: the commands that were started and the words that went through the
data port. Quiet requests are no traffic. -/

namespace Peripherals.Sd

/-- One thing that the driver does to the card. -/
inductive Traffic where
  /-- A command was started by this word. -/
  | command (word : UInt32)
  /-- This word was read from the data port. -/
  | received (word : UInt32)
  /-- This word was written to the data port. -/
  | sent (word : UInt32)
  deriving DecidableEq, Repr

/-- The traffic of a history, in order. -/
def traffic (t : History) : List Traffic :=
  t.filterMap fun
    | writeOf .command w => some (.command w)
    | readOf .data v => some (.received v)
    | writeOf .data v => some (.sent v)
    | _ => none

/-- The word that started a command. -/
def Traffic.command? : Traffic → Option UInt32
  | .command w => some w
  | _ => none

/-- The word that was sent. -/
def Traffic.sent? : Traffic → Option UInt32
  | .sent v => some v
  | _ => none

/-- The words that started the commands of a history. -/
def commands (t : History) : List UInt32 := (traffic t).filterMap Traffic.command?

/-- The words that a history sends through the data port. -/
def sent (t : History) : List UInt32 := (traffic t).filterMap Traffic.sent?

/-- The words that are sent before the first command. -/
def sentFirst : List Traffic → List UInt32
  | [] | .command _ :: _ => []
  | .received _ :: l => sentFirst l
  | .sent v :: l => v :: sentFirst l

/-- The commands, each with the words that are sent before the next. -/
def attempts : List Traffic → List (UInt32 × List UInt32)
  | [] => []
  | .command w :: l => (w, sentFirst l) :: attempts l
  | .received _ :: l | .sent _ :: l => attempts l

section Traffic

variable {t t' : History} {l l' : List Traffic}

@[simp] theorem traffic_nil : traffic [] = [] := rfl

@[simp] theorem traffic_command {w : UInt32} :
    traffic (writeOf .command w :: t) = .command w :: traffic t := rfl

@[simp] theorem traffic_received {v : UInt32} :
    traffic (readOf .data v :: t) = .received v :: traffic t := rfl

@[simp] theorem traffic_sent {v : UInt32} :
    traffic (writeOf .data v :: t) = .sent v :: traffic t := rfl

@[simp] theorem traffic_sampled {v : UInt32} :
    traffic (readOf .interrupt v :: t) = traffic t := rfl

@[simp] theorem traffic_cleared {v : UInt32} :
    traffic (writeOf .interrupt v :: t) = traffic t := rfl

@[simp] theorem traffic_answered {v : UInt32} :
    traffic (readOf .response0 v :: t) = traffic t := rfl

@[simp] theorem traffic_append : traffic (t ++ t') = traffic t ++ traffic t' :=
  List.filterMap_append

@[simp] theorem commands_command {w : UInt32} :
    commands (writeOf .command w :: t) = w :: commands t := rfl

@[simp] theorem commands_sampled {v : UInt32} :
    commands (readOf .interrupt v :: t) = commands t := rfl

@[simp] theorem commands_append : commands (t ++ t') = commands t ++ commands t' := by
  simp [commands]

theorem commands_ne_nil_left (h : commands t ≠ []) : commands (t ++ t') ≠ [] := by
  rw [commands_append]
  exact List.append_ne_nil_of_left_ne_nil h _

theorem commands_ne_nil_right (h : commands t' ≠ []) : commands (t ++ t') ≠ [] := by
  rw [commands_append]
  exact List.append_ne_nil_of_right_ne_nil _ h

@[simp] theorem sent_append : sent (t ++ t') = sent t ++ sent t' := by
  simp [sent]

theorem sent_of_still (h : traffic t = []) : sent t = [] := by
  rw [sent, h]
  rfl

theorem traffic_quiet {e : Exchange port} (h : Quiet e) : traffic [e] = [] := by
  obtain ⟨r | ⟨r, v⟩ | _ | _ | _ | _, _⟩ := e
  case read | write => cases r <;> first | rfl | exact h.elim
  all_goals rfl

theorem traffic_of_notes (h : ∀ e ∈ t, ∃ n, e = noteOf n) : traffic t = [] := by
  induction t with
  | nil => rfl
  | cons e t ih =>
    rw [List.forall_mem_cons] at h
    obtain ⟨⟨n, rfl⟩, h⟩ := h
    exact ih h

theorem commands_of_still (h : traffic t = []) : commands t = [] := by
  rw [commands, h]
  rfl

theorem sentFirst_append (h : sentFirst l' = []) : sentFirst (l ++ l') = sentFirst l := by
  induction l with
  | nil => exact h
  | cons a l ih => cases a <;> simp [sentFirst, ih]

/-- Where nothing is sent before the first command of the second part, each attempt lies in one
part. -/
theorem attempts_append (h : sentFirst l' = []) :
    attempts (l ++ l') = attempts l ++ attempts l' := by
  induction l with
  | nil => rfl
  | cons a l ih => cases a <;> simp [attempts, sentFirst_append h, ih]

theorem sentFirst_eq_nil (h : l.filterMap Traffic.sent? = []) : sentFirst l = [] := by
  induction l with
  | nil => rfl
  | cons a l ih =>
    cases a with
    | command w => rfl
    | received v => exact ih (by simpa [Traffic.sent?] using h)
    | sent v => simp [Traffic.sent?] at h

theorem attempts_of_none_sent (h : l.filterMap Traffic.sent? = []) :
    ∀ a ∈ attempts l, a.2 = [] := by
  induction l with
  | nil => exact fun _ ha => nomatch ha
  | cons a l ih =>
    cases a with
    | command w =>
      have hl : l.filterMap Traffic.sent? = [] := by simpa [Traffic.sent?] using h
      intro a ha
      rcases List.mem_cons.mp ha with rfl | ha
      · exact sentFirst_eq_nil hl
      · exact ih hl a ha
    | received v => exact ih (by simpa [Traffic.sent?] using h)
    | sent v => simp [Traffic.sent?] at h

theorem sentFirst_map_sent (ws : List UInt32) : sentFirst (ws.map .sent) = ws := by
  induction ws with
  | nil => rfl
  | cons w ws ih => simp [sentFirst, ih]

theorem attempts_map_sent (ws : List UInt32) : attempts (ws.map .sent) = [] := by
  induction ws with
  | nil => rfl
  | cons w ws ih => simpa [attempts] using ih

end Traffic

theorem keepsQuiet_still : KeepsQuiet fun d t d' => d' = d ∧ traffic t = [] where
  refl _ := ⟨rfl, rfl⟩
  trans h1 h2 := ⟨h2.1.trans h1.1, by simp [h1.2, h2.2]⟩
  quiet _ _ h := ⟨rfl, traffic_quiet h⟩

end Peripherals.Sd
