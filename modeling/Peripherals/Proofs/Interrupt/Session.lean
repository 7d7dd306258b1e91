import Peripherals.Proofs.Interrupt.Table

/-! Sessions of a dispatcher. From the start on the lines that are unmasked are those that have a
handler, among the lines that can be masked at all, and the handler of a line is the one that it was
last connected to. -/

namespace Peripherals.Interrupt

variable {φ H : Type}

/-- What can be asked of a dispatcher. -/
inductive Call (H : Type) where
  | connect (line : Nat) (handler : Option H)
  | dispatch
  deriving Repr

namespace Dispatcher

/-- Carries out a call. The result is the table as it is afterwards. -/
def call (d : Dispatcher H) : Call H → Prog (dispatchPort H) (Dispatcher H)
  | .connect line handler => do
    let (_, d) ← d.connect line handler
    pure d
  | .dispatch => do
    let _ ← d.dispatch
    pure d

def session (d : Dispatcher H) : List (Call H) → Prog (dispatchPort H) (Dispatcher H)
  | [] => pure d
  | call :: rest => do
    let d ← d.call call
    d.session rest

end Dispatcher

/-- Masks every line and carries out `calls` on a new table of `size` lines. -/
def Controller.session (c : Controller) (size : Nat) (calls : List (Call H)) :
    Prog (dispatchPort H) (Dispatcher H) := do
  Dispatcher.request .init
  (Dispatcher.empty c.layout size).session calls

/-- The handler that calls leave for a line, where `last` is the one before them. -/
def lastHandler (line : Nat) (last : Option H) : (calls : List (Call H)) → Option H
  | [] => last
  | .connect other handler :: calls =>
    lastHandler line (if line = other then handler else last) calls
  | .dispatch :: calls => lastHandler line last calls

/-- The machine as a dispatcher over the controller meets it. -/
def Machine.dispatching (M : Machine φ H) (c : Controller) : Device (dispatchPort H) (State φ) :=
  c.serving M.registers fun h s => { s with own := M.handle h s }

/-- The masks follow the table: of the lines that can be masked, those with a handler are unmasked
and the others are masked. -/
structure Follows (c : Controller) (d : Dispatcher H) (s : State φ) : Prop where
  layout : d.layout = c.layout
  unmasked : ∀ line, (c.maskBit? line).isSome → c.unmasked s.masks line = d.isConnected line

/-- The table `d'` is what calls make of `d`, in the lines of the controller. -/
structure Updated (d d' : Dispatcher H) (calls : List (Call H)) : Prop where
  layout : d'.layout = d.layout
  size : d'.handlers.size = d.handlers.size
  handler : ∀ line, line < d.layout.lineCount →
    d'.handler? line =
      if line < d.handlers.size then lastHandler line (d.handler? line) calls else none

section Updates

variable {d d' d'' : Dispatcher H} {line : Nat} {handler : Option H} {calls : List (Call H)}

theorem updated_self (h : ∀ line, line < d.layout.lineCount → line < d.handlers.size →
    lastHandler line (d.handler? line) calls = d.handler? line) : Updated d d calls where
  layout := rfl
  size := rfl
  handler line hcount := by
    split
    case isTrue hsize => exact (h line hcount hsize).symm
    case isFalse hsize => exact Dispatcher.handler?_eq_none (Nat.le_of_not_lt hsize)

theorem updated_enter (hsize : line < d.handlers.size) :
    Updated d (d.enter line handler) [.connect line handler] where
  layout := rfl
  size := Array.size_setIfInBounds
  handler other _ := by
    rw [Dispatcher.handler?_enter hsize, lastHandler, lastHandler]
    split
    case isTrue hsame => rw [if_pos (hsame ▸ hsize)]
    case isFalse =>
      split
      case isTrue => rfl
      case isFalse hout => exact Dispatcher.handler?_eq_none (Nat.le_of_not_lt hout)

theorem Updated.cons {call : Call H} (h : Updated d d' [call]) (hrest : Updated d' d'' calls) :
    Updated d d'' (call :: calls) where
  layout := hrest.layout.trans h.layout
  size := hrest.size.trans h.size
  handler line hcount := by
    rw [hrest.handler line (h.layout ▸ hcount), h.size, h.handler line hcount]
    split
    case isTrue => cases call <;> rfl
    case isFalse => rfl

end Updates

section Steps

variable {M : Machine φ H} {c : Controller} {d : Dispatcher H} {s s' : State φ}

theorem Follows.of_masks (h : Follows c d s) (hmasks : s'.masks = s.masks) : Follows c d s' where
  layout := h.layout
  unmasked line hline := by rw [hmasks, h.unmasked line hline]

theorem connect_follows (h : Follows c d s) (line : Nat) (handler : Option H) :
    (d.connect line handler).Reaches (M.dispatching c) s fun r s' =>
      Follows c r.2 s' ∧ Updated d r.2 [.connect line handler] := by
  by_cases hout : d.handlers.size ≤ line ∨ d.layout.lineCount ≤ line
  case pos =>
    rw [Dispatcher.connect_out_of_range hout]
    refine .pure ⟨h, updated_self fun other hcount hsize => ?_⟩
    exact if_neg (by omega)
  obtain ⟨hsize, hcount⟩ : line < d.handlers.size ∧ line < d.layout.lineCount := by omega
  obtain ⟨answer, s', hrun, hmasks⟩ := c.setLine_reaches (M := M) (s := s) line handler.isSome
  refine ⟨(answer.map fun () => d.handler? line, d.enter line handler), s', ?_,
    ⟨h.layout, fun other hother => ?_⟩, updated_enter hsize⟩
  · rw [Machine.dispatching, Dispatcher.run_connect hsize hcount, hrun]
    rfl
  · rw [hmasks other hother, Dispatcher.isConnected_enter hsize, h.unmasked other hother]

theorem disable_follows (h : Follows c d s) {line : Nat} (hnone : d.isConnected line = false) :
    (Dispatcher.request (.disable line)).Reaches (M.dispatching c) s fun _ s' =>
      Follows c d s' := by
  obtain ⟨answer, s', hrun, hmasks⟩ := c.setLine_reaches (M := M) (s := s) line false
  refine .request hrun ⟨h.layout, fun other hother => ?_⟩
  rw [hmasks other hother, h.unmasked other hother]
  split
  case isTrue hsame => rw [hsame, hnone]
  case isFalse => rfl

theorem pending_follows (h : Follows c d s) (bank : Nat) :
    (Dispatcher.request (.pending bank)).Reaches (M.dispatching c) s fun _ s' =>
      Follows c d s' := by
  obtain ⟨word, s', hrun, hmasks⟩ := c.pending_reaches (M := M) (s := s) bank
  exact .request hrun (h.of_masks hmasks)

theorem note_follows (h : Follows c d s) (n : DispatchNote) :
    (Dispatcher.request (.note n)).Reaches (M.dispatching c) s fun _ s' => Follows c d s' :=
  .request rfl h

theorem handle_follows (h : Follows c d s) (handler : H) :
    (Dispatcher.request (.handle handler)).Reaches (M.dispatching c) s fun _ s' =>
      Follows c d s' :=
  .request rfl (h.of_masks rfl)

theorem sample_follows (h : Follows c d s) (banks : List Nat) :
    (Dispatcher.sample d.layout banks : Prog (dispatchPort H) _).Reaches (M.dispatching c) s
      fun _ s' => Follows c d s' := by
  induction banks generalizing s with
  | nil => exact .pure h
  | cons bank banks ih =>
    exact (pending_follows h bank).bind fun _ _ h1 => (ih h1).bind fun _ _ h2 => .pure h2

theorem serve_follows (h : Follows c d s) (lines : List Nat) :
    (d.serve lines).Reaches (M.dispatching c) s fun _ s' => Follows c d s' := by
  induction lines generalizing s with
  | nil => exact .pure h
  | cons line lines ih =>
    -- The lines behind the first one with a handler are not looked at.
    rw [Dispatcher.serve]
    split
    case h_1 handler hline =>
      exact (handle_follows h handler).bind fun _ _ h1 => .pure h1
    case h_2 hline =>
      have hnone : d.isConnected line = false := by rw [Dispatcher.isConnected, hline]; rfl
      refine (note_follows h _).bind fun _ s1 h1 =>
        (disable_follows h1 hnone).bind fun answer s2 h2 => ?_
      cases answer with
      | ok => exact ih h2
      | error e => exact (note_follows h2 _).bind fun _ _ h3 => ih h3

theorem dispatch_follows (h : Follows c d s) :
    d.dispatch.Reaches (M.dispatching c) s fun _ s' => Follows c d s' :=
  (sample_follows h _).bind fun _ _ h1 => serve_follows h1 _

theorem call_follows (h : Follows c d s) (call : Call H) :
    (d.call call).Reaches (M.dispatching c) s fun d' s' =>
      Follows c d' s' ∧ Updated d d' [call] := by
  cases call with
  | connect line handler => exact (connect_follows h line handler).bind fun _ _ h1 => .pure h1
  | dispatch =>
    exact (dispatch_follows h).bind fun _ _ h1 => .pure ⟨h1, updated_self fun _ _ _ => rfl⟩

theorem session_follows (h : Follows c d s) (calls : List (Call H)) :
    (d.session calls).Reaches (M.dispatching c) s fun d' s' =>
      Follows c d' s' ∧ Updated d d' calls := by
  induction calls generalizing d s with
  | nil => exact .pure ⟨h, updated_self fun _ _ _ => rfl⟩
  | cons call calls ih =>
    refine (call_follows h call).bind fun d1 s1 ⟨h1, hcall⟩ => ?_
    obtain ⟨d2, s2, hrun, h2, hrest⟩ := ih h1
    exact ⟨d2, s2, hrun, h2, hcall.cons hrest⟩

theorem init_follows (c : Controller) (size : Nat) (s : State φ) :
    (Dispatcher.request .init).Reaches (M.dispatching c) s fun _ s' =>
      Follows c (Dispatcher.empty c.layout size : Dispatcher H) s' := by
  obtain ⟨⟨⟩, s', hrun, hmasks⟩ := c.init_reaches (M := M) (s := s)
  refine .request hrun ⟨rfl, fun line _ => ?_⟩
  rw [hmasks line, Dispatcher.isConnected_empty]

/-- On every machine a session comes to its end, and then a line that can be masked is unmasked
exactly where it has a handler, which is the one of the last call that connects it. Masking or
unmasking a line changes no other. -/
theorem masks_follow_handlers (M : Machine φ H) (c : Controller) :
    (∀ (size : Nat) (calls : List (Call H)) (s : State φ), ∃ d s',
      (c.session size calls).run (M.dispatching c) s = some (d, s') ∧
      ∀ line, line < 72 ∨ c.hasCore ∧ line < 80 →
        c.unmasked s'.masks line = d.isConnected line ∧
        d.handler? line = if line < size then lastHandler line none calls else none) ∧
    ∀ (line : Nat) (enable : Bool) (s : State φ), ∃ answer s',
      (c.setLine line enable).run M.registers s = some (answer, s') ∧
      ∀ other ≠ line, other < 72 ∨ c.hasCore ∧ other < 80 →
        c.unmasked s'.masks other = c.unmasked s.masks other := by
  constructor
  · intro size calls s
    obtain ⟨d, s', hrun, hfollows, hupdated⟩ : (c.session size calls).Reaches (M.dispatching c) s
        fun d s' => Follows c d s' ∧ Updated (Dispatcher.empty c.layout size) d calls :=
      (init_follows c size s).bind fun _ _ h => session_follows h calls
    refine ⟨d, s', hrun, fun line hline => ?_⟩
    have hbit := Controller.maskBit?_isSome.mpr hline
    obtain ⟨p, hp⟩ := Option.isSome_iff_exists.mp hbit
    refine ⟨hfollows.unmasked line hbit, ?_⟩
    rw [hupdated.handler line (Controller.lt_lineCount_of_maskBit? hp),
      Dispatcher.handler?_empty, Dispatcher.size_empty]
  · intro line enable s
    obtain ⟨answer, s', hrun, hmasks⟩ := c.setLine_reaches (M := M) (s := s) line enable
    refine ⟨answer, s', hrun, fun other hother hline => ?_⟩
    rw [hmasks other (Controller.maskBit?_isSome.mpr hline), if_neg hother]

/-- Two lines of the core block are connected and one of them is found pending without a handler
once it is disconnected. -/
example : ((Controller.session ⟨true⟩ 84
      [.connect 73 (some ()), .connect 78 (some ()), .connect 73 none, .dispatch]).run
    (Machine.dispatching ⟨fun _ _ => (0x2, ()), fun _ _ _ => (), fun _ _ => ()⟩ ⟨true⟩)
    ⟨fun _ => 0xFFFFFFFF, ()⟩).map (fun r => (r.2.masks .timers, r.2.masks .mailboxes)) =
      some (0, 4) := by
  decide +kernel

end Steps

end Peripherals.Interrupt
