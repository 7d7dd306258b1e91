import Peripherals.Proofs.Interrupt.Masks

/-! The handler table over a controller. A new entry is made before the controller is asked to mask
or unmask the line, so it stays where the controller refuses. -/

namespace Peripherals.Interrupt

variable {σ H : Type}

/-- The controller as a dispatcher meets it, over registers that answer as `device` does, where
`handle` is what the handlers do. -/
def Controller.serving (c : Controller) (device : Device controllerPort σ) (handle : H → σ → σ) :
    Device (dispatchPort H) σ :=
  c.answer (m := StateT σ Option) (fun p s => p.run device s) (fun h s => some ((), handle h s))
    fun _ s => some ((), s)

namespace Dispatcher

/-- The table with a new entry for a line. -/
def enter (d : Dispatcher H) (line : Nat) (handler : Option H) : Dispatcher H :=
  { d with handlers := d.handlers.setIfInBounds line handler }

variable {c : Controller} {d d' : Dispatcher H} {device : Device controllerPort σ}
  {handle : H → σ → σ} {line : Nat} {handler : Option H} {e : DeviceError} {s s' : σ}

theorem handler?_eq_none (h : d.handlers.size ≤ line) : d.handler? line = none := by
  rw [handler?, Array.getElem?_eq_none h]
  rfl

theorem handler?_enter (hsize : line < d.handlers.size) (other : Nat) :
    (d.enter line handler).handler? other = if other = line then handler else d.handler? other := by
  by_cases hsame : other = line
  · subst hsame
    simp [handler?, enter, hsize]
  · rw [if_neg hsame, handler?, enter, Array.getElem?_setIfInBounds_ne (Ne.symm hsame), handler?]

theorem isConnected_enter (hsize : line < d.handlers.size) (other : Nat) :
    (d.enter line handler).isConnected other =
      if other = line then handler.isSome else d.isConnected other := by
  rw [isConnected, handler?_enter hsize, apply_ite Option.isSome, isConnected]

theorem size_empty (layout : BankLayout) (size : Nat) :
    (empty layout size : Dispatcher H).handlers.size = size := Array.size_replicate

theorem handler?_empty (layout : BankLayout) (size line : Nat) :
    (empty layout size : Dispatcher H).handler? line = none := by
  rw [handler?, empty, Array.getElem?_replicate]
  split
  all_goals rfl

theorem isConnected_empty (layout : BankLayout) (size line : Nat) :
    (empty layout size : Dispatcher H).isConnected line = false := by
  rw [isConnected, handler?_empty, Option.isSome_none]

/-- A line past the end of the table or of the controller is refused before the table or the
controller is touched. -/
theorem connect_out_of_range (hout : d.handlers.size ≤ line ∨ d.layout.lineCount ≤ line) :
    d.connect line handler = .pure (.error .invalidParameter, d) := by
  rw [connect, if_pos hout]
  rfl

/-- Any other line gets its entry, whatever the controller answers. -/
theorem run_connect (hsize : line < d.handlers.size) (hcount : line < d.layout.lineCount) :
    (d.connect line handler).run (c.serving device handle) s =
      ((c.setLine line handler.isSome).run device s).map fun (answer, s') =>
        ((answer.map fun () => d.handler? line, d.enter line handler), s') := by
  rw [connect, if_neg (by omega)]
  have henable : (request (.enable line)).run (c.serving device handle) s =
    (c.setLine line true).run device s := Prog.run_request ..
  have hdisable : (request (.disable line)).run (c.serving device handle) s =
    (c.setLine line false).run device s := Prog.run_request ..
  cases handler with
  | none =>
    simp only [Option.isSome_none, Bool.false_eq_true, if_false, Prog.run_bind, hdisable]
    rcases (c.setLine line false).run device s with _ | ⟨_ | _, _⟩
    all_goals rfl
  | some h =>
    simp only [Option.isSome_some, if_true, Prog.run_bind, henable]
    rcases (c.setLine line true).run device s with _ | ⟨_ | _, _⟩
    all_goals rfl

theorem run_connect_refused (hsize : line < d.handlers.size) (hlayout : d.layout = c.layout)
    (hcore : c.hasCore ∧ 80 ≤ line ∧ line < 84) :
    (d.connect line handler).run (c.serving device handle) s =
      some ((.error .notSupported, d.enter line handler), s) := by
  obtain ⟨hunmaskable, hcount⟩ := Controller.unmaskable_iff.mpr hcore
  rw [run_connect hsize (hlayout ▸ hcount), Controller.setLine_eq_error hunmaskable, if_pos hcount]
  rfl

theorem connect_ok_of_maskBit? (hsize : line < d.handlers.size) (hlayout : d.layout = c.layout)
    {w : MaskWord} {bit : Nat} (hbit : c.maskBit? line = some (w, bit)) :
    (d.connect line handler).run (c.serving device handle) s ≠ some ((.error e, d'), s') := by
  have hcount : line < c.layout.lineCount := Controller.lt_lineCount_of_maskBit? hbit
  rw [run_connect hsize (hlayout ▸ hcount), Controller.setLine_eq_change hbit, Prog.run_bind]
  cases (Controller.change bit handler.isSome w).run device s with
  | none => exact nofun
  | some r => exact nofun

theorem handlers_kept_iff (hsize : line < d.handlers.size) :
    (∀ other, (d.enter line handler).handler? other = d.handler? other) ↔
      d.handler? line = handler := by
  constructor
  · intro h
    have hline := h line
    rw [handler?_enter hsize, if_pos rfl] at hline
    exact hline.symm
  · rintro rfl other
    rw [handler?_enter hsize]
    split
    case isTrue hsame => rw [hsame]
    case isFalse => rfl

/-- Connecting fails for the lines that are out of range and for those that the controller cannot
mask, and no register is accessed where it fails. A line out of range leaves the table as it was, a
refused line has its new entry. -/
theorem connect_error (hlayout : d.layout = c.layout) (device : Device controllerPort σ)
    (handle : H → σ → σ) (line : Nat) (handler : Option H) (s : σ) :
    ((∃ e d' s', (d.connect line handler).run (c.serving device handle) s =
        some ((.error e, d'), s')) ↔
      d.handlers.size ≤ line ∨ c.layout.lineCount ≤ line ∨ c.hasCore ∧ 80 ≤ line ∧ line < 84) ∧
    ∀ e d' s', (d.connect line handler).run (c.serving device handle) s =
        some ((.error e, d'), s') →
      s' = s ∧
      (e = .invalidParameter ∧ (d.handlers.size ≤ line ∨ c.layout.lineCount ≤ line) ∧ d' = d ∨
        e = .notSupported ∧ line < d.handlers.size ∧ c.hasCore ∧ 80 ≤ line ∧ line < 84 ∧
        d' = d.enter line handler) ∧
      ((∀ other, d'.handler? other = d.handler? other) ↔
        e = .invalidParameter ∨ d.handler? line = handler) := by
  -- A line is out of range, or one that the controller cannot mask, or one that it can.
  by_cases hout : d.handlers.size ≤ line ∨ c.layout.lineCount ≤ line
  case pos =>
    rw [connect_out_of_range (hlayout ▸ hout)]
    refine ⟨⟨fun _ => or_assoc.mp (.inl hout), fun _ => ⟨_, _, _, rfl⟩⟩, ?_⟩
    rintro _ _ _ ⟨⟩
    exact ⟨rfl, .inl ⟨rfl, hout, rfl⟩, by simp⟩
  obtain ⟨hsize, hcount⟩ : line < d.handlers.size ∧ line < c.layout.lineCount := by omega
  cases hbit : c.maskBit? line with
  | none =>
    have hcore := Controller.unmaskable_iff.mp ⟨hbit, hcount⟩
    rw [run_connect_refused hsize hlayout hcore]
    refine ⟨⟨fun _ => .inr (.inr hcore), fun _ => ⟨_, _, _, rfl⟩⟩, ?_⟩
    rintro _ _ _ ⟨⟩
    refine ⟨rfl, .inr ⟨rfl, hsize, hcore.1, hcore.2.1, hcore.2.2, rfl⟩, ?_⟩
    simpa using handlers_kept_iff hsize
  | some p =>
    have hok : ∀ e d' s', (d.connect line handler).run (c.serving device handle) s ≠
      some ((.error e, d'), s') := fun _ _ _ => connect_ok_of_maskBit? hsize hlayout hbit
    refine ⟨⟨fun ⟨_, _, _, h⟩ => absurd h (hok _ _ _), fun hfails => ?_⟩,
      fun _ _ _ h => absurd h (hok _ _ _)⟩
    have hcore := (hfails.resolve_left (by omega)).resolve_left (by omega)
    rw [(Controller.unmaskable_iff.mpr hcore).1] at hbit
    nomatch hbit

/-- Registers that read as zero. -/
def idle : Device controllerPort Unit
  | .read _, _ => some (0, ())
  | .write _ _, _ | .note _, _ => some ((), ())

/-- A new table, with a handler for a line of the core block that cannot be masked. -/
theorem connect_error_core : ∃ d' : Dispatcher Nat,
    ((empty coreLayout 84).connect 80 (some 1)).run
        (Controller.serving ⟨true⟩ idle fun _ => id) () =
          some ((.error .notSupported, d'), ()) ∧
      d'.handler? 80 = some 1 ∧ ∀ other ≠ 80, d'.isConnected other = false := by
  obtain ⟨hfails, hleft⟩ := connect_error (c := ⟨true⟩) (d := empty coreLayout 84) rfl idle
    (fun _ => id) 80 (some 1) ()
  obtain ⟨e, d', s', h⟩ := hfails.mpr (.inr (.inr ⟨rfl, by decide, by decide⟩))
  obtain ⟨-, ⟨-, hout, -⟩ | ⟨rfl, hsize, -, -, -, rfl⟩, -⟩ := hleft e d' s' h
  · exact absurd hout (by decide)
  refine ⟨_, h, (handler?_enter hsize 80).trans (if_pos rfl), fun other hother => ?_⟩
  rw [isConnected_enter hsize, if_neg hother, isConnected_empty]

/-- A handler that is refused is registered all the same. -/
theorem connect_keeps_refused :
    ¬ ∀ (c : Controller) (d d' : Dispatcher Nat) (device : Device controllerPort Unit)
      (handle : Nat → Unit → Unit) (line : Nat) (handler : Option Nat) (e : DeviceError)
      (s s' : Unit), d.layout = c.layout →
      (d.connect line handler).run (c.serving device handle) s = some ((.error e, d'), s') →
      s' = s ∧ d'.handlers = d.handlers ∧ ∀ other, d'.isConnected other = d.isConnected other := by
  intro hkept
  have hrun : ((empty coreLayout 84).connect 80 (some 1)).run
      (Controller.serving ⟨true⟩ idle fun _ => id) () =
        some ((.error .notSupported, (empty coreLayout 84).enter 80 (some 1)), ()) :=
    run_connect_refused (by decide) rfl (by decide)
  have hconnected := (hkept _ _ _ _ _ _ _ _ _ _ rfl hrun).2.2 80
  rw [isConnected_enter (by decide)] at hconnected
  nomatch hconnected

end Dispatcher

end Peripherals.Interrupt
