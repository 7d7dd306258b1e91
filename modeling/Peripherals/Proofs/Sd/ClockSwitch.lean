import Peripherals.Proofs.Sd.Completion
import Peripherals.Proofs.Sd.Divider

/-! The change of the card clock. The clock is off while its field is replaced, and the rest of the
control register stays as it was read. -/

namespace Peripherals.Sd

open RegisterBlock (read write)

variable {base target field clock control c : UInt32} {d d' : Driver} {t : History}

/-! ### The control register -/

/-- The control register with a value of the clock bit and one of the clock field, and for the rest
as it is in `c`. -/
structure ClockSet (c clock field control : UInt32) : Prop where
  clock_eq : control &&& Control1.cardClock = clock
  field_eq : control &&& Control1.clockField = field
  rest_eq : control &&& ~~~(Control1.cardClock ||| Control1.clockField) =
    c &&& ~~~(Control1.cardClock ||| Control1.clockField)

theorem clockSet_stop (c : UInt32) :
    ClockSet c 0 (c &&& Control1.clockField) (c &&& ~~~Control1.cardClock) where
  clock_eq := by
    rw [UInt32.and_assoc]
    exact UInt32.and_zero
  field_eq := by
    rw [UInt32.and_assoc]
    rfl
  rest_eq := by
    rw [UInt32.and_assoc]
    rfl

/-- A value of the clock field leaves the places of other fields alone. -/
theorem or_field_and {mask : UInt32} (hfield : field &&& Control1.clockField = field)
    (hmask : Control1.clockField &&& mask = 0) :
    ((control &&& ~~~Control1.clockField) ||| field) &&& mask =
      control &&& (~~~Control1.clockField &&& mask) := by
  have hapart : field &&& mask = 0 := by
    rw [← hfield, UInt32.and_assoc, hmask, UInt32.and_zero]
  rw [Word.or_and, hapart, UInt32.or_zero, UInt32.and_assoc]

theorem ClockSet.replace {old : UInt32} (h : ClockSet c clock old control)
    (hfield : field &&& Control1.clockField = field) :
    ClockSet c clock field ((control &&& ~~~Control1.clockField) ||| field) where
  clock_eq := (or_field_and hfield rfl).trans h.clock_eq
  field_eq := by
    rw [Word.or_and, hfield, UInt32.and_assoc]
    exact (congrArg (· ||| field) UInt32.and_zero).trans UInt32.zero_or
  rest_eq := (or_field_and hfield rfl).trans h.rest_eq

theorem ClockSet.start (h : ClockSet c clock field control) :
    ClockSet c Control1.cardClock field (control ||| Control1.cardClock) where
  clock_eq := by
    rw [UInt32.or_comm]
    exact Word.or_and_self _ _
  field_eq := by
    rw [Word.or_and, h.field_eq]
    exact UInt32.or_zero
  rest_eq := by
    rw [Word.or_and, h.rest_eq]
    exact UInt32.or_zero

/-! ### The switch -/

/-- The exchange belongs to a wait for the register. -/
def WaitsFor (r : Register) : Exchange port → Prop
  | readOf r' _ => r' = r
  | ⟨.delay _, _⟩ => True
  | _ => False

/-- The control register is read as `c` and written three times, with time for the clock to settle
after each. -/
def clockWrites (c stopped divided started hz : UInt32) : History :=
  [readOf .control1 c,
    writeOf .control1 stopped, ⟨.delay 2000, ()⟩,
    writeOf .control1 divided, ⟨.delay 2000, ()⟩,
    writeOf .control1 started, ⟨.delay 2000, ()⟩,
    noteOf (.cardClock hz)]

theorem switchClockRate_acts {r : Except Error Unit}
    (h : Acts (switchClockRate base target) d t r d') :
    ∃ field, Divider.field? base target = some field ∧ d' = d ∧
      ∃ waited, (∀ e ∈ waited, WaitsFor .status e) ∧
      (r = .error .inhibitTimeout ∧ t = waited ∧
          (∀ v, readOf .status v ∈ waited →
            hasBits v (Status.commandInhibit ||| Status.dataInhibit) = true) ∨
        r = .ok () ∧ ∃ before v c stopped divided,
          waited = before ++ [readOf .status v] ∧
          hasBits v (Status.commandInhibit ||| Status.dataInhibit) = false ∧
          t = waited ++ clockWrites c stopped divided (divided ||| Control1.cardClock)
            (Divider.rate base field) ∧
          stopped = c &&& ~~~Control1.cardClock ∧
          divided = ((stopped &&& ~~~Control1.clockField) ||| field)) := by
  obtain ⟨field, hfield, h⟩ := acts_orFault_bind.mp h
  refine ⟨field, hfield, ?_⟩
  obtain ⟨waited, _, result, d1, rfl, hw, h1⟩ := waitRegister_succeeds.acts_bind h
  have hwaited := waitRegister_all (P := WaitsFor .status) hw (fun _ => trivial) fun _ => rfl
  obtain ⟨rfl, ⟨⟨e, rfl⟩, hbusy⟩ | ⟨rfl, before, v, rfl, hidle, -⟩⟩ := waitRegister_sees hw
  · obtain ⟨rfl, rfl, rfl⟩ := acts_throw.mp h1
    refine ⟨rfl, waited, hwaited, .inl ⟨rfl, waited.append_nil, fun v hv => ?_⟩⟩
    exact Bool.not_eq_false _ ▸ hbusy v hv
  · obtain ⟨c, t1, rfl, h2⟩ := acts_read_bind.mp h1
    obtain ⟨t2, rfl, h3⟩ := acts_write_bind.mp h2
    obtain ⟨⟨⟩, t3, rfl, h4⟩ := acts_perform_bind.mp h3
    obtain ⟨t4, rfl, h5⟩ := acts_write_bind.mp h4
    obtain ⟨⟨⟩, t5, rfl, h6⟩ := acts_perform_bind.mp h5
    obtain ⟨t6, rfl, h7⟩ := acts_write_bind.mp h6
    obtain ⟨⟨⟩, t7, rfl, h8⟩ := acts_perform_bind.mp h7
    obtain ⟨rfl, rfl, rfl⟩ := acts_report.mp h8
    exact ⟨rfl, _, hwaited, .inr ⟨rfl, before, v, c, _, _, rfl, hidle, rfl, rfl, rfl⟩⟩

/-- The card clock is changed with the clock off. While the lines are busy nothing is written, and
where they stay busy the switch fails. Otherwise the control register is written three times:
without the clock bit, then with the field of the divider in the place of the old one, then with the
clock bit. Each time the rest of it is as it was read, and no other register is written. -/
theorem switchClockRate_gated (hrates : base ≠ 0 ∨ target ≠ 0) : ∃ field,
    Divider.fieldInWords base target = some field ∧ field &&& Control1.clockField = field ∧
    Completes (fun _ => True) (switchClockRate base target) ∧
    ∀ d t r d', Acts (switchClockRate base target) d t r d' → d' = d ∧
      ∃ waited, (∀ e ∈ waited, WaitsFor .status e) ∧
      (r = .error .inhibitTimeout ∧ t = waited ∧
          (∀ v, readOf .status v ∈ waited →
            hasBits v (Status.commandInhibit ||| Status.dataInhibit) = true) ∨
        r = .ok () ∧ ∃ before v c stopped divided started,
          waited = before ++ [readOf .status v] ∧
          hasBits v (Status.commandInhibit ||| Status.dataInhibit) = false ∧
          t = waited ++ clockWrites c stopped divided started (Divider.rate base field) ∧
          stopped = c &&& ~~~Control1.cardClock ∧
          divided = ((stopped &&& ~~~Control1.clockField) ||| field) ∧
          started = divided ||| Control1.cardClock ∧
          ClockSet c 0 (c &&& Control1.clockField) stopped ∧
          ClockSet c 0 field divided ∧
          ClockSet c Control1.cardClock field started) := by
  have hfield : Divider.field? base target = some (Divider.field base target) :=
    Divider.field?_eq_some hrates
  have hwithin := Divider.field_within base target
  have hcompletes : Completes (fun _ => True) (switchClockRate base target) :=
    switchClockRate_completes (fun _ _ => trivial) hrates
  refine ⟨_, (Divider.fieldInWords_eq_field? base target).trans hfield, hwithin, hcompletes,
    fun d t r d' h => ?_⟩
  obtain ⟨field, hchosen, hd, waited, hwaited, hend⟩ := switchClockRate_acts h
  obtain rfl : field = Divider.field base target := Option.some.inj (hchosen.symm.trans hfield)
  obtain hfails | ⟨rfl, before, v, c, _, _, hread, hidle, ht, rfl, rfl⟩ := hend
  · exact ⟨hd, waited, hwaited, .inl hfails⟩
  · have hstopped := clockSet_stop c
    have hdivided := hstopped.replace hwithin
    exact ⟨hd, waited, hwaited, .inr ⟨rfl, before, v, c, _, _, _, hread, hidle, ht, rfl, rfl, rfl,
      hstopped, hdivided, hdivided.start⟩⟩

/-- A target of 25 MHz on a base clock of 250 MHz, with every bit of the control register set. -/
theorem switchClockRate_gated_normal : ∃ stopped divided started,
    Acts (switchClockRate 250000000 Divider.normalHz) {} ([⟨.delay 1, ()⟩, readOf .status 0] ++
        clockWrites 0xFFFFFFFF stopped divided started 15625000) (.ok ()) {} ∧
      ClockSet 0xFFFFFFFF 0 0x800 divided ∧
      ClockSet 0xFFFFFFFF Control1.cardClock 0x800 started := by
  have hacts : Acts (switchClockRate 250000000 Divider.normalHz) {}
      ([⟨.delay 1, ()⟩, readOf .status 0] ++
        clockWrites 0xFFFFFFFF 0xFFFFFFFB 0xFFFF081B 0xFFFF081F 15625000) (.ok ()) {} :=
    .op (.op (.op (.op (.op (.op (.op (.op (.op (.op (.pure _))))))))))
  obtain ⟨field, hfield, -, -, hevery⟩ :=
    @switchClockRate_gated 250000000 Divider.normalHz (.inl (by decide))
  obtain rfl : field = 0x800 := Option.some.inj (hfield.symm.trans (by decide +kernel))
  obtain ⟨-, waited, -, ⟨hfails, -⟩ | ⟨-, before, v, c, stopped, divided, started, -, -, ht, -, -,
    -, -, hdivided, hstarted⟩⟩ := hevery _ _ _ _ hacts
  · nomatch hfails
  · obtain ⟨-, hwrites⟩ := List.append_inj' ht rfl
    cases hwrites
    exact ⟨_, _, _, hacts, hdivided, hstarted⟩

end Peripherals.Sd
