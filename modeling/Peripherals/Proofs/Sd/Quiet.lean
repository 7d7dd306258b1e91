import Peripherals.Proofs.Sd.Keeps
import Peripherals.Sd.Enumeration

/-! Quiet requests: those that start no command, move no data, and neither acknowledge nor report
the removal of a card. Most steps of the driver make no others. -/

namespace Peripherals.Sd

open RegisterBlock (read write)

/-- The event is quiet. -/
def Quiet : Exchange port → Prop
  | readOf .data _ | writeOf .data _ | writeOf .command _ => False
  | writeOf .interrupt v => hasBits v Interrupt.cardRemoval = false
  | noteOf .removed => False
  | _ => True

theorem Composes.waitRegister {R : Driver → History → Driver → Prop} (h : Composes R)
    {r : Register} (hdelay : ∀ d us, R d [⟨.delay us, ()⟩] d) (hread : ∀ d v, R d [readOf r v] d)
    (mask : UInt32) (set : Bool) (timeout : UInt32) :
    Keeps R (Sd.waitRegister r mask set timeout).run := by
  unfold Sd.waitRegister Clock.waitFor
  generalize timeout.toNat / 1000 + 1 = rounds
  induction rounds with
  | zero => exact h.pure _
  | succ rounds ih =>
    refine h.bind (.perform fun d _ => hdelay d _) fun _ => ?_
    refine h.bind (h.bind (.perform hread) fun v => h.pure _) fun found => ?_
    refine .ite (h.pure _) ?_
    exact h.bind (.perform fun d _ => hdelay d _) fun _ => ih

/-- A wait for a register reads it and lets time pass, and does nothing else. -/
theorem waitRegister_all {P : Exchange port → Prop} {r : Register} {mask timeout : UInt32}
    {set : Bool} {d d' : Driver} {t : History} {result : Except Error (Except DeviceError Unit)}
    (h : Acts (waitRegister r mask set timeout) d t result d')
    (hdelay : ∀ us, P ⟨.delay us, ()⟩) (hread : ∀ v, P (readOf r v)) : ∀ e ∈ t, P e :=
  ((composes_all P).waitRegister (fun _ us => List.forall_mem_singleton.mpr (hdelay us))
    (fun _ v => List.forall_mem_singleton.mpr (hread v)) mask set timeout).acts h

/-- A relation that composes and that quiet requests keep, with the driver as it was. -/
structure KeepsQuiet (R : Driver → History → Driver → Prop) : Prop extends Composes R where
  quiet (d : Driver) {e : Exchange port} : Quiet e → R d [e] d

namespace KeepsQuiet

variable {R : Driver → History → Driver → Prop}

theorem quietAll (h : KeepsQuiet R) (d : Driver) {t : History} (ht : ∀ e ∈ t, Quiet e) :
    R d t d := by
  induction t with
  | nil => exact h.refl d
  | cons e t ih =>
    rw [List.forall_mem_cons] at ht
    exact h.trans (h.quiet d ht.1) (ih ht.2)

theorem perform (h : KeepsQuiet R) {o : Op} (ho : ∀ v, Quiet ⟨o, v⟩) :
    Keeps R (Sd.perform o).run :=
  .perform fun d v => h.quiet d (ho v)

theorem read (h : KeepsQuiet R) {r : Register} (hr : ∀ v, Quiet (readOf r v)) :
    Keeps R (RegisterBlock.read r : Action UInt32).run :=
  h.perform hr

theorem write (h : KeepsQuiet R) {r : Register} {v : UInt32} (hr : Quiet (writeOf r v)) :
    Keeps R (RegisterBlock.write r v : Action Unit).run :=
  h.perform fun _ => hr

theorem report (h : KeepsQuiet R) {n : Note} (hn : Quiet (noteOf n)) :
    Keeps R (Sd.report n).run :=
  h.perform (o := .note n) fun _ => hn

theorem delay (h : KeepsQuiet R) (us : UInt32) : Keeps R (Sd.delay us).run :=
  h.perform fun _ => trivial

theorem setBits (h : KeepsQuiet R) {r : Register} {bits : UInt32}
    (hr : ∀ v, Quiet (readOf r v)) (hw : ∀ v, Quiet (writeOf r v)) :
    Keeps R (RegisterBlock.setBits r bits : Action Unit).run :=
  h.bind (h.read hr) fun _ => h.write (hw _)

theorem clearBits (h : KeepsQuiet R) {r : Register} {bits : UInt32}
    (hr : ∀ v, Quiet (readOf r v)) (hw : ∀ v, Quiet (writeOf r v)) :
    Keeps R (RegisterBlock.clearBits r bits : Action Unit).run :=
  h.bind (h.read hr) fun _ => h.write (hw _)

theorem waitRegister (h : KeepsQuiet R) (r : Register) (hr : ∀ v, Quiet (readOf r v))
    (mask : UInt32) (set : Bool) (timeout : UInt32) :
    Keeps R (Sd.waitRegister r mask set timeout).run :=
  h.toComposes.waitRegister (fun d _ => h.quiet d trivial) (fun d v => h.quiet d (hr v)) mask set
    timeout

theorem resetLine (h : KeepsQuiet R) (reset : UInt32) : Keeps R (Sd.resetLine reset).run := by
  refine h.bind (h.setBits (fun _ => trivial) fun _ => trivial) fun _ => ?_
  refine h.bind (h.waitRegister .control1 (fun _ => trivial) _ _ _) fun result => ?_
  cases result with
  | ok => exact h.pure ()
  | error => exact h.bind (h.report trivial) fun _ => h.throw _

theorem powerOn (h : KeepsQuiet R) : Keeps R Sd.powerOn.run := by
  refine h.bind (h.perform fun _ => trivial) fun answer => ?_
  cases answer with
  | ok status =>
    exact .ite (h.pure ()) (h.bind (h.report trivial) fun _ => h.throw _)
  | error => exact h.bind (h.report trivial) fun _ => h.throw _

theorem reportVoltage (h : KeepsQuiet R) : Keeps R Sd.reportVoltage.run :=
  .get fun _ => .ite (h.report trivial) (h.pure ())

theorem powerOff (h : KeepsQuiet R) : Keeps R Sd.powerOff.run :=
  h.clearBits (fun _ => trivial) fun _ => trivial

theorem baseClock (h : KeepsQuiet R) (config : Config) : Keeps R (Sd.baseClock config).run := by
  refine h.bind (h.perform fun _ => trivial) fun answer => ?_
  cases answer with
  | ok rate => exact .ite (h.bind (h.report trivial) fun _ => h.pure _) (h.pure _)
  | error => exact h.bind (h.report trivial) fun _ => h.pure _

theorem switchClockRate (h : KeepsQuiet R) (base target : UInt32) :
    Keeps R (Sd.switchClockRate base target).run := by
  refine h.bind (h.orFault _) fun field => ?_
  refine h.bind (h.waitRegister .status (fun _ => trivial) _ _ _) fun result => ?_
  cases result with
  | error => exact h.throw _
  | ok =>
    refine h.bind (h.read fun _ => trivial) fun _ => ?_
    refine h.bind (h.write trivial) fun _ => h.bind (h.delay _) fun _ => ?_
    refine h.bind (h.write trivial) fun _ => h.bind (h.delay _) fun _ => ?_
    exact h.bind (h.write trivial) fun _ => h.bind (h.delay _) fun _ => h.report trivial

theorem resetController (h : KeepsQuiet R) : Keeps R Sd.resetController.run := by
  refine h.bind (h.read fun _ => trivial) fun _ => h.bind (h.write trivial) fun _ => ?_
  refine h.bind (h.waitRegister .control1 (fun _ => trivial) _ _ _) fun result => ?_
  cases result with
  | error => exact h.bind (h.report trivial) fun _ => h.throw _
  | ok =>
    refine h.bind (h.waitRegister .status (fun _ => trivial) _ _ _) fun _ => ?_
    refine h.bind (h.read fun _ => trivial) fun status => ?_
    exact .ite (h.bind (h.report trivial) fun _ => h.throw _) (h.pure ())

theorem startClock (h : KeepsQuiet R) (base : UInt32) : Keeps R (Sd.startClock base).run := by
  refine h.bind (h.read fun _ => trivial) fun _ => h.bind (h.write trivial) fun _ => ?_
  refine h.bind (h.waitRegister .control1 (fun _ => trivial) _ _ _) fun result => ?_
  cases result with
  | error => exact h.bind (h.report trivial) fun _ => h.throw _
  | ok =>
    refine h.bind (h.delay _) fun _ => ?_
    exact h.bind (h.setBits (fun _ => trivial) fun _ => trivial) fun _ => h.delay _

theorem dataLevel (h : KeepsQuiet R) : Keeps R Sd.dataLevel.run :=
  h.bind (h.read fun _ => trivial) fun _ => h.pure _

theorem sampleStatus (h : KeepsQuiet R) {bits : UInt32}
    (hbits : hasBits (Interrupt.errorMask ||| bits) Interrupt.cardRemoval = false)
    (timeout : UInt32) : Keeps R (Sd.sampleStatus bits timeout).run := by
  refine h.bind (h.waitRegister .interrupt (fun _ => trivial) _ _ _) fun _ => ?_
  refine h.bind (h.read fun _ => trivial) fun sample => ?_
  exact h.bind (h.write hbits) fun _ => h.pure _

end KeepsQuiet

end Peripherals.Sd
