import Peripherals.Interrupt.Controller
import Peripherals.Simulation.Memory
import Peripherals.Simulation.Trace

/-! Benches for the interrupt dispatcher: over the controller with memory in place of its blocks,
and over a bare list of pending words. Handlers are named by numbers. -/

namespace Peripherals.Simulation

open Interrupt (ControllerOp DispatchOp Register)

/-- The state of a bench. -/
structure InterruptBench where
  main : Memory := {}
  core : Memory := {}
  /-- The pending words of a bench without a controller. -/
  pending : Memory := {}
  /-- The lines that a bench without a controller refuses to mask or unmask. -/
  refused : List Nat := []
  /-- The handlers that have run. -/
  ran : Array Nat := #[]
  trace : Trace := {}

namespace InterruptBench

abbrev Run := StateT InterruptBench Option

/-- Adds an entry to the trace. -/
def push (b : InterruptBench) (entry : String) : InterruptBench :=
  { b with trace := b.trace.push entry }

def blocks : Device Interrupt.controllerPort InterruptBench
  | .read (.main r), b =>
    let value := b.main.read r.offset
    some (value, b.push (readEntry r.offset value))
  | .read (.core r), b =>
    let value := b.core.read r.offset
    some (value, b.push ("L" ++ readEntry r.offset value))
  | .write (.main r) value, b =>
    some ((), { b with main := b.main.write r.offset value }.push (writeEntry r.offset value))
  | .write (.core r) value, b =>
    some ((), { b with core := b.core.write r.offset value }.push
      ("L" ++ writeEntry r.offset value))
  | .note _, b => some ((), b)

def drive {α : Type} (p : Prog Interrupt.controllerPort α) : Run α := fun b => p.run blocks b

def runHandler (id : Nat) : Run Unit := modify fun b => { b with ran := b.ran.push id }

/-- The answer of a bench without a controller to a request to mask or unmask a line. -/
def refuse (b : InterruptBench) (line : Nat) : Except DeviceError Unit :=
  if b.refused.contains line then .error .notSupported else .ok ()

/-- A bench without a controller. -/
def bare : (o : DispatchOp Nat) → Run o.Reply
  | .init => modify (·.push "init")
  | .pending bank => do
    modify (·.push ("pending(" ++ toString bank ++ ")"))
    let b ← get
    pure (b.pending.read bank)
  | .enable line => do
    modify (·.push ("enable(" ++ toString line ++ ")"))
    let b ← get
    pure (b.refuse line)
  | .disable line => do
    modify (·.push ("disable(" ++ toString line ++ ")"))
    let b ← get
    pure (b.refuse line)
  | .handle id => runHandler id
  | .note _ => pure ()

/-- Carries out a request on the controller, or without one. -/
def answer (controller : Option Interrupt.Controller) : (o : DispatchOp Nat) → Run o.Reply :=
  match controller with
  | some c => c.answer drive runHandler fun _ => pure ()
  | none => bare

/-- Runs a program of the dispatcher. -/
def run {α : Type} (controller : Option Interrupt.Controller)
    (p : Prog (Interrupt.dispatchPort Nat) α) : Run α :=
  p.interpret (m := Run) (fun _ _ => none) (answer controller)

/-- Sets a pending word of a bench without a controller. -/
def setPending (b : InterruptBench) (bank : Nat) (word : UInt32) : InterruptBench :=
  { b with pending := b.pending.write bank word }

def setRegister (b : InterruptBench) (inCore : Bool) (offset : Nat) (word : UInt32) :
    InterruptBench :=
  if inCore then { b with core := b.core.write offset word }
  else { b with main := b.main.write offset word }

/-- The bench before the next step, with an empty trace and no handler run. -/
def cleared (b : InterruptBench) : InterruptBench := { b with trace := {}, ran := #[] }

end InterruptBench

end Peripherals.Simulation
