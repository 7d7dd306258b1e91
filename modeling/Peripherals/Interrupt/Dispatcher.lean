import Peripherals.DeviceError
import Peripherals.Interrupt.Layout
import Peripherals.Log.Level
import Peripherals.Program

/-! The table of interrupt handlers. A line with a handler is unmasked and a line without one is
masked; a dispatch runs at most one handler, that of the pending line with the smallest number. -/

namespace Peripherals.Interrupt

/-- What the dispatcher reports. -/
inductive DispatchNote where
  | connected (line : Nat)
  | disconnected (line : Nat)
  /-- A line without a handler is pending. -/
  | spurious (line : Nat)
  | cannotMask (line : Nat)
  deriving DecidableEq, Repr

/-- How severe a report is. -/
def DispatchNote.level : DispatchNote → Log.Level
  | .connected _ | .disconnected _ => .debug
  | .spurious _ | .cannotMask _ => .warn

/-- The wording of a report. -/
def DispatchNote.message : DispatchNote → String
  | .connected line => "irq: line " ++ toString line ++ " connected"
  | .disconnected line => "irq: line " ++ toString line ++ " disconnected"
  | .spurious line => "irq: spurious line " ++ toString line ++ ", masking"
  | .cannotMask line => "irq: line " ++ toString line ++ " cannot be masked"

/-- The requests of a dispatcher whose handlers are named by `H`. -/
inductive DispatchOp (H : Type) where
  /-- Mask every line. -/
  | init
  | pending (bank : Nat)
  | enable (line : Nat)
  | disable (line : Nat)
  | handle (handler : H)
  | note (n : DispatchNote)
  deriving DecidableEq, Repr

/-- The answer to a request. A controller can refuse to mask or unmask a line. -/
abbrev DispatchOp.Reply {H : Type} : DispatchOp H → Type
  | .pending _ => UInt32
  | .enable _ | .disable _ => Except DeviceError Unit
  | .init | .handle _ | .note _ => Unit

abbrev dispatchPort (H : Type) : Signature := ⟨DispatchOp H, DispatchOp.Reply⟩

/-- A handler table for the lines of a controller. Lines past the end of the table cannot be
connected. -/
structure Dispatcher (H : Type) where
  layout : BankLayout
  handlers : Array (Option H)

namespace Dispatcher

variable {H : Type}

def request (o : DispatchOp H) : Prog (dispatchPort H) o.Reply :=
  Prog.request (S := dispatchPort H) o

/-- An empty table of `size` lines. -/
def empty (layout : BankLayout) (size : Nat) : Dispatcher H := ⟨layout, Array.replicate size none⟩

def handler? (d : Dispatcher H) (line : Nat) : Option H := d.handlers[line]?.join

def isConnected (d : Dispatcher H) (line : Nat) : Bool := (d.handler? line).isSome

/-- Registers `handler` for `line` and unmasks it, or masks it where `handler` is `none`. The
result is the handler that was there before, and the table as it is afterwards: a line that the
controller refuses to mask or unmask has its new entry all the same. -/
def connect (d : Dispatcher H) (line : Nat) (handler : Option H) :
    Prog (dispatchPort H) (Except DeviceError (Option H) × Dispatcher H) :=
  if d.handlers.size ≤ line ∨ d.layout.lineCount ≤ line then
    pure (.error .invalidParameter, d)
  else do
    let previous := d.handler? line
    let d := { d with handlers := d.handlers.setIfInBounds line handler }
    let answer : Except DeviceError Unit ←
      if handler.isSome then request (.enable line) else request (.disable line)
    match answer with
    | .error e => pure (.error e, d)
    | .ok () =>
      request (.note (if handler.isSome then .connected line else .disconnected line))
      pure (.ok previous, d)

/-- Samples the pending words of the banks, each cut down to the bits of its lines. -/
def sample (layout : BankLayout) : (banks : List Nat) → Prog (dispatchPort H) (List UInt32)
  | [] => pure []
  | bank :: rest => do
    let word ← request (.pending bank)
    let words ← sample layout rest
    pure ((word &&& layout.mask bank) :: words)

/-- Runs the handler of the first of `lines` that has one and masks those before it. The result is
that line. -/
def serve (d : Dispatcher H) : (lines : List Nat) → Prog (dispatchPort H) (Option Nat)
  | [] => pure none
  | line :: rest =>
    match d.handler? line with
    | some h => do
      request (.handle h)
      pure (some line)
    | none => do
      request (.note (.spurious line))
      match ← request (.disable line) with
      | .error _ => request (.note (.cannotMask line))
      | .ok () => pure ()
      d.serve rest

/-- Services the first pending line that has a handler. Every pending word is sampled once, and the
lines without a handler that come before are masked. -/
def dispatch (d : Dispatcher H) : Prog (dispatchPort H) (Option Nat) := do
  let words ← sample d.layout (List.range d.layout.bankCount)
  d.serve (pendingLines d.layout 0 words)

end Dispatcher

end Peripherals.Interrupt
