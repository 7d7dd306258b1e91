import Peripherals.Interrupt.Dispatcher
import Peripherals.Register

/-! The interrupt controller: two banks of 32 lines and a basic bank of 8. Some boards have a block
next to each processor core as well, which adds a bank of 12 lines. -/

namespace Peripherals.Interrupt

/-- The registers of the main block. -/
inductive MainRegister where
  | basicPending
  | pending1
  | pending2
  | fastControl
  | enable1
  | enable2
  | enableBasic
  | disable1
  | disable2
  | disableBasic
  deriving DecidableEq, Repr

/-- The byte offset of a register in the main block. -/
def MainRegister.offset : MainRegister → Nat
  | .basicPending => 0x00
  | .pending1 => 0x04
  | .pending2 => 0x08
  | .fastControl => 0x0C
  | .enable1 => 0x10
  | .enable2 => 0x14
  | .enableBasic => 0x18
  | .disable1 => 0x1C
  | .disable2 => 0x20
  | .disableBasic => 0x24

/-- The registers of the block of the first core. -/
inductive CoreRegister where
  | timerControl
  | mailboxControl
  | source
  deriving DecidableEq, Repr

/-- The byte offset of a register in the block of the first core. -/
def CoreRegister.offset : CoreRegister → Nat
  | .timerControl => 0x40
  | .mailboxControl => 0x50
  | .source => 0x60

/-- A register of either block. -/
inductive Register where
  | main (r : MainRegister)
  | core (r : CoreRegister)
  deriving DecidableEq, Repr

/-- What the controller reports. -/
inductive ControllerNote where
  | masked (lines : Nat)
  deriving DecidableEq, Repr

/-- How severe a report is. -/
def ControllerNote.level : ControllerNote → Log.Level
  | .masked _ => .info

/-- The wording of a report. -/
def ControllerNote.message : ControllerNote → String
  | .masked lines => "intc: all lines masked (" ++ toString lines ++ " lines)"

/-- The requests of the controller's driver. -/
inductive ControllerOp where
  | read (r : Register)
  | write (r : Register) (value : UInt32)
  | note (n : ControllerNote)
  deriving DecidableEq, Repr

/-- The answer to a request: the word read, or nothing. -/
abbrev ControllerOp.Reply : ControllerOp → Type
  | .read _ => UInt32
  | _ => Unit

abbrev controllerPort : Signature := ⟨ControllerOp, ControllerOp.Reply⟩

instance : RegisterBlock (Prog controllerPort) Register where
  read r := Prog.request (S := controllerPort) (.read r)
  write r value := Prog.request (S := controllerPort) (.write r value)

def mainLayout : BankLayout := ⟨[32, 32, 8], by decide, by decide⟩

def coreLayout : BankLayout := ⟨[32, 32, 8, 12], by decide, by decide⟩

def tickLine : Nat := 3

/-- A controller, with or without the core block. -/
structure Controller where
  hasCore : Bool
  deriving DecidableEq, Repr

namespace Controller

open RegisterBlock (read write)

def layout (c : Controller) : BankLayout := if c.hasCore then coreLayout else mainLayout

/-- The registers for reading, unmasking and masking the lines of a bank of the main block. -/
def mainBank? : (bank : Nat) → Option (MainRegister × MainRegister × MainRegister)
  | 0 => some (.pending1, .enable1, .disable1)
  | 1 => some (.pending2, .enable2, .disable2)
  | 2 => some (.basicPending, .enableBasic, .disableBasic)
  | _ => none

/-- Masks every line and routes none to the fast interrupt. -/
def init (c : Controller) : Prog controllerPort Unit := do
  write (Register.main .fastControl) 0
  write (Register.main .disable1) 0xFFFFFFFF
  write (Register.main .disable2) 0xFFFFFFFF
  write (Register.main .disableBasic) 0xFFFFFFFF
  if c.hasCore then
    write (Register.core .timerControl) 0
    write (Register.core .mailboxControl) 0
  Prog.request (S := controllerPort) (.note (.masked c.layout.lineCount))

/-- The pending word of `bank`, zero where there is no such bank. -/
def pending (c : Controller) (bank : Nat) : Prog controllerPort UInt32 :=
  match mainBank? bank with
  | some (r, _, _) => read (Register.main r)
  | none => if bank = 3 ∧ c.hasCore then read (Register.core .source) else pure 0

def oneBit (bit : Nat) : UInt32 := 1 <<< UInt32.ofNat bit

/-- The control register and bit of a line of the core block. The last four lines have none. -/
def coreControl? (bit : Nat) : Option (CoreRegister × Nat) :=
  if bit < 4 then some (.timerControl, bit)
  else if bit < 8 then some (.mailboxControl, bit - 4)
  else none

/-- Unmasks or masks a line. A line of the main block has a bit in a register that sets and one
that clears its mask, a line of the core block a bit in a control register. -/
def setLine (c : Controller) (line : Nat) (enable : Bool) :
    Prog controllerPort (Except DeviceError Unit) :=
  match c.layout.locate line with
  | none => pure (.error .invalidParameter)
  | some (bank, bit) =>
    match mainBank? bank with
    | some (_, enableRegister, disableRegister) => do
      write (Register.main (if enable then enableRegister else disableRegister)) (oneBit bit)
      pure (.ok ())
    | none =>
      match coreControl? bit with
      | none => pure (.error .notSupported)
      | some (r, bit) => do
        if enable then
          RegisterBlock.setBits (Register.core r) (oneBit bit)
        else
          RegisterBlock.clearBits (Register.core r) (oneBit bit)
        pure (.ok ())

def enable (c : Controller) (line : Nat) : Prog controllerPort (Except DeviceError Unit) :=
  c.setLine line true

def disable (c : Controller) (line : Nat) : Prog controllerPort (Except DeviceError Unit) :=
  c.setLine line false

/-- Carries out the requests of a dispatcher on the controller `c`, where `drive` runs the programs
of the controller, `run` a handler, and `report` takes the dispatcher's reports. -/
def answer {m : Type → Type} {H : Type} (c : Controller)
    (drive : {α : Type} → Prog controllerPort α → m α) (run : H → m Unit)
    (report : DispatchNote → m Unit) : (o : DispatchOp H) → m o.Reply
  | .init => drive c.init
  | .pending bank => drive (c.pending bank)
  | .enable line => drive (c.enable line)
  | .disable line => drive (c.disable line)
  | .handle h => run h
  | .note n => report n

end Controller

end Peripherals.Interrupt
