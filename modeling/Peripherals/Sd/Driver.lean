import Peripherals.Clock.Delay
import Peripherals.Register
import Peripherals.Sd.Note

/-! The SD driver as a program: what it asks of the machine, what it keeps between requests, and the
steps that everything else is made of. -/

namespace Peripherals.Sd

open Mailbox (ClockId DeviceId)

/-- The settings of the driver. -/
structure Config where
  /-- Refuse every write. -/
  writeProtect : Bool := true
  /-- Ask the card for 1.8 volt signalling. -/
  enable1v8 : Bool := false
  /-- Use four data lines where the card can. -/
  enableWideBus : Bool := true
  cardInterrupts : Bool := false
  /-- The base clock where the firmware gives none. -/
  defaultBaseClock : UInt32 := 100000000
  /-- How long a block command may take, in microseconds. -/
  dataTimeout : UInt32 := 5000000
  /-- How often a block command is attempted. -/
  maxRetries : UInt32 := 3
  /-- How often a busy card is asked whether it is ready. -/
  opCondPolls : UInt32 := 20
  deriving DecidableEq, Repr

/-- The outcome of the last command. -/
structure Outcome where
  /-- The command, if there was one since the last reset. -/
  command : Option Command := none
  success : Bool := false
  /-- The named error bits of the status at which the command failed. -/
  error : UInt32 := 0
  /-- The status at which the command failed. -/
  interrupt : UInt32 := 0
  response : Vector UInt32 4 := Vector.replicate 4 0
  /-- The words that have arrived through the data port. -/
  received : Array UInt32 := #[]
  deriving DecidableEq, Repr

namespace Outcome

/-- The first response register, which holds a short response. -/
def reply (o : Outcome) : UInt32 := o.response[0]

def failedWith (o : Outcome) (bits : UInt32) : Bool := !o.success && hasBits o.error bits

/-- Whether the command failed without an error bit, because nothing came in time. -/
def timedOut (o : Outcome) : Bool := !o.success && o.error == 0

/-- Whether the controller reported that the card did not answer. -/
def commandTimeout (o : Outcome) : Bool := o.failedWith Interrupt.commandTimeout

def commandCrc (o : Outcome) : Bool := o.failedWith Interrupt.commandCrc

def commandEndBit (o : Outcome) : Bool := o.failedWith Interrupt.commandEndBit

def commandIndex (o : Outcome) : Bool := o.failedWith Interrupt.commandIndex

def dataTimeout (o : Outcome) : Bool := o.failedWith Interrupt.dataTimeout

def dataCrc (o : Outcome) : Bool := o.failedWith Interrupt.dataCrc

def dataEndBit (o : Outcome) : Bool := o.failedWith Interrupt.dataEndBit

def currentLimit (o : Outcome) : Bool := o.failedWith Interrupt.currentLimit

/-- Whether the command that the controller sent by itself failed. -/
def autoCommand (o : Outcome) : Bool := o.failedWith Interrupt.autoCommand

/-- Whether a transfer by the controller's own access to memory failed. -/
def adma (o : Outcome) : Bool := o.failedWith Interrupt.adma

def tuning (o : Outcome) : Bool := o.failedWith Interrupt.tuning

end Outcome

/-- What the driver keeps between requests. -/
structure Driver where
  card : CardInfo := {}
  last : Outcome := {}
  /-- The size of a block in bytes. -/
  blockSize : UInt32 := 512
  /-- The card has been removed since the last reset. -/
  cardRemoved : Bool := false
  /-- The card has been removed since the last report of a change. -/
  mediaChanged : Bool := false
  /-- Signalling at 1.8 volts has failed and is not tried again. -/
  switchFailed : Bool := false
  deriving DecidableEq, Repr

/-- The size of a block in words. -/
def Driver.blockWords (d : Driver) : Nat := max (d.blockSize.toNat / 4) 1

/-- The requests of the driver. -/
inductive Op where
  | read (r : Register)
  | write (r : Register) (value : UInt32)
  /-- Wait for at least so many microseconds. -/
  | delay (us : UInt32)
  | clockRate (clock : ClockId)
  /-- Ask the firmware to switch the power of a device. -/
  | setPower (device : DeviceId) (request : UInt32)
  | note (n : Note)

/-- The answer to a request. The firmware can fail to answer. -/
abbrev Op.Reply : Op → Type
  | .read _ => UInt32
  | .clockRate _ | .setPower _ _ => Except Mailbox.Error UInt32
  | _ => Unit

abbrev port : Signature := ⟨Op, Op.Reply⟩

abbrev Step := StateT Driver (Prog port)

/-- A step of the driver. What it changes in the driver's state stays changed when it fails. -/
abbrev Action := ExceptT Error Step

def say (n : Note) : Step Unit := StateT.lift (Prog.request (S := port) (.note n))

/-- Makes a request. -/
def perform (o : Op) : Action o.Reply :=
  ExceptT.lift (StateT.lift (Prog.request (S := port) o))

instance : RegisterBlock Action Register where
  read r := perform (.read r)
  write r value := perform (.write r value)

open RegisterBlock (read write)

/-- Waits for at least `us` microseconds. -/
def delay (us : UInt32) : Action Unit := perform (.delay us)

/-- Reports `n`, as part of a step that can fail. -/
def report (n : Note) : Action Unit := ExceptT.lift (say n)

/-- Changes the record of the card. -/
def modifyCard (f : CardInfo → CardInfo) : Action Unit :=
  modify fun d => { d with card := f d.card }

/-- Changes the record of the last command. -/
def modifyLast (f : Outcome → Outcome) : Action Unit :=
  modify fun d => { d with last := f d.last }

/-- The result of `x`, be it a failure. -/
def observe {α : Type} (x : Action α) : Action (Except Error α) := ExceptT.lift x.run

/-- Runs `x`, and where it fails reports `notes` and fails with `error` instead. -/
def orFail {α : Type} (x : Action α) (error : Error) (notes : List Note) : Action α := do
  match ← observe x with
  | .ok a => pure a
  | .error _ =>
    notes.forM report
    throw error

/-- The value that a computation in words has come to. Where it has left the range of a word the
driver stops. -/
def orFault {α : Type} : Option α → Action α
  | some a => pure a
  | none => ExceptT.lift (StateT.lift .wedged)

/-- Forgets the address of the card, so that the next access enumerates it again. -/
def forgetAddress : Action Unit := modifyCard fun c => { c with rca := 0 }

/-- Polls `r` for up to `timeout` microseconds until some bit of `mask` is set, or until all are
clear. -/
def waitRegister (r : Register) (mask : UInt32) (set : Bool) (timeout : UInt32) :
    Action (Except DeviceError Unit) :=
  Clock.waitFor delay timeout do
    let value ← read r
    pure (hasBits value mask == set)

def lineResetTimeout : UInt32 := 1000000

def commandTimeout : UInt32 := 500000

/-- Resets the lines that the bit `reset` of the second control register stands for. -/
def resetLine (reset : UInt32) : Action Unit := do
  RegisterBlock.setBits Register.control1 reset
  match ← waitRegister .control1 reset false lineResetTimeout with
  | .ok () => pure ()
  | .error _ =>
    report (.lineStuck reset)
    throw .lineResetTimeout

end Peripherals.Sd
