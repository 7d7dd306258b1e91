import Peripherals.Board.Note
import Peripherals.Board.Platform
import Peripherals.Board.Status

/-! The board as a whole: the drivers wired to one another and to the peripheral blocks, bring-up,
the entry of interrupts, and the hooks of the block device. -/

namespace Peripherals

/-- What services an interrupt line: the system tick, or a handler from outside by its number. -/
inductive Board.Handler where
  | tick
  | external (id : Nat)
  deriving DecidableEq, Repr

/-- A board with its drivers. -/
structure Board where
  platform : Board.Platform
  mailbox : Mailbox
  dispatcher : Interrupt.Dispatcher Board.Handler
  timer : Timer.SystemTimer := {}
  tick : Clock.SystemTick := {}
  sd : Sd.Driver := {}
  keyboard : Input.Keyboard := {}
  queues : Input.Queues := {}

namespace Board

-- So that the type can be named as `Board.Board`, beside `Board.System` and `Board.Platform`.
export Peripherals (Board)

/-- The requests of the board: those of its drivers to their blocks, and calls to handlers and hooks
from outside. -/
inductive Op where
  | timer (o : Timer.Op)
  | interrupts (o : Interrupt.ControllerOp)
  | mailbox (o : Mailbox.Op)
  | sd (a : Access Sd.Register)
  /-- Run a handler from outside. -/
  | handler (id : Nat)
  /-- Run the hook of the slower tick. -/
  | hook (id : Nat)
  | note (n : Note)

/-- The answer to a request. -/
abbrev Op.Reply : Op → Type
  | .timer o => o.Reply
  | .interrupts o => o.Reply
  | .mailbox o => o.Reply
  | .sd a => a.Reply
  | _ => Unit

abbrev port : Signature := ⟨Op, Op.Reply⟩

def request (o : Op) : Prog port o.Reply := Prog.request (S := port) o

/-- Runs a program of the timer's driver. -/
def onTimer {α : Type} (p : Prog Timer.port α) : Prog port α :=
  p.translate fun o => request (.timer o)

def onController {α : Type} (p : Prog Interrupt.controllerPort α) : Prog port α :=
  p.translate fun o => request (.interrupts o)

/-- Runs a program of the mailbox's driver. -/
def onMailbox {α : Type} (p : Prog Mailbox.port α) : Prog port α :=
  p.translate fun o => request (.mailbox o)

def tableLines : Nat := 84

/-- Why the board could not be brought up or a handler not connected. -/
inductive BoardError where
  | device (error : DeviceError)
  | alreadyInitialized
  deriving DecidableEq, Repr

/-- The wording of a failure. -/
def BoardError.message : BoardError → String
  | .device e => "board bring-up failed: " ++ e.message
  | .alreadyInitialized => "board already initialized"

def controllerOf (p : Platform) : Interrupt.Controller := ⟨p.hasCoreBlock⟩

/-- A board of this platform as it is before bring-up. -/
def fresh (p : Platform) (buffer : PhysAddr) (patience : Nat) : Board where
  platform := p
  mailbox := ⟨buffer, p.chip.memoryWindow, patience⟩
  dispatcher := .empty (controllerOf p).layout tableLines

/-- The whole system: where the buffer for the firmware is, how long a poll is given, the board once
there is one, and the hook of the slower tick. -/
structure System where
  buffer : PhysAddr
  patience : Nat
  board : Option Board := none
  hook : Option Nat := none

abbrev Task := StateT System (Prog port)

def perform (o : Op) : Task o.Reply := StateT.lift (request o)

def report (n : BoardNote) : Task Unit := perform (.note (.board n))

def setBoard (b : Board) : Task Unit := modify fun s => { s with board := some b }

/-- Carries out a request of the SD driver: a delay by the system timer, and a question to the
firmware by the mailbox. -/
def answerSd (mailbox : Mailbox) (patience : Nat) : (o : Sd.Op) → Prog port o.Reply
  | .read r => request (.sd (.read r))
  | .write r value => request (.sd (.write r value))
  | .delay us => onTimer (Timer.delayUs patience us)
  | .clockRate clock => onMailbox (mailbox.clockRate clock)
  | .setPower device bits => onMailbox (mailbox.setPowerState device bits)
  | .note n => request (.note (.sd n))

def runSd {α : Type} (b : Board) (step : Sd.Step α) : Task α := do
  let s ← get
  let (result, sd) ← StateT.lift ((step.run b.sd).translate (answerSd b.mailbox s.patience))
  setBoard { b with sd }
  pure result

/-- Services the tick: counts it, runs the hook where it is due, and acknowledges the timer. -/
def serviceTick (hook : Option Nat) (timer : Timer.SystemTimer) :
    StateT Clock.SystemTick (Prog port) Unit := do
  let tick ← get
  let hook := hook.map fun id => request (.hook id)
  let tick ← StateT.lift (tick.service hook (onTimer (Timer.acknowledgeTick timer)))
  set tick

/-- Carries out a request of the board's dispatcher. -/
def answerDispatcher (hook : Option Nat) (b : Board) :
    (o : Interrupt.DispatchOp Handler) → StateT Clock.SystemTick (Prog port) o.Reply :=
  (controllerOf b.platform).answer (fun p => StateT.lift (onController p))
    (fun
      | .tick => serviceTick hook b.timer
      | .external id => StateT.lift (request (.handler id)))
    (fun n => StateT.lift (request (.note (.dispatcher n))))

def runDispatcher {α : Type} (b : Board) (p : Prog (Interrupt.dispatchPort Handler) α) :
    Task (α × Board) := do
  let s ← get
  let run := p.interpret (m := StateT Clock.SystemTick (Prog port))
    (fun _ => StateT.lift .wedged) (answerDispatcher s.hook b)
  let (result, tick) ← StateT.lift (run.run b.tick)
  pure (result, { b with tick })

/-- Registers `handler` for `line`, or disconnects the line. -/
def connect (b : Board) (line : Nat) (handler : Option Handler) :
    Task (Except BoardError Unit) := do
  let ((result, dispatcher), b) ← runDispatcher b (b.dispatcher.connect line handler)
  setBoard { b with dispatcher }
  pure (match result with
    | .ok _ => .ok ()
    | .error e => .error (.device e))

def reportFirmware (b : Board) : Task Unit := do
  match ← StateT.lift (onMailbox b.mailbox.boardRevision) with
  | .ok revision => report (.revision b.platform.name revision)
  | .error e => report (.revisionFailed e)
  match ← StateT.lift (onMailbox b.mailbox.memoryLayout) with
  | .ok layout => report (.memory layout)
  | .error e => report (.memoryFailed e)
  let rate ← StateT.lift (onMailbox (b.mailbox.clockRate .arm))
  let highest ← StateT.lift (onMailbox (b.mailbox.maxClockRate .arm))
  match rate, highest with
  | .ok rate, .ok highest => report (.clock rate highest)
  | .error e, _ | _, .error e => report (.clockFailed e)

/-- Starts the drivers of a new board. A card that does not come up is left to the next access. -/
def startDrivers (b : Board) : Task (Except BoardError Unit) := do
  let ((), b) ← runDispatcher b (Interrupt.Dispatcher.request .init)
  match ← StateT.lift (onTimer (Timer.startPeriodic b.platform.tick.hz)) with
  | .error e => pure (.error (.device e))
  | .ok timer =>
    let b := { b with timer }
    setBoard b
    match ← connect b Interrupt.tickLine (some .tick) with
    | .error e => pure (.error e)
    | .ok () =>
      reportFirmware b
      let s ← get
      match ← runSd (s.board.getD b) (Sd.init b.platform.sd).run with
      | .ok () => pure ()
      | .error e => report (.cardNotReady e)
      pure (.ok ())

/-- Brings the board up, once. A board whose timer cannot be started exists all the same. -/
def init (p : Platform) : Task (Except BoardError Unit) := do
  let s ← get
  if s.board.isSome then
    pure (.error .alreadyInitialized)
  else
    report (.bringingUp p.name)
    let b := fresh p s.buffer s.patience
    setBoard b
    startDrivers b

/-- Installs the hook of the slower tick, unless an earlier call has installed one. -/
def setHook (id : Nat) : Task Unit := modify fun s => { s with hook := s.hook <|> some id }

/-- The entry of an interrupt: services one pending line and returns it. -/
def interruptEntry : Task (Option Nat) := do
  let s ← get
  match s.board with
  | none => pure none
  | some b =>
    let (line, b) ← runDispatcher b b.dispatcher.dispatch
    setBoard b
    pure line

def keepQueues (b : Board) (queues : Input.Queues) (overrun : Option Input.Overrun) :
    Task Unit := do
  setBoard { b with queues }
  match overrun with
  | some o => perform (.note (.input o))
  | none => pure ()

/-- Takes a byte from the keyboard processor. -/
def receiveKeyboard (byte : UInt8) : Task Unit := do
  let s ← get
  match s.board with
  | none => pure ()
  | some b =>
    let (keyboard, event) := b.keyboard.receive byte
    let b := { b with keyboard }
    match event with
    | some e =>
      let (queues, overrun) := b.queues.deliver e
      keepQueues b queues overrun
    | none => setBoard b

/-- Takes a byte from the MIDI port. -/
def receiveMidi (byte : UInt8) : Task Unit := do
  let s ← get
  match s.board with
  | none => pure ()
  | some b =>
    let (queues, overrun) := b.queues.pushMidi byte
    keepQueues b queues overrun

/-- The oldest key byte. -/
def popKey : Task (Option UInt8) := do
  let s ← get
  match s.board with
  | none => pure none
  | some b =>
    let (byte, queues) := b.queues.popKey
    setBoard { b with queues }
    pure byte

/-- The oldest MIDI byte. -/
def popMidi : Task (Option UInt8) := do
  let s ← get
  match s.board with
  | none => pure none
  | some b =>
    let (byte, queues) := b.queues.popMidi
    setBoard { b with queues }
    pure byte

/-- The block-device hook that initializes the card. -/
def sdInit : Task Int := do
  let s ← get
  match s.board with
  | none => pure Sd.BiosError.unknownDevice.code
  | some b =>
    match ← runSd b (Sd.init b.platform.sd).run with
    | .ok () => pure Sd.successCode
    | .error e =>
      report (.cardInitFailed e)
      pure e.code

def sdReadWrite (direction : Sd.Direction) (buffer : Sd.Buffer) (sector : UInt32)
    (count device : UInt16) : Task (Int × Sd.Buffer) := do
  let s ← get
  match s.board with
  | none => pure (Sd.BiosError.unknownDevice.code, buffer)
  | some b =>
    let (result, buffer) ←
      runSd b (Sd.readWrite b.platform.sd direction buffer sector count device)
    pure (status result, buffer)

/-- The block-device hook that answers a control request into `arg`. -/
def sdIoctl (device code : UInt16) (arg : List UInt8) : Task (Int × List UInt8) := do
  let s ← get
  match s.board with
  | none => pure (Sd.BiosError.unknownDevice.code, arg)
  | some b =>
    match ← runSd b (Sd.ioctl b.platform.sd device (.ofCode code)) with
    | .ok response => pure (encodeIoctl response arg)
    | .error e => pure (e.code, arg)

end Board

end Peripherals
