import Peripherals.Simulation.Trace

/-! A simulated SD host controller with a card in it. By default it answers as a healthy card does;
rules change what becomes of a command, and faults change what a register reads as. -/

namespace Peripherals.Simulation

/-- How the simulated card answers. -/
structure CardModel where
  version : UInt32 := 0x99020000
  /-- The levels of the data lines while the clock is on and while it is off. -/
  levelClocked : UInt32 := 15
  levelGated : UInt32 := 0
  cid : List UInt32 := [0x11111111, 0x22222222, 0x33333333, 0x44444444]
  addressResponse : UInt32 := 0x12340500
  selectState : UInt32 := 3
  ocr : UInt32 := 0x00FF8000
  highCapacity : Bool := true
  accepts1v8 : Bool := false
  scr : List UInt32 := [0x00803502, 0]
  /-- Status bits that come with the completion of a transfer. -/
  completion : UInt32 := 0

/-- What becomes of a command, in place of the default. -/
structure Rule where
  command : UInt32
  application : Bool := false
  /-- How many commands it lets pass before. -/
  skip : Nat := 0
  /-- How many commands it is for, or all. -/
  times : Option Nat := none
  response : Option (List UInt32) := none
  /-- The status bits of the command, which then has no other effect. -/
  status : Option UInt32 := none
  delay : Nat := 0
  /-- The status bits of the stages of the transfer, where they are not the default. -/
  stages : List (Option UInt32) := []
  stageDelay : Nat := 0
  /-- The words in the data port. -/
  data : Option (List UInt32) := none
  state : Option UInt32 := none

/-- A change of what a register reads as. -/
structure Fault where
  offset : Nat
  andMask : UInt32 := 0xFFFFFFFF
  orMask : UInt32 := 0
  /-- How many reads it lets pass before. -/
  skip : Nat := 0
  /-- How many reads it is for, or all. -/
  count : Option Nat := none

/-- A transfer that is under way. -/
structure RunningTransfer where
  ready : UInt32
  blocks : Nat
  blockWords : Nat
  stages : List (Option UInt32)
  stageDelay : Nat
  /-- The blocks that are complete. -/
  complete : Nat := 0
  /-- The words of the present block that are left. -/
  left : Nat

/-- The controller and the card in it. -/
structure SdHost where
  card : CardModel := {}
  registers : Array UInt32
  status : UInt32 := 0
  /-- Status bits that come at a later time. -/
  events : List (Nat × UInt32) := []
  inserted : Bool := true
  state : UInt32 := 0
  busy : Nat := 0
  announced : Bool := false
  port : List UInt32 := []
  transfer : Option RunningTransfer := none
  rules : List Rule := []
  faults : List Fault := []

namespace SdHost

/-- A controller as it comes out of a power-up. -/
def fresh (card : CardModel) : SdHost where
  card
  registers := (Array.replicate 64 0).set! 63 card.version

/-- The word stored at `offset`. -/
def stored (h : SdHost) (offset : Nat) : UInt32 := h.registers[offset / 4]?.getD 0

/-- Stores a word at `offset`. -/
def store (h : SdHost) (offset : Nat) (value : UInt32) : SdHost :=
  { h with registers := h.registers.setIfInBounds (offset / 4) value }

/-- Raises status bits, now or after a delay. -/
def raise (h : SdHost) (now : Nat) (bits : UInt32) (delay : Nat) : SdHost :=
  if delay = 0 then { h with status := h.status ||| bits }
  else { h with events := h.events ++ [(now + delay, bits)] }

/-- Raises the status bits whose time has come. Only an access to the status register does this, so
a bit that comes while other registers are used stays unseen until then. -/
def settle (h : SdHost) (now : Nat) : SdHost :=
  let due := h.events.filter fun (time, _) => time ≤ now
  { h with
    status := due.foldl (fun status (_, bits) => status ||| bits) h.status
    events := h.events.filter fun (time, _) => now < time }

/-- Enters a stage of a transfer: as many blocks are complete as its number says. -/
def enterStage (h : SdHost) (now : Nat) (t : RunningTransfer) : SdHost :=
  let usual : UInt32 := if t.complete = t.blocks then h.card.completion ||| 2 else t.ready
  let bits := (t.stages[t.complete]?.join).getD usual
  { h.raise now bits t.stageDelay with
    transfer := if t.complete = t.blocks then none else some t }

/-- Counts an access to the data port. -/
def advance (h : SdHost) (now : Nat) : SdHost :=
  match h.transfer with
  | none => h
  | some t =>
    if 1 < t.left then { h with transfer := some { t with left := t.left - 1 } }
    else h.enterStage now { t with complete := t.complete + 1, left := t.blockWords }

/-- The value that a read gives under a fault, and the fault afterwards. -/
def Fault.apply (f : Fault) (offset : Nat) (value : UInt32) : UInt32 × Fault :=
  if f.offset ≠ offset ∨ f.count = some 0 then (value, f)
  else if 0 < f.skip then (value, { f with skip := f.skip - 1 })
  else ((value &&& f.andMask) ||| f.orMask, { f with count := f.count.map (· - 1) })

/-- The value that a read gives under faults, in order, and the faults afterwards. -/
def applyFaults (offset : Nat) : List Fault → UInt32 → UInt32 × List Fault
  | [], value => (value, [])
  | f :: rest, value =>
    let (value, f) := Fault.apply f offset value
    let (value, rest) := applyFaults offset rest value
    (value, f :: rest)

/-- What the register at `offset` reads as without faults. -/
def plainRead (h : SdHost) (offset : Nat) : UInt32 :=
  match offset with
  | 0x30 => if h.status >>> 16 = 0 then h.status else h.status ||| 0x8000
  | 0x24 =>
    let level := if h.stored 0x2C &&& 4 = 0 then h.card.levelGated else h.card.levelClocked
    let lines : UInt32 := level &&& 0xF
    let present : UInt32 := if h.inserted then 0x10000 else 0
    present ||| (lines <<< 20)
  | _ => h.stored offset

/-- Reads the register at `offset`. -/
def read (h : SdHost) (now : Nat) (offset : Nat) : UInt32 × SdHost :=
  let h := if offset = 0x30 then h.settle now else h
  if offset = 0x20 then
    (h.port.headD 0, { h with port := h.port.tail }.advance now)
  else
    let (value, faults) := applyFaults offset h.faults (h.plainRead offset)
    (value, { h with faults })

/-- The first rule for a command, and the rules afterwards. -/
def findRule (command : UInt32) (application : Bool) : List Rule → Option Rule × List Rule
  | [] => (none, [])
  | r :: rest =>
    let pass (r : Rule) :=
      let (found, rest) := findRule command application rest
      (found, r :: rest)
    if r.command ≠ command ∨ r.application ≠ application ∨ r.times = some 0 then pass r
    else if 0 < r.skip then pass { r with skip := r.skip - 1 }
    else (some r, { r with times := r.times.map (· - 1) } :: rest)

/-- What a command does by default: the status bits, the response if any, and the state of the card
and how long it stays busy. -/
structure Effect where
  bits : UInt32
  response : Option (List UInt32)
  state : UInt32
  busy : Nat

def effect (h : SdHost) (word : UInt32) (application : Bool) : Effect :=
  let index := word >>> 24
  let argument := h.stored 0x08
  let plain := (h.state <<< 9) ||| 0x100
  let bits : UInt32 := if word &&& 0x230000 = 0x030000 then 3 else 1
  let answer (response : List UInt32) (state : UInt32) : Effect :=
    ⟨bits, some response, state, h.busy⟩
  if application then
    if index = 41 then
      if argument = 0 then answer [h.card.ocr] h.state
      else if 0 < h.busy then ⟨bits, some [h.card.ocr], h.state, h.busy - 1⟩
      else
        let capacity := if h.card.highCapacity then argument &&& 0x40000000 else 0
        let voltage := if h.card.accepts1v8 then argument &&& 0x01000000 else 0
        answer [h.card.ocr ||| 0x80000000 ||| capacity ||| voltage] 1
    else answer [plain] h.state
  else match index.toNat with
    | 0 => answer [] 0
    | 2 => answer h.card.cid 2
    | 3 => answer [h.card.addressResponse] 3
    | 7 => answer [(h.card.selectState <<< 9) ||| 0x100] 4
    | 8 => answer [argument &&& 0xFFF] h.state
    | 12 => answer [plain] 4
    | 55 => answer [(h.state <<< 9) ||| 0x120] h.state
    | _ => answer [plain] h.state

/-- The words that a card sends by default: the word `w` of block `b` holds `w` under the number of
the block. -/
def defaultData (argument : UInt32) (blocks blockWords : Nat) : List UInt32 :=
  (List.range (blocks * blockWords)).map fun i =>
    ((argument + UInt32.ofNat (i / blockWords)) <<< 16) ||| UInt32.ofNat (i % blockWords)

/-- The transfer that a command word starts, with the words in the data port. -/
def newTransfer (h : SdHost) (word : UInt32) (application : Bool) (rule : Rule) :
    RunningTransfer × List UInt32 :=
  let sizeCount := h.stored 0x04
  let blocks := max 1 (sizeCount >>> 16).toNat
  let blockWords := (sizeCount &&& 0xFFF).toNat / 4
  let isRead := word &&& 0x10 != 0
  let words :=
    match rule.data with
    | some words => words
    | none =>
      if !isRead then []
      else if application && word >>> 24 == 51 then h.card.scr
      else defaultData (h.stored 0x08) blocks blockWords
  ({ ready := if isRead then 0x20 else 0x10
     blocks
     blockWords
     stages := rule.stages
     stageDelay := rule.stageDelay
     left := blockWords }, words)

/-- Stores a response, padded with zeros. -/
def storeResponse (h : SdHost) (response : List UInt32) : SdHost :=
  (List.range 4).foldl (fun h i => h.store (0x10 + 4 * i) (response[i]?.getD 0)) h

/-- Carries out a command word. -/
def execute (h : SdHost) (now : Nat) (word : UInt32) : SdHost :=
  let application := h.announced
  let index := word >>> 24
  let (found, rules) := findRule index application h.rules
  let h := { h with announced := false, rules }
  let rule := found.getD { command := index }
  let usual := h.effect word application
  let silent := !application && index == 5 && found.isNone
  let bits := rule.status.getD (if silent then 0 else usual.bits)
  let response := if rule.status.isSome || silent then none else usual.response
  let transfer :=
    if rule.status.isNone && word &&& 0x200000 != 0 then some (h.newTransfer word application rule)
    else none
  let h := if rule.status.isSome then h else { h with state := usual.state, busy := usual.busy }
  let h := match transfer with
    | some (t, words) => { h with transfer := some t, port := words }
    | none => h
  let h := { h with state := rule.state.getD h.state }
  let h := match rule.response <|> response with
    | some words => h.storeResponse words
    | none => h
  let h := { h with announced := !application && index == 55 && bits &&& 1 != 0 }
  let h := h.raise now bits rule.delay
  match transfer with
  | some (t, _) => h.enterStage now t
  | none => h

/-- Writes the second control register, which can reset the controller or its data lines. -/
def writeControl1 (h : SdHost) (value : UInt32) : SdHost :=
  let resetHost := value &&& 0x01000000 != 0
  let resetData := value &&& 0x04000000 != 0
  let h :=
    if resetHost then
      { ((h.store 0x28 0).store 0x2C 0).store 0x3C 0 with status := 0, events := [] }
    else h
  let h := if resetHost || resetData then { h with transfer := none, port := [] } else h
  if resetHost then h
  else
    let kept := value &&& ~~~0x07000000
    h.store 0x2C (if kept &&& 1 = 0 then kept else kept ||| 2)

/-- Writes the register at `offset`. -/
def write (h : SdHost) (now : Nat) (offset : Nat) (value : UInt32) : SdHost :=
  match offset with
  | 0x20 => h.advance now
  | 0x30 =>
    let h := h.settle now
    { h with status := h.status &&& ~~~value }
  | 0x2C => h.writeControl1 value
  | 0x0C => (h.store 0x0C value).execute now value
  | _ => h.store offset value

def remove (h : SdHost) : SdHost := { h with inserted := false, status := h.status ||| 0x80 }

/-- Puts a card in. -/
def insert (h : SdHost) (interrupts : Bool) : SdHost :=
  { h with
    inserted := true
    state := 0
    status := if interrupts then h.status ||| 0x40 else h.status }

end SdHost

end Peripherals.Simulation
