import Peripherals.Mailbox.Transaction
import Peripherals.Word

/-! Queries of single properties of the board. -/

namespace Peripherals.Mailbox

/-- The record `t` without its response bit, where the firmware has answered it with some data; and
the record as it is left behind either way. -/
def Tag.checkResponse (t : Tag) : Except Error Unit × Tag :=
  if t.length &&& responseBit = 0 then
    (.error .notAResponse, t)
  else
    let t := { t with length := t.length &&& ~~~responseBit }
    if t.length = 0 then (.error .emptyResponse, t) else (.ok (), t)

/-- How the memory is split between the processor and the graphics side. -/
structure MemoryLayout where
  armBase : UInt32
  armSize : UInt32
  vcBase : UInt32
  vcSize : UInt32
  deriving DecidableEq, Repr

def MemoryLayout.armTop (l : MemoryLayout) : UInt32 := l.armBase + l.armSize

/-- Asks for property `id` with the parameters in `tag`, which take `requestLength` bytes. The
record comes back as the firmware answered it, or with only its header filled in where the
transaction failed. -/
def getTag (m : Mailbox) (id : UInt32) (tag : Tag) (requestLength : UInt32) :
    Prog port (Except Error Unit × Tag) := do
  let tag := tag.prepare id requestLength
  match ← m.transact tag.words with
  | .error e => pure (.error e, tag)
  | .ok words => pure (tag.ofWords words).checkResponse

/-- Asks for property `id` with the parameters `value` and returns the words of the answer. -/
def query (m : Mailbox) (id : UInt32) (value : List UInt32) (requestLength : UInt32) :
    Prog port (Except Error (List UInt32)) := do
  let (result, tag) ← m.getTag id { value } requestLength
  pure (result.map fun () => tag.value)

/-- Asks for property `id` and returns the word `index` of the answer. -/
def queryWord (m : Mailbox) (id : UInt32) (value : List UInt32) (requestLength : UInt32)
    (index : Nat) : Prog port (Except Error UInt32) := do
  let answer ← m.query id value requestLength
  pure (answer.map fun words => words[index]?.getD 0)

def firmwareRevision (m : Mailbox) : Prog port (Except Error UInt32) :=
  m.queryWord TagId.firmwareRevision [0] 0 0

def boardModel (m : Mailbox) : Prog port (Except Error UInt32) :=
  m.queryWord TagId.boardModel [0] 0 0

def boardRevision (m : Mailbox) : Prog port (Except Error UInt32) :=
  m.queryWord TagId.boardRevision [0] 0 0

/-- The serial number of the board, whose low half is the first word of the answer. -/
def boardSerial (m : Mailbox) : Prog port (Except Error UInt64) := do
  let answer ← m.query TagId.boardSerial [0, 0] 0
  pure (answer.map fun words => Word.join (words[1]?.getD 0) (words[0]?.getD 0))

/-- The six bytes of the network address. -/
def macAddress (m : Mailbox) : Prog port (Except Error (List UInt8)) := do
  let answer ← m.query TagId.macAddress [0, 0] 0
  pure (answer.map fun words => (words.flatMap Word.bytes).take 6)

def memoryTagWords : Nat := tagHeaderWords + 2

/-- The split of the memory, from two records of one transaction. -/
def memoryLayout (m : Mailbox) : Prog port (Except Error MemoryLayout) := do
  let arm := Tag.prepare { value := [0, 0] } TagId.processorMemory 8
  let graphics := Tag.prepare { value := [0, 0] } TagId.graphicsMemory 8
  match ← m.transact (arm.words ++ graphics.words) with
  | .error e => pure (.error e)
  | .ok words =>
    let arm := (arm.ofWords (words.take memoryTagWords)).checkResponse
    let graphics := (graphics.ofWords (words.drop memoryTagWords)).checkResponse
    pure do
      arm.1
      graphics.1
      let half (t : Tag) (i : Nat) := t.value[i]?.getD 0
      .ok ⟨half arm.2 0, half arm.2 1, half graphics.2 0, half graphics.2 1⟩

/-- The rate of a clock in Hz. -/
def clockRate (m : Mailbox) (clock : ClockId) : Prog port (Except Error UInt32) :=
  m.queryWord TagId.clockRate [clock.number, 0] 4 1

/-- The highest rate of a clock in Hz. -/
def maxClockRate (m : Mailbox) (clock : ClockId) : Prog port (Except Error UInt32) :=
  m.queryWord TagId.maxClockRate [clock.number, 0] 4 1

/-- The temperature in thousandths of a degree Celsius. -/
def temperature (m : Mailbox) : Prog port (Except Error UInt32) :=
  m.queryWord TagId.temperature [0, 0] 4 1

def setPowerState (m : Mailbox) (device : DeviceId) (bits : UInt32) :
    Prog port (Except Error UInt32) := do
  let answer ← m.queryWord TagId.setPowerState [device.number, bits] 8 1
  pure (answer.map (· &&& PowerStatus.all))

end Peripherals.Mailbox
