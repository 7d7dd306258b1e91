import Peripherals.Interrupt.Controller
import Peripherals.Log.Record
import Peripherals.Mailbox.Query
import Peripherals.Input.Queues
import Peripherals.Sd.Note

/-! What the board reports while it is brought up and used. -/

namespace Peripherals.Board

/-- A report of the board. -/
inductive BoardNote where
  | bringingUp (name : String)
  | revision (name : String) (revision : UInt32)
  | revisionFailed (error : Mailbox.Error)
  | memory (layout : Mailbox.MemoryLayout)
  | memoryFailed (error : Mailbox.Error)
  | clock (rate highest : UInt32)
  | clockFailed (error : Mailbox.Error)
  | cardNotReady (error : Sd.Error)
  | cardInitFailed (error : Sd.Error)
  deriving DecidableEq, Repr

namespace BoardNote

/-- How severe a report is. -/
def level : BoardNote → Log.Level
  | .bringingUp _ | .revision _ _ | .memory _ | .clock _ _ => .info
  | .revisionFailed _ | .memoryFailed _ | .clockFailed _ => .warn
  | .cardNotReady _ | .cardInitFailed _ => .error

/-- The wording of a report, without the name of the board. -/
def text : BoardNote → String
  | .bringingUp name => "bringing up " ++ name
  | .revision name code => name ++ " revision " ++ Text.hexShort code.toNat
  | .revisionFailed e => "revision query failed: " ++ e.message
  | .memory layout =>
    "ARM memory " ++ Text.hexWord layout.armBase ++ ".." ++ Text.hexWord layout.armTop ++
      ", VC memory " ++ Text.hexWord layout.vcBase ++ " (" ++ toString (layout.vcSize / 1024) ++
      " KiB)"
  | .memoryFailed e => "memory layout query failed: " ++ e.message
  | .clock rate highest =>
    "ARM clock " ++ toString (rate / 1000000) ++ " MHz (max " ++ toString (highest / 1000000) ++
      " MHz)"
  | .clockFailed e => "ARM clock query failed: " ++ e.message
  | .cardNotReady e => "SD card not ready: " ++ e.message
  | .cardInitFailed e => "SD init failed: " ++ e.message

def message (n : BoardNote) : String := "board: " ++ n.text

end BoardNote

/-- A report of the board or of a part that has no block of its own. -/
inductive Note where
  | board (n : BoardNote)
  | dispatcher (n : Interrupt.DispatchNote)
  | input (n : Input.Overrun)
  | sd (n : Sd.Note)

def Note.record : Note → Log.Record
  | .board n => ⟨.board, n.level, n.message⟩
  | .dispatcher n => ⟨.dispatcher, n.level, n.message⟩
  | .input n => ⟨.input, n.level, n.message⟩
  | .sd n => ⟨.sdCard, n.level, n.message⟩

end Peripherals.Board
