import Peripherals.Log.Level

/-! Log records before they are formatted: where they come from, how severe they are, and what they
say. -/

namespace Peripherals.Log

/-- The parts of the system that log. -/
inductive Source where
  | board
  | dispatcher
  | input
  | interruptController
  | mailbox
  | sdCard
  | systemTimer
  deriving DecidableEq, Repr

/-- A log record. -/
structure Record where
  source : Source
  level : Level
  message : String
  deriving DecidableEq, Repr

end Peripherals.Log
