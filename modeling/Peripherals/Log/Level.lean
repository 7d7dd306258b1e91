/-! The severity of log records. -/

namespace Peripherals.Log

/-- The severity of a record, the most severe first. -/
inductive Level where
  | error
  | warn
  | info
  | debug
  | trace
  deriving DecidableEq, Repr

namespace Level

/-- The place of a level in the order of decreasing severity, from 1. -/
def rank : Level → Nat
  | .error => 1
  | .warn => 2
  | .info => 3
  | .debug => 4
  | .trace => 5

/-- The name that a record carries. -/
def name : Level → String
  | .error => "ERROR"
  | .warn => "WARN"
  | .info => "INFO"
  | .debug => "DEBUG"
  | .trace => "TRACE"

end Level

/-- How much is logged: nothing, or every record at least as severe as a level. -/
inductive Filter where
  | off
  | upTo (level : Level)
  deriving DecidableEq, Repr

/-- Whether records of `level` are logged. -/
def Filter.allows : Filter → Level → Bool
  | .off, _ => false
  | .upTo limit, level => level.rank ≤ limit.rank

end Peripherals.Log
