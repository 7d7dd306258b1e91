import Peripherals.Log.Message

/-! The logger: a filter on severity and the sink that the lines go to. -/

namespace Peripherals.Log

/-- A logger whose lines go to a sink named by `S`, once it has one. -/
structure Logger (S : Type) where
  limit : Filter := .upTo .trace
  sink : Option S := none

namespace Logger

variable {S : Type}

/-- Routes the lines to `sink`, unless an earlier call has chosen one. -/
def setSink (l : Logger S) (sink : S) : Logger S :=
  { l with sink := l.sink <|> some sink }

/-- Logs the records that `limit` allows and no others. -/
def setLimit (l : Logger S) (limit : Filter) : Logger S := { l with limit }

def enabled (l : Logger S) (level : Level) : Bool := l.limit.allows level

/-- The sink and the line that it is handed for a record, if any. A record logged before there is
a sink is lost. -/
def log (l : Logger S) (level : Level) (target message : String) : Option (S × Buffer) :=
  if l.enabled level then l.sink.map fun sink => (sink, format level target message) else none

end Logger

end Peripherals.Log
