/-! Running an action with interrupts masked. The state is whether the core takes interrupts. -/

namespace Peripherals.Interrupt

/-- Whether the core takes interrupts. -/
def areEnabled : StateM Bool Bool := get

/-- Runs an action with interrupts masked, and unmasks them afterwards if they were not masked
before, so that such runs nest. -/
def withoutInterrupts {α : Type} (act : StateM Bool α) : StateM Bool α := do
  let enabled ← areEnabled
  if enabled then
    set false
  let result ← act
  if enabled then
    set true
  pure result

end Peripherals.Interrupt
