import Peripherals.Sd.Enumeration

/-! The gate in front of every access: the card is brought to the transfer state, whatever state it
is in. -/

namespace Peripherals.Sd

def queryStatus : Action CardStatus := do
  let d ← get
  match ← observe (issueCommand .sendStatus d.card.rcaArgument commandTimeout) with
  | .error e =>
    report (.statusFailed e)
    forgetAddress
    throw .sendStatus
  | .ok () =>
    let d ← get
    let status : CardStatus := ⟨d.last.reply⟩
    if status.hasErrors then
      report (.statusErrors status.raw)
    pure status

/-- Issues a command that leads to the transfer state, and forgets the card's address where it
fails. -/
def recover (command : Command) (argument : UInt32) (note : Note) (error : Error) :
    Action Unit := do
  match ← observe (issueCommand command argument commandTimeout) with
  | .ok () => pure ()
  | .error _ =>
    report note
    forgetAddress
    throw error

/-- Leads a card from `state` to the transfer state. -/
def leave (config : Config) (state : CardState) : Action Unit := do
  match state with
  | .standby =>
    let d ← get
    recover .selectCard d.card.rcaArgument .selectFailed .select
  | .data =>
    recover .stopTransmission 0 .stopFailed .stopTransmission
    let _ ← observe (resetLine Control1.resetData)
  | _ => cardReset config

/-- Checks that the card is in the transfer state, and forgets its address where it is not. -/
def confirmTransfer : Action Unit := do
  let status ← queryStatus
  if status.state = .transfer then
    pure ()
  else
    report (.stuckInState status.stateCode)
    forgetAddress
    throw (.notInTransferState status.stateCode)

/-- Brings a card that has an address to the transfer state. -/
def enterTransfer (config : Config) : Action Unit := do
  let status ← queryStatus
  if status.state = .transfer then
    pure ()
  else
    leave config status.state
    confirmTransfer

/-- Brings the card to the transfer state. -/
def ensureDataMode (config : Config) : Action Unit := do
  let d ← get
  if d.card.rca = 0 then
    cardReset config
  enterTransfer config

end Peripherals.Sd
