import Peripherals.Text.Hex

/-! The ways in which a conversation with the firmware fails. -/

namespace Peripherals.Mailbox

/-- Why the firmware did not answer a request. -/
inductive Error where
  /-- The firmware answered with the address of another buffer. -/
  | addressMismatch (sent received : UInt32)
  /-- The firmware refused the request with this code. -/
  | badResponseStatus (code : UInt32)
  /-- The firmware left the tag as it was. -/
  | notAResponse
  /-- The firmware answered the tag with no data. -/
  | emptyResponse
  /-- The request does not fit in the buffer. -/
  | tooLarge
  deriving DecidableEq, Repr

namespace Error

/-- The wording of a failure. -/
def message : Error → String
  | .addressMismatch sent received =>
    "mailbox echoed " ++ Text.hexShort received.toNat ++ ", expected " ++ Text.hexShort sent.toNat
  | .badResponseStatus code => "property request failed: " ++ Text.hexShort code.toNat
  | .notAResponse => "tag not processed by firmware"
  | .emptyResponse => "empty tag response"
  | .tooLarge => "property request too large"

/-- The name of a failure with its data, for diagnostics. -/
def describe : Error → String
  | .addressMismatch sent received =>
    "AddressMismatch \x7b sent: " ++ toString sent ++ ", received: " ++ toString received ++ " \x7d"
  | .badResponseStatus code => "BadResponseStatus(" ++ toString code ++ ")"
  | .notAResponse => "NotAResponse"
  | .emptyResponse => "EmptyResponse"
  | .tooLarge => "TooLarge"

end Error

end Peripherals.Mailbox
