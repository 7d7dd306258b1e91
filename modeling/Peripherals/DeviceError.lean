/-! Failures that the drivers of timers and interrupt controllers report. -/

namespace Peripherals

/-- Why a device operation failed. -/
inductive DeviceError where
  /-- The device has no such function. -/
  | notSupported
  /-- An argument is outside its range. -/
  | invalidParameter
  /-- The awaited condition did not come in time. -/
  | timeout
  deriving DecidableEq, Repr

/-- The wording of a failure. -/
def DeviceError.message : DeviceError → String
  | .notSupported => "operation not supported"
  | .invalidParameter => "invalid parameter"
  | .timeout => "timed out"

end Peripherals
