import Peripherals.Sd.Block

/-! The block-device hooks speak in numbers: a status code, and an argument buffer that a control
request answers into. -/

namespace Peripherals.Board

open Sd (BiosError IoctlResponse)

/-- The status code of a block-device operation. -/
def status : Except BiosError Unit → Int
  | .ok () => Sd.successCode
  | .error e => e.code

/-- The buffer `arg` with `answer` stored over its first bytes, and success; or the general error
where the buffer is too short for it. -/
def storeAnswer (answer : List UInt8) (arg : List UInt8) : Int × List UInt8 :=
  if arg.length < answer.length then
    (BiosError.general.code, arg)
  else
    (Sd.successCode, answer ++ arg.drop answer.length)

/-- Answers a control request into its argument buffer: the geometry as two words, the name with a
zero byte after it, and a change of the medium as the status itself. -/
def encodeIoctl (response : IoctlResponse) (arg : List UInt8) : Int × List UInt8 :=
  match response with
  | .diskInfo blocks blockSize => storeAnswer (Word.bytes blocks ++ Word.bytes blockSize) arg
  | .diskName name => storeAnswer (name.toUTF8.toList ++ [0]) arg
  | .mediaChange state => (state.code, arg)

end Peripherals.Board
