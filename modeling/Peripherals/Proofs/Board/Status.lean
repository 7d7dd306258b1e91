import Peripherals.Board.Status
import Peripherals.Proofs.Text.Bytes
import Peripherals.Proofs.Word

/-! The answers to control requests in the argument of the caller. An answer is stored as a whole
over the first bytes of its argument, and can be read back from them, or the argument is too short
and stays as it is. -/

namespace Peripherals.Board

open Sd (BiosError IoctlResponse MediaState)

/-- The number of bytes that a response takes up in the argument. -/
def answerSize : IoctlResponse → Nat
  | .diskInfo _ _ => 8
  | .diskName name => name.utf8ByteSize + 1
  | .mediaChange _ => 0

/-- The status of a response that has been stored. -/
def storedStatus : IoctlResponse → Int
  | .diskInfo _ _ | .diskName _ => 0
  | .mediaChange .unchanged => 0
  | .mediaChange .changed => 2

/-- The text that a zero byte ends, which is the last of `bytes`. -/
def readTerminated? (bytes : List UInt8) : Option String :=
  if bytes.getLast? = some 0 then String.fromUTF8? ⟨bytes.dropLast.toArray⟩ else none

/-- The response can be read from these bytes: the geometry as two words, the least significant byte
first, and a name as the text before the last byte, which is zero. That is the first zero byte if
and only if the name has no zero character. -/
def Reads (bytes : List UInt8) : IoctlResponse → Prop
  | .diskInfo blocks blockSize => Word.arrayOfBytes 2 bytes.toArray = #[blocks, blockSize]
  | .diskName name => readTerminated? bytes = some name ∧
    (bytes.takeWhile (· != 0) = bytes.dropLast ↔ '\x00' ∉ name.toList)
  | .mediaChange _ => bytes = []

theorem storeAnswer_of_lt {answer arg : List UInt8} (h : arg.length < answer.length) :
    storeAnswer answer arg = (BiosError.general.code, arg) :=
  if_pos h

theorem storeAnswer_of_le {answer arg : List UInt8} (h : answer.length ≤ arg.length) :
    storeAnswer answer arg = (Sd.successCode, answer ++ arg.drop answer.length) :=
  if_neg (Nat.not_lt.mpr h)

/-- The bytes of a response. -/
def answerBytes : IoctlResponse → List UInt8
  | .diskInfo blocks blockSize => Word.bytes blocks ++ Word.bytes blockSize
  | .diskName name => name.toUTF8.toList ++ [0]
  | .mediaChange _ => []

variable (response : IoctlResponse) (arg : List UInt8)

theorem length_answerBytes : (answerBytes response).length = answerSize response := by
  cases response with
  | diskInfo | mediaChange => rfl
  | diskName name =>
    rw [answerBytes, List.length_append, Text.length_toUTF8]
    rfl

theorem reads_answerBytes : Reads (answerBytes response) response := by
  cases response with
  | diskInfo blocks blockSize => exact Word.arrayOfBytes_bytes blocks blockSize
  | diskName name =>
    have hlast : (name.toUTF8.toList ++ [0]).getLast? = some 0 := List.getLast?_concat
    refine ⟨?_, ?_⟩
    · rw [answerBytes, readTerminated?, if_pos hlast, List.dropLast_concat, Text.fromUTF8?_toUTF8]
    · rw [answerBytes, List.dropLast_concat, Text.takeWhile_terminated, Text.zero_mem_toUTF8]
  | mediaChange => rfl

/-- An argument that is long enough has the bytes of the response first, and then what it had. -/
theorem encodeIoctl_of_le (h : answerSize response ≤ arg.length) :
    encodeIoctl response arg =
      (storedStatus response, answerBytes response ++ arg.drop (answerSize response)) := by
  rw [← length_answerBytes] at h ⊢
  cases response with
  | diskInfo | diskName => exact storeAnswer_of_le h
  | mediaChange state => cases state <;> rfl

theorem encodeIoctl_of_lt (h : arg.length < answerSize response) :
    encodeIoctl response arg = (BiosError.general.code, arg) := by
  rw [← length_answerBytes] at h
  cases response with
  | diskInfo | diskName => exact storeAnswer_of_lt h
  | mediaChange => exact absurd h (Nat.not_lt_zero _)

theorem storedStatus_nonneg : 0 ≤ storedStatus response := by
  cases response with
  | diskInfo | diskName => exact Int.le_refl 0
  | mediaChange state => cases state <;> decide

theorem storedStatus_ne : storedStatus response ≠ BiosError.general.code := by
  have hcode : BiosError.general.code < 0 := by decide
  exact Int.ne_of_gt (Int.lt_of_lt_of_le hcode (storedStatus_nonneg response))

/-- An answer is stored as a whole or not at all. An argument that is too short for it is refused
and stays as it is. In any other the answer can be read back from its first bytes, and the rest
stays as it is. The answer to whether the medium has changed is the status alone. -/
theorem answer_all_or_nothing :
    (encodeIoctl response arg = (BiosError.general.code, arg) ↔ arg.length < answerSize response) ∧
    (answerSize response ≤ arg.length →
      (encodeIoctl response arg).1 = storedStatus response ∧
      (encodeIoctl response arg).2.length = arg.length ∧
      (encodeIoctl response arg).2.drop (answerSize response) = arg.drop (answerSize response) ∧
      Reads ((encodeIoctl response arg).2.take (answerSize response)) response) ∧
    ∀ state, encodeIoctl (.mediaChange state) arg = (if state = .changed then 2 else 0, arg) := by
  refine ⟨⟨fun hrefused => ?_, encodeIoctl_of_lt response arg⟩, fun hroom => ?_, fun state => ?_⟩
  · by_contra hroom
    rw [encodeIoctl_of_le response arg (Nat.le_of_not_lt hroom)] at hrefused
    exact storedStatus_ne response (congrArg Prod.fst hrefused)
  · rw [encodeIoctl_of_le response arg hroom]
    refine ⟨rfl, ?_, List.drop_left' (length_answerBytes response), ?_⟩
    · rw [List.length_append, length_answerBytes, List.length_drop]
      omega
    · rw [List.take_left' (length_answerBytes response)]
      exact reads_answerBytes response
  · cases state <;> rfl

/-- A character of two bytes, and an argument with a byte to spare. -/
theorem answer_all_or_nothing_name :
    answerSize (.diskName "é") ≤ [1, 2, 3, 4].length ∧
    (encodeIoctl (.diskName "é") [1, 2, 3, 4]).1 = 0 ∧
    (encodeIoctl (.diskName "é") [1, 2, 3, 4]).2.drop 3 = [4] ∧
    Reads ((encodeIoctl (.diskName "é") [1, 2, 3, 4]).2.take 3) (.diskName "é") := by
  have hsize : answerSize (.diskName "é") = 3 := by decide +kernel
  have hroom : answerSize (.diskName "é") ≤ [1, 2, 3, 4].length := hsize.trans_le (by decide)
  obtain ⟨hstatus, -, hrest, hreads⟩ :=
    (answer_all_or_nothing (.diskName "é") [1, 2, 3, 4]).2.1 hroom
  rw [hsize] at hrest hreads
  exact ⟨hroom, hstatus, hrest, hreads⟩

end Peripherals.Board
