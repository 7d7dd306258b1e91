import Mathlib.Data.List.Infix
import Peripherals.Proofs.Log.Buffer

/-! The lines of log records. The line of a record is its text with the line end, cut off where
there is no room for both, except that a text one byte short of the capacity leaves room for half of
the line end. -/

namespace Peripherals.Log

open Text (toList_eq_data toUTF8_append)

/-! ### The line of a record -/

/-- The name of a level in a column of five characters. -/
def Level.column : Level → String
  | .error => "ERROR"
  | .warn => "WARN "
  | .info => "INFO "
  | .debug => "DEBUG"
  | .trace => "TRACE"

/-- The bytes of a record without its line end. -/
def textBytes (level : Level) (target message : String) : List UInt8 :=
  ("[" ++ level.column ++ " " ++ target ++ "] " ++ message).toUTF8.toList

/-- The bytes of a carriage return and a line feed. -/
def lineEnd : List UInt8 := [0x0D, 0x0A]

theorem padRight_name (level : Level) : padRight 5 level.name = level.column := by
  cases level <;> decide

theorem bytes_write_lineEnd (b : Buffer) :
    (b.write "\r\n").bytes = (b.bytes ++ lineEnd).take capacity := by
  have hend : "\r\n".toUTF8.toList = lineEnd := by
    rw [toList_eq_data]
    rfl
  rw [Buffer.write, Buffer.bytes_append, hend]

/-- A buffer that is full is cut down to take the whole line end, but one with room for a single
byte is not. -/
theorem bytes_close (b : Buffer) :
    ((if b.isFull then b.truncate (capacity - 2) else b).write "\r\n").bytes =
      if b.bytes.length = 255 then b.bytes ++ [0x0D] else b.bytes.take 254 ++ lineEnd := by
  have hle : b.bytes.length ≤ 256 := b.length_le
  rw [bytes_write_lineEnd]
  by_cases hfull : b.bytes.length = 256
  · have hcut : (b.bytes.take 254).length = 254 := by
      rw [List.length_take]
      omega
    rw [if_pos (b.isFull_iff.mpr hfull), if_neg (by omega)]
    show (b.bytes.take 254 ++ lineEnd).take 256 = _
    exact List.take_of_length_le (by rw [List.length_append, hcut]; decide)
  rw [if_neg (mt b.isFull_iff.mp hfull)]
  by_cases hone : b.bytes.length = 255
  · rw [if_pos hone]
    show (b.bytes ++ ([0x0D] ++ [0x0A])).take 256 = _
    rw [← List.append_assoc]
    exact List.take_left' (by rw [List.length_append, hone]; rfl)
  · rw [if_neg hone, List.take_of_length_le (by omega : b.bytes.length ≤ 254)]
    refine List.take_of_length_le ?_
    rw [List.length_append]
    show b.bytes.length + 2 ≤ 256
    omega

variable (level : Level) (target message : String)

theorem bytes_text : ((Buffer.empty.write (head level target)).write message).bytes =
    (textBytes level target message).take capacity := by
  have hpieces := Buffer.bytes_foldl_write [head level target, message] .empty
  have htext : textBytes level target message =
      (head level target).toUTF8.toList ++ message.toUTF8.toList := by
    rw [textBytes, toUTF8_append, head, padRight_name]
  rw [htext]
  simpa [Buffer.empty] using hpieces

theorem bytes_format : (format level target message).bytes =
    if (textBytes level target message).length = 255 then textBytes level target message ++ [0x0D]
    else (textBytes level target message).take 254 ++ lineEnd := by
  have hclose := bytes_close ((Buffer.empty.write (head level target)).write message)
  rw [bytes_text] at hclose
  refine hclose.trans ?_
  generalize textBytes level target message = t
  have hlength : (t.take capacity).length = 255 ↔ t.length = 255 := by
    rw [List.length_take]
    unfold capacity
    omega
  by_cases hone : t.length = 255
  · rw [if_pos (hlength.mpr hone), if_pos hone, List.take_of_length_le (hone.trans_le (by decide))]
  · rw [if_neg (mt hlength.mp hone), if_neg hone, List.take_take]
    rfl

/-- A line ends with the line end, unless the text is of 255 bytes: then it ends with the first half
of it. -/
theorem lineEnd_suffix_format :
    lineEnd <:+ (format level target message).bytes ↔
      (textBytes level target message).length ≠ 255 := by
  rw [bytes_format]
  split
  · rename_i hone
    refine iff_of_false (fun hsuffix => ?_) (fun h => h hone)
    obtain ⟨before, heq⟩ := hsuffix
    have hlast := congrArg List.getLast? heq
    simp [lineEnd] at hlast
  · rename_i hother
    exact iff_of_true (List.suffix_append _ _) hother

/-- The line of a record is its text and the line end, where the text is cut off after 254 bytes.
Only a text of 255 bytes is not cut off, and has the first half of the line end after it. No line
is longer than 256 bytes. -/
theorem format_terminated :
    (format level target message).bytes =
      (if (textBytes level target message).length ≤ 254 then
        textBytes level target message ++ lineEnd
      else if (textBytes level target message).length = 255 then
        textBytes level target message ++ [0x0D]
      else (textBytes level target message).take 254 ++ lineEnd) ∧
    (lineEnd <:+ (format level target message).bytes ↔
      (textBytes level target message).length ≠ 255) ∧
    (format level target message).bytes.length ≤ 256 := by
  refine ⟨?_, lineEnd_suffix_format level target message, (format level target message).length_le⟩
  rw [bytes_format]
  split
  · rename_i hone
    rw [if_neg (by omega)]
  · split
    · rename_i hshort
      rw [List.take_of_length_le hshort]
    · rfl

/-- A text of 255 bytes is not terminated. -/
theorem format_unterminated :
    let message := String.ofList (List.replicate 245 'x')
    (textBytes .info "t" message).length = 255 ∧
    (format .info "t" message).bytes = textBytes .info "t" message ++ [0x0D] ∧
    ¬lineEnd <:+ (format .info "t" message).bytes := by
  have hlength : (textBytes .info "t" (String.ofList (List.replicate 245 'x'))).length = 255 := by
    rw [textBytes, toList_eq_data]
    decide +kernel
  refine ⟨hlength, ?_, fun hsuffix => ?_⟩
  · rw [bytes_format, if_pos hlength]
  · exact (lineEnd_suffix_format _ _ _).mp hsuffix hlength

end Peripherals.Log
