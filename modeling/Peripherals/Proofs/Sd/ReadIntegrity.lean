import Peripherals.Proofs.Sd.DataCommand
import Peripherals.Proofs.Word

/-! What a request to read stores: the words that arrive after its last command, and nothing that an
earlier attempt has left. -/

namespace Peripherals.Sd

variable {config : Config} {command : Command} {address timeout sector : UInt32} {count : UInt16}
  {d d' : Driver} {t : History}

/-- The history ends with a command that receives exactly the words `ws`. -/
def EndsReceiving (command : Command) (count : UInt16) (address : UInt32) (ws : List UInt32)
    (t : History) : Prop :=
  ∃ before after, t = before ++ sectorWrites command count address ++ after ∧
    traffic after = ws.map .received

theorem EndsReceiving.append_left {ws : List UInt32} (t1 : History)
    (h : EndsReceiving command count address ws t) :
    EndsReceiving command count address ws (t1 ++ t) := by
  obtain ⟨before, after, rfl, ht⟩ := h
  exact ⟨t1 ++ before, after, by simp, ht⟩

end Peripherals.Sd
