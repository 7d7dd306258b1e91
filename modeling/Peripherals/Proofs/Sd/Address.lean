import Peripherals.Proofs.Sd.Enumeration

/-! The address of a card in the course of commands. It stays as long as the card is not removed,
and a card that is known to be removed has none. -/

namespace Peripherals.Sd

variable {config : Config} {command : Command} {argument timeout : UInt32} {data : Transfer}
  {d d' : Driver} {t : History}

/-- The address of the card stays unless the card is removed, and a removal stays noticed. -/
structure UnlessRemoved (d : Driver) (_ : History) (d' : Driver) : Prop where
  removed : d.cardRemoved = true → d'.cardRemoved = true
  address : d'.cardRemoved = false → d'.card.rca = d.card.rca

theorem UnlessRemoved.present (h : UnlessRemoved d t d') (hd : d'.cardRemoved = false) :
    d.cardRemoved = false := by
  cases hremoved : d.cardRemoved with
  | false => rfl
  | true => rw [h.removed hremoved] at hd; exact hd

theorem keepsIssue_unlessRemoved : KeepsIssue UnlessRemoved where
  refl _ := ⟨id, fun _ => rfl⟩
  trans h1 h2 :=
    ⟨fun h => h2.removed (h1.removed h), fun h => (h2.address h).trans (h1.address (h2.present h))⟩
  quiet _ _ _ := ⟨id, fun _ => rfl⟩
  last _ _ := ⟨id, fun _ => rfl⟩
  command _ _ := ⟨id, fun _ => rfl⟩
  received _ _ := ⟨id, fun _ => rfl⟩
  noticed _ := ⟨fun _ => rfl, nofun⟩
  acknowledged _ _ _ := ⟨id, fun _ => rfl⟩
  forgotten _ hd := ⟨id, fun h => absurd hd (Bool.eq_false_iff.mp h)⟩

/-- A card that is known to be removed has no address. -/
def Forgotten (d : Driver) : Prop := d.cardRemoved = true → d.card.rca = 0

/-- Whatever becomes of a command, a card that is known to be removed has no address after it. -/
theorem issue_forgotten {r : Except Error Unit}
    (h : Acts (issue command argument timeout data) d t r d') (hd : Forgotten d) :
    Forgotten d' := by
  intro hremoved
  rcases issue_cases h with ⟨-, hlast | hzero⟩ | hpresent
  · rw [hlast] at hremoved ⊢
    exact hd hremoved
  · exact hzero
  · simp [hpresent] at hremoved

/-- The address of the card stays unless the card is removed, and then it is forgotten. -/
structure KeepsAddress (d : Driver) (t : History) (d' : Driver) : Prop
    extends UnlessRemoved d t d' where
  forgotten : Forgotten d → Forgotten d'

theorem KeepsAddress.rca (h : KeepsAddress d t d') (hd : d.cardRemoved = false) :
    d'.card.rca = if d'.cardRemoved then 0 else d.card.rca := by
  cases hremoved : d'.cardRemoved with
  | false => exact h.address hremoved
  | true => exact h.forgotten (fun h1 => by simp [hd] at h1) hremoved

theorem KeepsAddress.zero (h : KeepsAddress d t d') (hd : d.card.rca = 0) : d'.card.rca = 0 := by
  cases hremoved : d'.cardRemoved with
  | false => exact (h.address hremoved).trans hd
  | true => exact h.forgotten (fun _ => hd) hremoved

theorem keepsCard_address : KeepsCard KeepsAddress where
  refl _ := ⟨⟨id, fun _ => rfl⟩, id⟩
  trans h1 h2 :=
    ⟨keepsIssue_unlessRemoved.trans h1.toUnlessRemoved h2.toUnlessRemoved,
      fun h => h2.forgotten (h1.forgotten h)⟩
  quiet _ _ _ := ⟨⟨id, fun _ => rfl⟩, id⟩
  issue hdata command argument timeout d t r d' hx := by
    have hunless : UnlessRemoved d t d' :=
      (keepsIssue_unlessRemoved.issue (by simp [hdata]) command argument timeout).acts hx
    exact ⟨hunless, issue_forgotten hx⟩
  card _ _ hc := ⟨⟨id, fun _ => hc⟩, fun hd h => hc.trans (hd h)⟩

theorem keepsClear_address : KeepsClear KeepsAddress where
  toKeepsQuiet := keepsCard_address.toKeepsQuiet
  cleared _ := ⟨⟨id, fun _ => rfl⟩, id⟩

theorem prepareCard_address {r : Except Error Unit} (h : Acts (prepareCard config) d t r d') :
    KeepsAddress d t d' :=
  (keepsClear_address.prepareCard keepsCard_address
    (keepsCard_address.readScr fun _ _ => ⟨⟨id, fun _ => rfl⟩, id⟩) config).acts h

end Peripherals.Sd
