import Peripherals.Proofs.Board.Status
import Peripherals.Proofs.Sd.Operation
import Peripherals.Proofs.Text.Hex

/-! The name of a disk. It is the identification of the card in digits, eight for each of its four
registers, and it always fits where it is written. So a card can be told from any other by the name
that the caller of a control request is given. -/

namespace Peripherals.Board

open Sd
open Text (digits readHex?)

/-- The name is the identification in lower-case digits, eight for each register, the last register
first. -/
structure Spells (cid : Vector UInt32 4) (name : String) : Prop where
  size : name.utf8ByteSize = 32
  length : name.length = 32
  digits : ∀ c ∈ name.toList, c ∈ Text.digits
  registers (i : Nat) (hi : i < 4) :
    readHex? ((name.toList.drop (8 * i)).take 8) = some cid[3 - i].toNat

/-- The name of a card. -/
def cardName (cid : Vector UInt32 4) : String :=
  String.join (cid.toList.reverse.map fun r => Text.hexFixed 8 r.toNat)

variable {cid cid' : Vector UInt32 4} {name name' : String}

theorem Spells.cid_inj (h : Spells cid name) (h' : Spells cid' name) : cid = cid' := by
  ext i hi
  have hread := (h.registers (3 - i) (by omega)).symm.trans (h'.registers (3 - i) (by omega))
  have hplace : 3 - (3 - i) = i := by omega
  simp only [hplace] at hread
  exact Option.some.inj hread

/-- Lists of one length, one after the other, are found again by their place. -/
theorem take_drop_flatMap {α β : Type} {f : α → List β} {k : Nat} (hk : ∀ a, (f a).length = k)
    (l : List α) {i : Nat} (hi : i < l.length) :
    ((l.flatMap f).drop (k * i)).take k = f l[i] := by
  induction l generalizing i with
  | nil => cases hi
  | cons a l ih =>
    rw [List.flatMap_cons]
    cases i with
    | zero => exact List.take_left' (hk a)
    | succ i =>
      have hskip : k * (i + 1) = (f a).length + k * i := by rw [hk, Nat.mul_succ, Nat.add_comm]
      rw [hskip, ← List.drop_drop, List.drop_left]
      exact ih (Nat.lt_of_succ_lt_succ hi)

theorem toList_cardName (cid : Vector UInt32 4) :
    (cardName cid).toList = cid.toList.reverse.flatMap fun r => Text.hexChars 8 r.toNat := by
  rw [cardName, String.toList_join, List.flatMap_map]
  simp only [Text.hexFixed, String.toList_ofList]

theorem spells_cardName (cid : Vector UInt32 4) : Spells cid (cardName cid) := by
  have hdigits : ∀ c ∈ (cardName cid).toList, c ∈ Text.digits := by
    intro c hc
    rw [toList_cardName, List.mem_flatMap] at hc
    obtain ⟨r, -, hc⟩ := hc
    exact Text.mem_digits_of_mem_hexChars hc
  have hlength : (cardName cid).length = 32 := by
    rw [← String.length_toList, toList_cardName, List.length_flatMap]
    simp [Text.length_hexChars]
  refine ⟨?_, hlength, hdigits, fun i hi => ?_⟩
  · rw [← hlength]
    exact Text.utf8ByteSize_of_ascii fun c hc => Text.utf8Size_of_mem_digits (hdigits c hc)
  · have hplace : i < cid.toList.reverse.length := by simpa using hi
    rw [toList_cardName, take_drop_flatMap (fun r => Text.length_hexChars 8 _) _ hplace,
      Text.readHex?_hexChars (UInt32.toNat_lt _)]
    simp

/-- The name of a card fits into its capacity. -/
theorem diskName?_eq (cid : Vector UInt32 4) : diskName? cid = some (cardName cid) := by
  have hfits : (cardName cid).utf8ByteSize ≤ nameCapacity := (spells_cardName cid).size.le
  rw [diskName?, Text.concat?_eq]
  simp only [Text.hexAtLeast_word]
  exact if_pos hfits

/-! ### The answer -/

variable {config : Config} {d d' : Driver} {t : History} {a : Except BiosError IoctlResponse}

/-- What is reported of a gate that has failed. -/
def unready : Except Sd.Error Unit → History
  | .ok () => []
  | .error e => [noteOf (.unready e)]

/-- The answer to the question for the name, after the gate. -/
def nameAnswer (d : Driver) : Except BiosError IoctlResponse :=
  if d.cardRemoved then .error .mediaChanged else .ok (.diskName (cardName d.card.cid))

theorem answerRequest_diskName :
    Runs (answerRequest .diskName) d t a d' ↔ t = [] ∧ a = nameAnswer d ∧ d' = d := by
  rw [answerRequest, runs_get_bind, nameAnswer]
  cases d.cardRemoved with
  | true => exact runs_pure
  | false =>
    simp only [diskName?_eq, Bool.false_eq_true, if_false]
    exact runs_pure

/-- Whether the gate is passed or has failed, what is answered is the name, unless the card is
gone. -/
theorem ioctl_diskName : Runs (ioctl config 0 .diskName) d t a d' ↔
    ∃ t1 r, t = t1 ++ unready r ∧ Acts (ensureDataMode config) d t1 r d' ∧ a = nameAnswer d' := by
  rw [ioctl, if_neg (by simp), runs_bind]
  constructor
  · rintro ⟨t1, t2, r, d1, rfl, hgate, h⟩
    cases r with
    | ok =>
      obtain ⟨rfl, rfl, rfl⟩ := answerRequest_diskName.mp h
      exact ⟨t1, _, rfl, hgate, rfl⟩
    | error e =>
      obtain ⟨t3, rfl, h1⟩ := runs_say_bind.mp h
      obtain ⟨rfl, rfl, rfl⟩ := answerRequest_diskName.mp h1
      exact ⟨t1, _, rfl, hgate, rfl⟩
  · rintro ⟨t1, r, rfl, hgate, rfl⟩
    refine ⟨t1, _, r, d', rfl, hgate, ?_⟩
    cases r with
    | ok => exact answerRequest_diskName.mpr ⟨rfl, rfl, rfl⟩
    | error e => exact runs_say_bind.mpr ⟨[], rfl, answerRequest_diskName.mpr ⟨rfl, rfl, rfl⟩⟩

/-- A name that spells an identification is stored with the zero byte after it. -/
theorem Spells.stored (h : Spells cid name) {arg : List UInt8} (harg : 33 ≤ arg.length) :
    encodeIoctl (.diskName name) arg = (0, name.toUTF8.toList ++ 0 :: arg.drop 33) := by
  have hsize : answerSize (.diskName name) = 33 := congrArg (· + 1) h.size
  rw [encodeIoctl_of_le _ _ (hsize.trans_le harg), hsize, answerBytes, List.append_assoc]
  rfl

theorem Spells.take_stored (h : Spells cid name) {arg : List UInt8} (harg : 33 ≤ arg.length) :
    (encodeIoctl (.diskName name) arg).2.take 33 = name.toUTF8.toList ++ [0] := by
  have hlength : (name.toUTF8.toList ++ [0]).length = 33 := by
    rw [List.length_append, Text.length_toUTF8, h.size]
    rfl
  rw [h.stored harg, ← List.singleton_append, ← List.append_assoc]
  exact List.take_left' hlength

theorem spells_of_diskName? (h : diskName? cid = some name) : Spells cid name := by
  rw [diskName?_eq] at h
  exact Option.some.inj h ▸ spells_cardName cid

/-- Every card has a name, which fits into its capacity, and which the caller is given as it is,
with a zero byte after it. The name is that of no other card. -/
theorem disk_name_lossless (config : Config) :
    (∀ d t r d', Acts (ensureDataMode config) d t r d' → d'.cardRemoved = false →
      ∃ name, diskName? d'.card.cid = some name ∧
        (∃ t', Runs (ioctl config 0 .diskName) d (t ++ t') (.ok (.diskName name)) d') ∧
        ∀ t' a d1, Runs (ioctl config 0 .diskName) d (t ++ t') a d1 →
          a = .ok (.diskName name)) ∧
    (∀ cid, ∃ name, diskName? cid = some name ∧ Spells cid name) ∧
    (∀ cid name arg, diskName? cid = some name → 33 ≤ arg.length →
      encodeIoctl (.diskName name) arg = (0, name.toUTF8.toList ++ 0 :: arg.drop 33)) ∧
    ∀ cid cid' name name' arg arg', diskName? cid = some name → diskName? cid' = some name' →
      33 ≤ arg.length → 33 ≤ arg'.length →
      ((encodeIoctl (.diskName name) arg).2.take 33 =
        (encodeIoctl (.diskName name') arg').2.take 33 ↔ cid = cid') := by
  refine ⟨fun d t r d' hgate hpresent => ?_, fun cid => ⟨_, diskName?_eq cid, spells_cardName cid⟩,
    fun cid name arg hname harg => (spells_of_diskName? hname).stored harg, ?_⟩
  · have hanswer : nameAnswer d' = .ok (.diskName (cardName d'.card.cid)) := by
      rw [nameAnswer, hpresent]
      rfl
    refine ⟨_, diskName?_eq _, ⟨_, ioctl_diskName.mpr ⟨t, r, rfl, hgate, hanswer.symm⟩⟩, ?_⟩
    intro t' a d1 h
    obtain ⟨t1, r1, heq, hgate1, rfl⟩ := ioctl_diskName.mp h
    obtain ⟨-, -, hends⟩ := Prog.Ends.unique hgate hgate1 heq
    obtain ⟨-, rfl⟩ := Prod.mk.inj hends
    exact hanswer
  · intro cid cid' name name' arg arg' hname hname' harg harg'
    have hspells := spells_of_diskName? hname
    have hspells' := spells_of_diskName? hname'
    rw [hspells.take_stored harg, hspells'.take_stored harg', List.append_left_inj, Text.toUTF8_inj]
    constructor
    · rintro rfl
      exact hspells.cid_inj hspells'
    · rintro rfl
      exact Option.some.inj (hname.symm.trans hname')

/-- A card whose registers have few digits, and the one with the registers the other way around. -/
theorem disk_name_lossless_short :
    let cid : Vector UInt32 4 := #v[1, 0, 0xABC, 0xFFFFFFFF]
    let other : Vector UInt32 4 := #v[0xFFFFFFFF, 0xABC, 0, 1]
    let name := "ffffffff00000abc0000000000000001"
    let arg : List UInt8 := List.replicate 40 0xAA
    ∃ d t d', Acts (ensureDataMode {}) d t (.ok ()) d' ∧ d'.cardRemoved = false ∧
      d'.card.cid = cid ∧
      (∃ t', Runs (ioctl {} 0 .diskName) d (t ++ t') (.ok (.diskName name)) d') ∧
      encodeIoctl (.diskName name) arg =
        (0, name.toUTF8.toList ++ 0 :: List.replicate 7 0xAA) ∧
      (encodeIoctl (.diskName (cardName other)) arg).2.take 33 ≠
        (encodeIoctl (.diskName name) arg).2.take 33 := by
  intro cid other name arg
  have hname : diskName? cid = some name := by decide +kernel
  obtain ⟨t, r, d', hgate, hready⟩ : ∃ t r d',
      Runs (ensureDataMode {}).run { card := { rca := 5, cid } } t r d' ∧
        (!d'.cardRemoved && d'.card.cid == cid && (failure? r).isNone) = true :=
    exists_runs (P := fun _ (r : Except Sd.Error Unit) d' =>
      !d'.cardRemoved && d'.card.cid == cid && (failure? r).isNone)
      (by decide +kernel : ((Prog.run (promptCard []) (StateT.run _ _) 0).any _) = true)
  simp only [Bool.and_eq_true, Bool.not_eq_true', beq_iff_eq] at hready
  obtain ⟨⟨hpresent, hcid⟩, hpassed⟩ := hready
  cases r with
  | error e => nomatch hpassed
  | ok =>
    obtain ⟨hanswers, -, hstored, htold⟩ := disk_name_lossless {}
    obtain ⟨answered, hanswered, hruns, -⟩ := hanswers _ t _ d' hgate hpresent
    obtain rfl : name = answered := by
      rw [hcid, hname] at hanswered
      exact Option.some.inj hanswered
    refine ⟨_, t, d', hgate, hpresent, hcid, hruns, hstored cid name arg hname (by decide), ?_⟩
    have hsame := htold other cid _ name arg arg (diskName?_eq _) hname (by decide) (by decide)
    exact hsame.not.mpr (by decide)

end Peripherals.Board
