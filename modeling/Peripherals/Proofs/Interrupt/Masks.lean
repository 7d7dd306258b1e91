import Mathlib.Logic.Function.Basic
import Peripherals.Interrupt.Controller
import Peripherals.Proofs.Total
import Peripherals.Proofs.Word

/-! Which lines a controller leaves unmasked. A line that can be masked has a bit in one of five
words, and masking or unmasking it changes this bit and no other. -/

namespace Peripherals.Interrupt

open Controller (oneBit)
open RegisterBlock (read write)

/-! ### Bits of a word -/

theorem testBit_oneBit {bit : Nat} (hbit : bit < maxWidth) (i : Nat) :
    (oneBit bit).toNat.testBit i = decide (bit = i) := by
  have hone : (oneBit bit).toNat = 2 ^ bit := Word.toNat_one_shiftLeft hbit
  rw [hone, Nat.testBit_two_pow]

/-- A word with one of its bits set or cleared. -/
def assign (word : UInt32) (bit : Nat) (value : Bool) : UInt32 :=
  if value then word ||| oneBit bit else word &&& ~~~oneBit bit

theorem testBit_assign (word : UInt32) {bit : Nat} (hbit : bit < maxWidth) (value : Bool)
    (i : Nat) : (assign word bit value).toNat.testBit i =
      if i = bit then value else word.toNat.testBit i := by
  cases value with
  | true =>
    rw [assign, if_pos rfl, UInt32.toNat_or, Nat.testBit_or, testBit_oneBit hbit]
    grind
  | false =>
    have hone : (oneBit bit).toBitVec.getLsbD i = decide (bit = i) := testBit_oneBit hbit i
    have hlt : word.toBitVec.getLsbD i = true → i < 32 := BitVec.lt_of_getLsbD
    change (word &&& ~~~oneBit bit).toBitVec.getLsbD i =
      if i = bit then false else word.toBitVec.getLsbD i
    rw [UInt32.toBitVec_and, UInt32.toBitVec_not, BitVec.getLsbD_and, BitVec.getLsbD_not, hone]
    grind

theorem clear_all (word : UInt32) : word &&& ~~~0xFFFFFFFF = 0 := by
  have hnone : ~~~(0xFFFFFFFF : UInt32) = 0 := by decide
  rw [hnone, UInt32.and_zero]

/-! ### Words of masks -/

/-- The words in which a controller keeps which lines are unmasked. -/
inductive MaskWord where
  | bank1
  | bank2
  | basic
  | timers
  | mailboxes
  deriving DecidableEq, Repr

abbrev Masks := MaskWord → UInt32

/-- The words after a write to a register. In the main block the bits that are written as one are
set or cleared, and in the core block the word is taken as it is. -/
def Masks.write (masks : Masks) : Register → UInt32 → Masks
  | .main .enable1, value => Function.update masks .bank1 (masks .bank1 ||| value)
  | .main .enable2, value => Function.update masks .bank2 (masks .bank2 ||| value)
  | .main .enableBasic, value => Function.update masks .basic (masks .basic ||| value)
  | .main .disable1, value => Function.update masks .bank1 (masks .bank1 &&& ~~~value)
  | .main .disable2, value => Function.update masks .bank2 (masks .bank2 &&& ~~~value)
  | .main .disableBasic, value => Function.update masks .basic (masks .basic &&& ~~~value)
  | .core .timerControl, value => Function.update masks .timers value
  | .core .mailboxControl, value => Function.update masks .mailboxes value
  | _, _ => masks

/-- The mask word that a register reads as. -/
def MaskWord.ofRegister? : Register → Option MaskWord
  | .core .timerControl => some .timers
  | .core .mailboxControl => some .mailboxes
  | _ => none

namespace Controller

variable {c : Controller} {line : Nat}

/-- The mask word and bit of a line, where the controller can mask it. -/
def maskBit? (c : Controller) (line : Nat) : Option (MaskWord × Nat) :=
  if line < 32 then some (.bank1, line)
  else if line < 64 then some (.bank2, line - 32)
  else if line < 72 then some (.basic, line - 64)
  else if c.hasCore ∧ line < 76 then some (.timers, line - 72)
  else if c.hasCore ∧ line < 80 then some (.mailboxes, line - 76)
  else none

/-- The controller leaves the line unmasked. -/
def unmasked (c : Controller) (masks : Masks) (line : Nat) : Bool :=
  (c.maskBit? line).any fun (w, bit) => (masks w).toNat.testBit bit

theorem maskBit?_isSome : (c.maskBit? line).isSome ↔ line < 72 ∨ c.hasCore ∧ line < 80 := by
  grind [maskBit?]

theorem lt_of_maskBit? {w : MaskWord} {bit : Nat} (h : c.maskBit? line = some (w, bit)) :
    bit < maxWidth := by
  grind [maskBit?, maxWidth]

theorem core_of_maskBit? {w : MaskWord} {bit : Nat} (h : c.maskBit? line = some (w, bit))
    (hw : w = .timers ∨ w = .mailboxes) : c.hasCore ∧ bit < 4 := by
  grind [maskBit?]

theorem maskBit?_inj {other : Nat} {p : MaskWord × Nat} (h : c.maskBit? line = some p)
    (hother : c.maskBit? other = some p) : line = other := by
  grind [maskBit?]

theorem locate_eq (c : Controller) (line : Nat) :
    c.layout.locate line =
      if line < 32 then some (0, line)
      else if line < 64 then some (1, line - 32)
      else if line < 72 then some (2, line - 64)
      else if c.hasCore ∧ line < 84 then some (3, line - 72)
      else none := by
  obtain ⟨_ | _⟩ := c
  · change BankLayout.locateIn [32, 32, 8] line = _
    grind [BankLayout.locateIn]
  · change BankLayout.locateIn [32, 32, 8, 12] line = _
    grind [BankLayout.locateIn]

theorem lineCount_eq (c : Controller) : c.layout.lineCount = if c.hasCore then 84 else 72 := by
  obtain ⟨_ | _⟩ := c
  · rfl
  · rfl

theorem lt_lineCount_of_maskBit? {p : MaskWord × Nat} (h : c.maskBit? line = some p) :
    line < c.layout.lineCount := by
  grind [maskBit?, lineCount_eq]

/-- The lines of the controller that it cannot mask. -/
theorem unmaskable_iff : c.maskBit? line = none ∧ line < c.layout.lineCount ↔
    c.hasCore ∧ 80 ≤ line ∧ line < 84 := by
  grind [maskBit?, lineCount_eq]

/-- The accesses that set or clear a bit of a mask word. -/
def change (bit : Nat) (enable : Bool) : MaskWord → Prog controllerPort Unit
  | .bank1 => write (Register.main (if enable then .enable1 else .disable1)) (oneBit bit)
  | .bank2 => write (Register.main (if enable then .enable2 else .disable2)) (oneBit bit)
  | .basic => write (Register.main (if enable then .enableBasic else .disableBasic)) (oneBit bit)
  | .timers =>
    if enable then RegisterBlock.setBits (Register.core .timerControl) (oneBit bit)
    else RegisterBlock.clearBits (Register.core .timerControl) (oneBit bit)
  | .mailboxes =>
    if enable then RegisterBlock.setBits (Register.core .mailboxControl) (oneBit bit)
    else RegisterBlock.clearBits (Register.core .mailboxControl) (oneBit bit)

/-- The bank and bit of the line with a bit of a mask word. -/
def place (bit : Nat) : MaskWord → Nat × Nat
  | .bank1 => (0, bit)
  | .bank2 => (1, bit)
  | .basic => (2, bit)
  | .timers => (3, bit)
  | .mailboxes => (3, bit + 4)

theorem locate_of_maskBit? {w : MaskWord} {bit : Nat} (h : c.maskBit? line = some (w, bit)) :
    c.layout.locate line = some (place bit w) := by
  rw [locate_eq]
  grind [maskBit?, place]

theorem setLine_eq_change {w : MaskWord} {bit : Nat} (h : c.maskBit? line = some (w, bit))
    (enable : Bool) :
    c.setLine line enable = change bit enable w >>= fun _ => Pure.pure (.ok ()) := by
  rw [setLine, locate_of_maskBit? h]
  cases w with
  | bank1 | bank2 | basic => rfl
  | timers =>
    have hcontrol : coreControl? bit = some (.timerControl, bit) :=
      if_pos (core_of_maskBit? h (.inl rfl)).2
    simp only [place, mainBank?, hcontrol]
    cases enable <;> rfl
  | mailboxes =>
    have hbit : bit < 4 := (core_of_maskBit? h (.inr rfl)).2
    have hcontrol : coreControl? (bit + 4) = some (.mailboxControl, bit) := by
      rw [coreControl?, if_neg (by omega), if_pos (by omega), Nat.add_sub_cancel]
    simp only [place, mainBank?, hcontrol]
    cases enable <;> rfl

/-- The controller makes no access for a line that it cannot mask. -/
theorem setLine_eq_error (h : c.maskBit? line = none) (enable : Bool) :
    c.setLine line enable =
      .pure (.error (if line < c.layout.lineCount then .notSupported else .invalidParameter)) := by
  have hline : ¬(line < 72 ∨ c.hasCore ∧ line < 80) := by simp [← maskBit?_isSome, h]
  have hcount : line < c.layout.lineCount ↔ c.hasCore ∧ line < 84 := by
    grind [lineCount_eq]
  simp only [setLine, locate_eq, if_neg (show ¬line < 32 by omega),
    if_neg (show ¬line < 64 by omega), if_neg (show ¬line < 72 by omega), hcount]
  by_cases hcore : c.hasCore ∧ line < 84
  case pos =>
    have hcontrol : coreControl? (line - 72) = none := by grind [coreControl?]
    simp only [if_pos hcore, mainBank?, hcontrol]
    rfl
  case neg =>
    simp only [if_neg hcore]
    rfl

/-- A bit that changes unmasks or masks its own line and no other. -/
theorem unmasked_update {w : MaskWord} {bit : Nat} (h : c.maskBit? line = some (w, bit))
    (masks : Masks) (enable : Bool) (other : Nat) :
    c.unmasked (Function.update masks w (assign (masks w) bit enable)) other =
      if other = line then enable else c.unmasked masks other := by
  have hbit := lt_of_maskBit? h
  by_cases hsame : other = line
  case pos =>
    subst hsame
    simp [unmasked, h, testBit_assign _ hbit]
  case neg =>
    rw [if_neg hsame]
    cases hother : c.maskBit? other with
    | none => simp [unmasked, hother]
    | some p =>
      obtain ⟨w', bit'⟩ := p
      by_cases hword : w' = w
      · -- Two lines of one word have different bits of it.
        subst hword
        have hne : bit' ≠ bit := by
          rintro rfl
          exact hsame (maskBit?_inj hother h)
        simp [unmasked, hother, testBit_assign _ hbit, hne]
      · simp [unmasked, hother, Function.update_of_ne hword]

/-- No line is unmasked where the words are zero that have bits of lines. -/
theorem unmasked_of_zero {masks : Masks}
    (h : ∀ w, (w = .timers ∨ w = .mailboxes → c.hasCore) → masks w = 0) (line : Nat) :
    c.unmasked masks line = false := by
  cases hline : c.maskBit? line with
  | none => simp [unmasked, hline]
  | some p =>
    obtain ⟨w, bit⟩ := p
    have hzero := h w fun hw => (core_of_maskBit? hline hw).1
    simp [unmasked, hline, hzero]

end Controller

/-! ### The controller on a machine -/

/-- The mask words, and whatever else there is. -/
structure State (φ : Type) where
  masks : Masks
  own : φ

/-- What surrounds a controller. A register other than those of the mask words reads as it likes,
and a handler does what it likes except to the masks. -/
structure Machine (φ H : Type) where
  read : Register → State φ → UInt32 × φ
  write : Register → UInt32 → State φ → φ
  handle : H → State φ → φ

variable {φ H : Type} {M : Machine φ H} {s : State φ}

/-- The machine as the driver of the controller meets it. -/
def Machine.registers (M : Machine φ H) : Device controllerPort (State φ)
  | .read r, s =>
    let (value, own) := M.read r s
    some (((MaskWord.ofRegister? r).map s.masks).getD value, { s with own })
  | .write r value, s => some ((), ⟨s.masks.write r value, M.write r value s⟩)
  | .note _, s => some ((), s)

namespace Controller

variable {c : Controller}

theorem write_reaches (r : Register) (value : UInt32) :
    (write r value : Prog controllerPort Unit).Reaches M.registers s fun _ s' =>
      s'.masks = s.masks.write r value :=
  ⟨(), _, rfl, rfl⟩

theorem change_reaches (w : MaskWord) (bit : Nat) (enable : Bool) :
    (change bit enable w).Reaches M.registers s fun _ s' =>
      s'.masks = Function.update s.masks w (assign (s.masks w) bit enable) := by
  cases w
  all_goals cases enable
  all_goals exact ⟨(), _, rfl, rfl⟩

/-- Unmasking or masking a line that can be masked does this, and changes no other line. -/
theorem setLine_reaches (c : Controller) (line : Nat) (enable : Bool) :
    (c.setLine line enable).Reaches M.registers s fun _ s' =>
      ∀ other, (c.maskBit? other).isSome →
        c.unmasked s'.masks other = if other = line then enable else c.unmasked s.masks other := by
  cases hline : c.maskBit? line with
  | none =>
    -- Nothing changes, and no line that can be masked is this one.
    rw [setLine_eq_error hline]
    refine .pure fun other hother => ?_
    rw [if_neg]
    rintro rfl
    rw [hline] at hother
    nomatch hother
  | some p =>
    obtain ⟨w, bit⟩ := p
    rw [setLine_eq_change hline]
    refine (change_reaches w bit enable).bind fun _ s' hmasks => .pure fun other _ => ?_
    rw [hmasks, unmasked_update hline]

theorem init_reaches (c : Controller) :
    c.init.Reaches M.registers s fun _ s' => ∀ line, c.unmasked s'.masks line = false := by
  refine (write_reaches _ _).bind fun _ s1 h1 => (write_reaches _ _).bind fun _ s2 h2 =>
    (write_reaches _ _).bind fun _ s3 h3 => (write_reaches _ _).bind fun _ s4 h4 => ?_
  by_cases hcore : c.hasCore
  case pos =>
    rw [if_pos hcore]
    refine (write_reaches _ _).bind fun _ s5 h5 => (write_reaches _ _).bind fun _ s6 h6 =>
      ⟨(), s6, rfl, unmasked_of_zero fun w _ => ?_⟩
    rw [h6, h5, h4, h3, h2, h1]
    cases w
    all_goals simp [Masks.write, clear_all]
  case neg =>
    -- The words of the core block are left as they are, and there is no line for their bits.
    rw [if_neg hcore]
    refine ⟨(), s4, rfl, unmasked_of_zero fun w hw => ?_⟩
    rw [h4, h3, h2, h1]
    cases w
    case timers | mailboxes => exact absurd (hw (by simp)) hcore
    all_goals simp [Masks.write, clear_all]

theorem pending_reaches (c : Controller) (bank : Nat) :
    (c.pending bank).Reaches M.registers s fun _ s' => s'.masks = s.masks := by
  rw [pending]
  split
  case h_1 => exact ⟨_, _, rfl, rfl⟩
  case h_2 =>
    split
    case isTrue => exact ⟨_, _, rfl, rfl⟩
    case isFalse => exact .pure rfl

end Controller

end Peripherals.Interrupt
