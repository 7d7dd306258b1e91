import Mathlib.Data.List.Sort
import Mathlib.Data.Nat.Bitwise
import Peripherals.Proofs.Interrupt.Layout
import Peripherals.Proofs.Interrupt.Table

/-! Which line a dispatch serves. The lines whose bits are set within the masks of their banks are
gone through in ascending order, up to the first one that has a handler. The lines before it are
masked, whether or not the controller allows it. -/

namespace Peripherals.Interrupt

/-! ### Pending lines -/

section Lines

variable {l : BankLayout} {words : Nat → UInt32} {word : UInt32} {bank other line i n : Nat}

/-- The line has a bit in the word of a bank, within the mask of the bank, and the bit is set. -/
def IsPending (l : BankLayout) (words : Nat → UInt32) (line : Nat) : Prop :=
  ∃ bank bit, bank < l.bankCount ∧ line = l.base bank + bit ∧
    (words bank &&& l.mask bank).toNat.testBit bit = true

/-- A bit that is set within the mask of a bank is the bit of a line. -/
theorem lt_width_of_testBit (h : (word &&& l.mask bank).toNat.testBit i = true) :
    i < l.width bank := by
  rw [UInt32.toNat_and, Nat.testBit_and, l.testBit_mask, Bool.and_eq_true, decide_eq_true_iff] at h
  exact h.2

theorem mem_setBits : i ∈ setBits word ↔ word.toNat.testBit i = true := by
  have hlt : word.toBitVec.getLsbD i = true → i < 32 := BitVec.lt_of_getLsbD
  simp only [setBits, List.mem_filter, List.mem_range, maxWidth]
  exact ⟨fun h => h.2, fun h => ⟨hlt h, h⟩⟩

theorem setBits_ascending (word : UInt32) : (setBits word).Pairwise (· < ·) :=
  List.pairwise_lt_range.filter _

/-- The words of `n` banks from `bank` on, within their masks. -/
def maskedWords (l : BankLayout) (words : Nat → UInt32) (bank n : Nat) : List UInt32 :=
  (List.range' bank n).map fun b => words b &&& l.mask b

theorem pendingLines_succ (l : BankLayout) (words : Nat → UInt32) (bank n : Nat) :
    pendingLines l bank (maskedWords l words bank (n + 1)) =
      (setBits (words bank &&& l.mask bank)).map (l.base bank + ·) ++
        pendingLines l (bank + 1) (maskedWords l words (bank + 1) n) := by
  rw [maskedWords, List.range'_succ, List.map_cons, pendingLines]
  rfl

theorem mem_pendingLines : line ∈ pendingLines l bank (maskedWords l words bank n) ↔
    ∃ b bit, (bank ≤ b ∧ b < bank + n) ∧ line = l.base b + bit ∧
      (words b &&& l.mask b).toNat.testBit bit = true := by
  induction n generalizing bank with
  | zero =>
    constructor
    · intro h
      cases h
    · rintro ⟨b, bit, hb, -⟩
      omega
  | succ n ih =>
    rw [pendingLines_succ, List.mem_append, ih, List.mem_map]
    constructor
    · rintro (⟨bit, hbit, rfl⟩ | ⟨b, bit, hb, rfl, hbit⟩)
      · exact ⟨bank, bit, by omega, rfl, mem_setBits.mp hbit⟩
      · exact ⟨b, bit, by omega, rfl, hbit⟩
    · rintro ⟨b, bit, hb, rfl, hbit⟩
      by_cases hfirst : b = bank
      · subst hfirst
        exact .inl ⟨bit, mem_setBits.mpr hbit, rfl⟩
      · exact .inr ⟨b, bit, by omega, rfl, hbit⟩

/-- Each line comes once, and the lines of a bank come before those of the next. -/
theorem pendingLines_ascending (l : BankLayout) (words : Nat → UInt32) (bank n : Nat) :
    (pendingLines l bank (maskedWords l words bank n)).Pairwise (· < ·) := by
  induction n generalizing bank with
  | zero => exact List.Pairwise.nil
  | succ n ih =>
    rw [pendingLines_succ, List.pairwise_append]
    refine ⟨?_, ih (bank + 1), ?_⟩
    · rw [List.pairwise_map]
      exact (setBits_ascending _).imp fun h => by omega
    · intro first hfirst later hlater
      obtain ⟨bit, hbit, rfl⟩ := List.mem_map.mp hfirst
      obtain ⟨b, bit', ⟨hb, -⟩, rfl, -⟩ := mem_pendingLines.mp hlater
      have hwidth := lt_width_of_testBit (mem_setBits.mp hbit)
      have hbase := l.base_mono hb
      rw [l.base_succ] at hbase
      omega

theorem mem_pendingLines_iff : line ∈ pendingLines l 0 (maskedWords l words 0 l.bankCount) ↔
    IsPending l words line := by
  simp [mem_pendingLines, IsPending]

/-- The places of the ones of a word, by taking the lowest and clearing it until none is left. -/
inductive LowestFirst : UInt32 → List Nat → Prop
  | none : LowestFirst 0 []
  | next {word : UInt32} {places : List Nat} : word ≠ 0 →
    LowestFirst (word &&& (word - 1)) places →
    LowestFirst word (word.toBitVec.ctz.toNat :: places)

/-- The lowest one of a word, as a factor of the word. -/
theorem exists_lowest (hword : word ≠ 0) : ∃ higher, word.toNat =
    2 ^ (word.toBitVec.ctz.toNat + 1) * higher + 2 ^ word.toBitVec.ctz.toNat := by
  have hbits : word.toBitVec ≠ 0#32 := fun h => hword (UInt32.toBitVec_inj.mp h)
  have hbit : word.toNat.testBit word.toBitVec.ctz.toNat = true :=
    BitVec.getLsbD_true_ctz_of_ne_zero hbits
  have hbelow : word.toNat % 2 ^ word.toBitVec.ctz.toNat = 0 := by
    apply Nat.eq_of_testBit_eq
    intro i
    rw [Nat.testBit_mod_two_pow, Nat.zero_testBit, Bool.and_eq_false_imp]
    intro hlt
    exact BitVec.getLsbD_false_of_lt_ctz (of_decide_eq_true hlt)
  rw [Nat.testBit_eq_decide_div_mod_eq, decide_eq_true_iff] at hbit
  refine ⟨word.toNat / 2 ^ word.toBitVec.ctz.toNat / 2, ?_⟩
  have hhalf := Nat.div_add_mod (word.toNat / 2 ^ word.toBitVec.ctz.toNat) 2
  have hwhole := Nat.div_add_mod word.toNat (2 ^ word.toBitVec.ctz.toNat)
  rw [hbit] at hhalf
  rw [hbelow, ← hhalf, Nat.mul_add, Nat.mul_one] at hwhole
  rw [Nat.pow_succ, Nat.mul_assoc]
  omega

/-- The predecessor of a word has the bits of the word above the lowest one, and not that one. -/
theorem testBit_clearLowest (hword : word ≠ 0) :
    (word &&& (word - 1)).toNat.testBit i =
      (word.toNat.testBit i && decide (i ≠ word.toBitVec.ctz.toNat)) := by
  obtain ⟨higher, hlowest⟩ := exists_lowest hword
  have hpos := Nat.two_pow_pos word.toBitVec.ctz.toNat
  have hlt : 2 ^ word.toBitVec.ctz.toNat < 2 ^ (word.toBitVec.ctz.toNat + 1) :=
    Nat.pow_lt_pow_right (by decide) (by omega)
  have hpred : (word - 1).toNat =
      2 ^ (word.toBitVec.ctz.toNat + 1) * higher + (2 ^ word.toBitVec.ctz.toNat - 1) := by
    have hone : (1 : UInt32) ≤ word := by
      rw [UInt32.le_iff_toNat_le, hlowest]
      show 1 ≤ _
      omega
    rw [UInt32.toNat_sub_of_le _ _ hone, hlowest]
    show _ - 1 = _
    omega
  rw [UInt32.toNat_and, Nat.testBit_and, hpred, hlowest, Nat.testBit_two_pow_mul_add _ hlt,
    Nat.testBit_two_pow_mul_add _ (by omega)]
  split
  case isTrue hlow =>
    rw [Nat.testBit_two_pow, Nat.testBit_two_pow_sub_one]
    simp only [decide_eq_decide, ← Bool.decide_and]
    omega
  case isFalse hhigh =>
    have hne : i ≠ word.toBitVec.ctz.toNat := by omega
    simp [hne]

/-- The lowest one comes first, then those that are left when it is cleared. -/
theorem setBits_eq_cons (hword : word ≠ 0) :
    setBits word = word.toBitVec.ctz.toNat :: setBits (word &&& (word - 1)) := by
  refine List.Pairwise.eq_of_mem_iff (setBits_ascending word) ?_ fun i => ?_
  · refine List.pairwise_cons.mpr ⟨fun i hi => ?_, setBits_ascending _⟩
    rw [mem_setBits, testBit_clearLowest hword, Bool.and_eq_true, decide_eq_true_iff] at hi
    -- Below the lowest one there is none.
    refine Nat.lt_of_le_of_ne (Nat.le_of_not_lt fun hlt => ?_) hi.2.symm
    exact absurd hi.1 (Bool.eq_false_iff.mp (BitVec.getLsbD_false_of_lt_ctz hlt))
  · rw [List.mem_cons, mem_setBits, mem_setBits, testBit_clearLowest hword, Bool.and_eq_true,
      decide_eq_true_iff]
    constructor
    · intro hi
      exact (em (i = word.toBitVec.ctz.toNat)).imp id fun hne => ⟨hi, hne⟩
    · rintro (rfl | hi)
      · exact BitVec.getLsbD_true_ctz_of_ne_zero fun h => hword (UInt32.toBitVec_inj.mp h)
      · exact hi.1

theorem setBits_lowestFirst (word : UInt32) : LowestFirst word (setBits word) := by
  -- Each round of the walk takes one place off the list.
  induction hplaces : setBits word generalizing word with
  | nil =>
    by_cases hword : word = 0
    · subst hword
      exact .none
    · rw [setBits_eq_cons hword] at hplaces
      nomatch hplaces
  | cons place places ih =>
    have hword : word ≠ 0 := by
      rintro rfl
      nomatch hplaces
    rw [setBits_eq_cons hword] at hplaces
    obtain ⟨rfl, hrest⟩ := List.cons.inj hplaces
    exact .next hword (ih _ hrest)

end Lines

/-! ### What a dispatch requests -/

namespace Dispatcher

variable {H : Type} {d : Dispatcher H} {t : List (Exchange (dispatchPort H))} {result : Option Nat}

/-- The pending word of a bank is sampled. -/
def sampled (words : Nat → UInt32) (bank : Nat) : Exchange (dispatchPort H) :=
  ⟨.pending bank, words bank⟩

/-- A line is reported and masked. Where the controller refuses, that is reported as well. -/
inductive Masks (line : Nat) : List (Exchange (dispatchPort H)) → Prop
  | masked : Masks line [⟨.note (.spurious line), ()⟩, ⟨.disable line, .ok ()⟩]
  | refused (e : DeviceError) : Masks line
    [⟨.note (.spurious line), ()⟩, ⟨.disable line, .error e⟩, ⟨.note (.cannotMask line), ()⟩]

/-- The lines are masked, each once and in this order. -/
inductive MasksEach : List Nat → List (Exchange (dispatchPort H)) → Prop
  | nil : MasksEach [] []
  | cons {line : Nat} {lines : List Nat} {first rest : List (Exchange (dispatchPort H))} :
    Masks line first → MasksEach lines rest → MasksEach (line :: lines) (first ++ rest)

/-- The banks are sampled one after another, each once. -/
theorem sample_ends {layout : BankLayout} {bank n : Nat} {masked : List UInt32}
    (h : (sample layout (List.range' bank n)).Ends t masked) :
    ∃ words : Nat → UInt32, t = (List.range' bank n).map (sampled words) ∧
      masked = maskedWords layout words bank n := by
  induction n generalizing bank t masked with
  | zero =>
    obtain ⟨rfl, rfl⟩ := Prog.ends_pure.mp h
    exact ⟨fun _ => 0, rfl, rfl⟩
  | succ n ih =>
    rw [List.range'_succ] at h ⊢
    obtain ⟨_, _, (word : UInt32), rfl, h1, h2⟩ := Prog.ends_bind.mp h
    obtain rfl := Prog.ends_request.mp h1
    obtain ⟨_, _, rest, rfl, hrest, h3⟩ := Prog.ends_bind.mp h2
    obtain ⟨rfl, rfl⟩ := Prog.ends_pure.mp h3
    obtain ⟨words, rfl, rfl⟩ := ih hrest
    have hkept : ∀ b ∈ List.range' (bank + 1) n, Function.update words bank word b = words b := by
      intro b hb
      have hlater := (List.mem_range'_1.mp hb).1
      have hne : b ≠ bank := by omega
      exact Function.update_of_ne hne word words
    refine ⟨Function.update words bank word, ?_, ?_⟩
    · rw [List.map_cons, sampled, Function.update_self, List.append_nil]
      refine congrArg _ (List.map_congr_left fun b hb => ?_)
      rw [sampled, sampled, hkept b hb]
    · rw [maskedWords, maskedWords, List.range'_succ, List.map_cons, Function.update_self]
      refine congrArg _ (List.map_congr_left fun b hb => ?_)
      rw [hkept b hb]

theorem serve_masks {line : Nat} {lines : List Nat} (hline : d.handler? line = none)
    (h : (d.serve (line :: lines)).Ends t result) :
    ∃ first rest, t = first ++ rest ∧ Masks line first ∧ (d.serve lines).Ends rest result := by
  simp only [serve, hline] at h
  obtain ⟨_, _, ⟨⟩, rfl, h1, h2⟩ := Prog.ends_bind.mp h
  obtain rfl := Prog.ends_request.mp h1
  obtain ⟨_, _, answer, rfl, h3, h4⟩ := Prog.ends_bind.mp h2
  obtain rfl := Prog.ends_request.mp h3
  -- The lines behind follow either way.
  cases answer with
  | error e =>
    obtain ⟨_, rest, ⟨⟩, rfl, h5, h6⟩ := Prog.ends_bind.mp h4
    obtain rfl := Prog.ends_request.mp h5
    exact ⟨_, rest, rfl, .refused e, h6⟩
  | ok => exact ⟨[_, _], _, rfl, .masked, h4⟩

/-- The lines up to the first one with a handler are masked, and that handler is run. -/
theorem serve_ends {lines : List Nat} (h : (d.serve lines).Ends t result) :
    ∃ spurious masked, MasksEach spurious masked ∧ (∀ line ∈ spurious, d.handler? line = none) ∧
      ((∃ line handler later, lines = spurious ++ line :: later ∧ d.handler? line = some handler ∧
          result = some line ∧ t = masked ++ [⟨.handle handler, ()⟩]) ∨
        lines = spurious ∧ result = none ∧ t = masked) := by
  induction lines generalizing t with
  | nil =>
    obtain ⟨rfl, rfl⟩ := Prog.ends_pure.mp h
    exact ⟨[], [], .nil, by simp, .inr ⟨rfl, rfl, rfl⟩⟩
  | cons line lines ih =>
    cases hline : d.handler? line with
    | some handler =>
      simp only [serve, hline] at h
      obtain ⟨_, _, ⟨⟩, rfl, h1, h2⟩ := Prog.ends_bind.mp h
      obtain rfl := Prog.ends_request.mp h1
      obtain ⟨rfl, rfl⟩ := Prog.ends_pure.mp h2
      exact ⟨[], [], .nil, by simp, .inl ⟨line, handler, lines, rfl, hline, rfl, rfl⟩⟩
    | none =>
      obtain ⟨first, rest, rfl, hfirst, hrest⟩ := serve_masks hline h
      obtain ⟨spurious, masked, hmasked, hnone, hend⟩ := ih hrest
      refine ⟨line :: spurious, first ++ masked, .cons hfirst hmasked,
        List.forall_mem_cons.mpr ⟨hline, hnone⟩, ?_⟩
      obtain ⟨served, handler, later, rfl, hserved, rfl, rfl⟩ | ⟨rfl, rfl, rfl⟩ := hend
      · exact .inl ⟨served, handler, later, rfl, hserved, rfl, (List.append_assoc ..).symm⟩
      · exact .inr ⟨rfl, rfl, rfl⟩

theorem sample_ensures (layout : BankLayout) (banks : List Nat) :
    (sample (H := H) layout banks).Ensures (fun _ => True) fun _ => True := by
  induction banks with
  | nil => exact .pure trivial
  | cons bank rest ih =>
    exact .op trivial fun word => ih.bind fun _ _ _ _ => .pure trivial

theorem serve_ensures (d : Dispatcher H) (lines : List Nat) :
    (d.serve lines).Ensures (fun _ => True) fun _ => True := by
  induction lines with
  | nil => exact .pure trivial
  | cons line lines ih =>
    rw [serve]
    split
    case h_1 => exact .op trivial fun _ => .pure trivial
    case h_2 =>
      refine .op trivial fun _ => .op trivial fun answer => ?_
      cases answer with
      | error e => exact .op trivial fun _ => ih
      | ok => exact ih

/-- A dispatch samples every bank once. Of the pending lines it serves the first that has a handler,
runs no other, and masks the pending lines before it, or all of them where none has a handler. A
line past the end of the table has none, and a line that cannot be masked stops nothing. -/
theorem dispatch_serves (d : Dispatcher H) :
    d.dispatch.Ensures (fun _ => True) (fun _ => True) ∧
    (∀ line, d.handlers.size ≤ line → d.handler? line = none) ∧
    ∀ t result, d.dispatch.Ends t result → ∃ words spurious masked,
      spurious.Pairwise (· < ·) ∧ MasksEach spurious masked ∧
      ((∃ line handler, IsPending d.layout words line ∧ d.handler? line = some handler ∧
          (∀ other, IsPending d.layout words other → other < line → d.handler? other = none) ∧
          (∀ other, other ∈ spurious ↔ IsPending d.layout words other ∧ other < line) ∧
          result = some line ∧
          t = (List.range d.layout.bankCount).map (sampled words) ++
            (masked ++ [⟨.handle handler, ()⟩])) ∨
        (∀ line, IsPending d.layout words line → d.handler? line = none) ∧
          (∀ line, line ∈ spurious ↔ IsPending d.layout words line) ∧ result = none ∧
          t = (List.range d.layout.bankCount).map (sampled words) ++ masked) := by
  refine ⟨(sample_ensures _ _).bind fun _ _ _ _ => serve_ensures d _,
    fun _ => handler?_eq_none, ?_⟩
  intro t result h
  obtain ⟨_, later, masked, rfl, hsample, hserve⟩ := Prog.ends_bind.mp h
  rw [List.range_eq_range'] at hsample ⊢
  obtain ⟨words, rfl, rfl⟩ := sample_ends hsample
  obtain ⟨spurious, masked, hmasked, hnone, hend⟩ := serve_ends hserve
  have hascending := pendingLines_ascending d.layout words 0 d.layout.bankCount
  refine ⟨words, spurious, masked, ?_⟩
  obtain ⟨line, handler, later, hlines, hserved, rfl, rfl⟩ | ⟨rfl, rfl, rfl⟩ := hend
  · have hpending : ∀ other, IsPending d.layout words other ↔
        other ∈ spurious ∨ other = line ∨ other ∈ later := by
      intro other
      rw [← mem_pendingLines_iff, hlines, List.mem_append, List.mem_cons]
    rw [hlines, List.pairwise_append, List.pairwise_cons] at hascending
    obtain ⟨hbefore, ⟨hbehind, -⟩, hbelow⟩ := hascending
    -- A pending line with a smaller number is one of those that were masked.
    have hspurious : ∀ other, other ∈ spurious ↔ IsPending d.layout words other ∧ other < line := by
      intro other
      rw [hpending]
      constructor
      · intro hother
        exact ⟨.inl hother, hbelow other hother line List.mem_cons_self⟩
      · rintro ⟨hother | rfl | hother, hlt⟩
        · exact hother
        · exact absurd hlt (lt_irrefl _)
        · exact absurd hlt (lt_asymm (hbehind other hother))
    refine ⟨hbefore, hmasked, .inl ⟨line, handler, (hpending line).mpr (.inr (.inl rfl)), hserved,
      fun other hother hlt => hnone other ((hspurious other).mpr ⟨hother, hlt⟩), hspurious, rfl,
      rfl⟩⟩
  · have hspurious : ∀ line, line ∈ pendingLines d.layout 0
        (maskedWords d.layout words 0 d.layout.bankCount) ↔ IsPending d.layout words line :=
      fun _ => mem_pendingLines_iff
    exact ⟨hascending, hmasked, .inr ⟨fun line hline => hnone line ((hspurious line).mpr hline),
      hspurious, rfl, rfl⟩⟩

/-- A controller on which lines 5 and 33 are pending, with bits set past the lines of the last bank,
and that masks no line. -/
def refusing : Device (dispatchPort Nat) Unit
  | .pending bank, _ => some (([0x20, 0x2, 0x300] : List UInt32)[bank]?.getD 0, ())
  | .enable _, _ | .disable _, _ => some (.error .notSupported, ())
  | .init, _ | .handle _, _ | .note _, _ => some ((), ())

theorem dispatch_serves_refused : ∃ words spurious masked,
    MasksEach spurious masked ∧
    (∀ line, line ∈ spurious ↔ IsPending mainLayout words line ∧ line < 33) ∧
    (((empty mainLayout 40).enter 33 (some 7)).dispatch.requests refusing ()) =
      (List.range 3).map (sampled words) ++ (masked ++ [⟨.handle 7, ()⟩]) := by
  have hrun : ((empty mainLayout 40).enter 33 (some 7)).dispatch.run refusing () =
    some (some 33, ()) := by decide +kernel
  obtain ⟨-, -, hends⟩ := dispatch_serves ((empty mainLayout 40).enter 33 (some 7))
  obtain ⟨words, spurious, masked, -, hmasked, ⟨line, handler, -, hserved, -, hbelow, hline, ht⟩ |
    ⟨-, -, hnone, -⟩⟩ := hends _ _ (Prog.ends_of_run hrun)
  · obtain rfl := Option.some.inj hline
    rw [handler?_enter (by decide), if_pos rfl] at hserved
    obtain rfl := Option.some.inj hserved
    exact ⟨words, spurious, masked, hmasked, hbelow, ht⟩
  · nomatch hnone

end Dispatcher

end Peripherals.Interrupt
