import Peripherals.Mailbox.Transaction
import Peripherals.Proofs.Run

/-! The other side of the mailbox. The firmware answers the registers and rewrites the buffer in
memory as it likes, and the driver sees the buffer through a data cache, which agrees with the
memory only where it has been written back or discarded. -/

namespace Peripherals.Mailbox

variable {φ α : Type}

open RegisterBlock (read write)

abbrev Buffer := Vector UInt32 bufferWords

theorem one_lt_bufferWords : 1 < bufferWords := by decide

namespace Buffer

/-- The word with which the firmware says how the request went. -/
def code (b : Buffer) : UInt32 := b.get ⟨1, one_lt_bufferWords⟩

theorem getElem?_one (b : Buffer) : b[1]? = some b.code := Vector.getElem?_eq_getElem _

/-- The buffer with `words` stored over its start. -/
def store (b : Buffer) (words : List UInt32) : Buffer :=
  Vector.ofFn fun i => words[i.val]?.getD (b.get i)

theorem getElem?_store (b : Buffer) {words : List UInt32} (hfit : words.length ≤ bufferWords)
    {i : Nat} (hi : i < words.length) : (b.store words)[i]? = words[i]? := by
  have hbuffer : i < bufferWords := by omega
  simp [store, hbuffer, hi]

end Buffer

/-- What is on the firmware's side: what it keeps for itself and the buffer in memory. -/
structure Side (φ : Type) where
  own : φ
  memory : Buffer

/-- The word `i` of the buffer at `base` lies within the `bytes` bytes from `start` on. -/
def Covers (base start : PhysAddr) (bytes i : Nat) : Prop :=
  start.value.toNat ≤ base.value.toNat + 4 * i ∧
    base.value.toNat + 4 * (i + 1) ≤ start.value.toNat + bytes

theorem covers_self {base : PhysAddr} {bytes i : Nat} (h : 4 * (i + 1) ≤ bytes) :
    Covers base base bytes i :=
  ⟨Nat.le_add_right _ _, Nat.add_le_add_left h _⟩

/-- A firmware and a data cache, with the buffer at `base`. The firmware does what it likes at an
access to a register. The cache covers at least the bytes that it is told to, and may do anything to
the others. -/
structure Machine (base : PhysAddr) (φ : Type) where
  read : Register → Side φ → UInt32 × Side φ
  write : Register → UInt32 → Side φ → Side φ
  /-- The buffer in memory once `bytes` bytes from `start` on are written back. -/
  clean : (start : PhysAddr) → (bytes : Nat) → (cached memory : Buffer) → Buffer
  /-- The buffer as the driver sees it once `bytes` bytes from `start` on are discarded. -/
  invalidate : (start : PhysAddr) → (bytes : Nat) → (cached memory : Buffer) → Buffer
  getElem?_clean {start : PhysAddr} {bytes i : Nat} (cached memory : Buffer) :
    Covers base start bytes i → (clean start bytes cached memory)[i]? = cached[i]?
  getElem?_invalidate {start : PhysAddr} {bytes i : Nat} (cached memory : Buffer) :
    Covers base start bytes i → (invalidate start bytes cached memory)[i]? = memory[i]?

/-- The firmware's side, and the buffer as the driver sees it. -/
structure State (φ : Type) where
  side : Side φ
  cached : Buffer

namespace Machine

variable {base : PhysAddr} (M : Machine base φ)

/-- The machine as the driver meets it. There is no answer to an access outside the buffer. -/
def device : Device port (State φ)
  | .read r, s => some ((M.read r s.side).1, { s with side := (M.read r s.side).2 })
  | .write r value, s => some ((), { s with side := M.write r value s.side })
  | .fill words, s =>
    if words.length ≤ bufferWords then some ((), { s with cached := s.cached.store words })
    else none
  | .load i, s => s.cached[i]?.map fun word => (word, s)
  | .clean start bytes, s =>
    some ((), { s with side.memory := M.clean start bytes s.cached s.side.memory })
  | .invalidate start bytes, s =>
    some ((), { s with cached := M.invalidate start bytes s.cached s.side.memory })
  | .syncBarrier, s | .memoryBarrier, s | .note _, s => some ((), s)

/-- Polling `r` until none of `bits` is set takes the firmware's side from `a` to `b`. -/
inductive Clears (r : Register) (bits : UInt32) : Side φ → Side φ → Prop
  | clear {a : Side φ} : (M.read r a).1 &&& bits = 0 → Clears r bits a (M.read r a).2
  | busy {a b : Side φ} :
    (M.read r a).1 &&& bits ≠ 0 → Clears r bits (M.read r a).2 b → Clears r bits a b

/-- `payload` is in the first message on the property channel, and taking the messages from the
inbox up to this one takes the firmware's side from `a` to `b`. -/
inductive Delivers : Side φ → UInt32 → Side φ → Prop
  | ours {a b : Side φ} :
    M.Clears .inboxStatus emptyBit a b → (M.read .inbox b).1 &&& 0xF = propertyChannel →
    Delivers a ((M.read .inbox b).1 >>> 4) (M.read .inbox b).2
  | foreign {a b c : Side φ} {payload : UInt32} :
    M.Clears .inboxStatus emptyBit a b → (M.read .inbox b).1 &&& 0xF ≠ propertyChannel →
    Delivers (M.read .inbox b).2 payload c → Delivers a payload c

variable {M}

theorem Clears.unique {r : Register} {bits : UInt32} {a b c : Side φ} (hb : M.Clears r bits a b)
    (hc : M.Clears r bits a c) : b = c := by
  induction hb with
  | clear hclear =>
    cases hc with
    | clear => rfl
    | busy hbusy _ => exact absurd hclear hbusy
  | busy hbusy _ ih =>
    cases hc with
    | clear hclear => exact absurd hclear hbusy
    | busy _ hrest => exact ih hrest

theorem Delivers.unique {a b c : Side φ} {p q : UInt32} (hb : M.Delivers a p b)
    (hc : M.Delivers a q c) : p = q ∧ b = c := by
  induction hb with
  | ours hclears hours =>
    cases hc with
    | ours hclears' _ =>
      obtain rfl := hclears.unique hclears'
      exact ⟨rfl, rfl⟩
    | foreign hclears' hforeign _ =>
      obtain rfl := hclears.unique hclears'
      exact absurd hours hforeign
  | foreign hclears hforeign _ ih =>
    cases hc with
    | ours hclears' hours =>
      obtain rfl := hclears.unique hclears'
      exact absurd hours hforeign
    | foreign hclears' _ hrest =>
      obtain rfl := hclears.unique hclears'
      exact ih hrest

end Machine

/-! ### Single requests -/

section Requests

variable {base : PhysAddr} {M : Machine base φ} {s : State φ}

@[simp] theorem run_pure (a : α) : (Prog.pure a : Prog port α).run M.device s = some (a, s) := rfl

@[simp] theorem run_read (r : Register) : (read r : Prog port UInt32).run M.device s =
    some ((M.read r s.side).1, { s with side := (M.read r s.side).2 }) := rfl

@[simp] theorem run_write (r : Register) (value : UInt32) :
    (write r value : Prog port Unit).run M.device s =
      some ((), { s with side := M.write r value s.side }) := rfl

theorem run_fill {words : List UInt32} (hfit : words.length ≤ bufferWords) :
    (request (.fill words)).run M.device s =
      some ((), { s with cached := s.cached.store words }) :=
  (Prog.run_request ..).trans (if_pos hfit)

theorem run_load {i : Nat} {word : UInt32} (hword : s.cached[i]? = some word) :
    (request (.load i)).run M.device s = some (word, s) := by
  rw [request, Prog.run_request, Machine.device, hword, Option.map_some]

@[simp] theorem run_clean (start : PhysAddr) (bytes : Nat) :
    ((request (.clean start bytes)).run M.device s : Option (Unit × State φ)) =
      some ((), { s with side.memory := M.clean start bytes s.cached s.side.memory }) := rfl

@[simp] theorem run_invalidate (start : PhysAddr) (bytes : Nat) :
    ((request (.invalidate start bytes)).run M.device s : Option (Unit × State φ)) =
      some ((), { s with cached := M.invalidate start bytes s.cached s.side.memory }) := rfl

@[simp] theorem run_syncBarrier :
    ((request .syncBarrier).run M.device s : Option (Unit × State φ)) = some ((), s) := rfl

@[simp] theorem run_memoryBarrier :
    ((request .memoryBarrier).run M.device s : Option (Unit × State φ)) = some ((), s) := rfl

@[simp] theorem run_note (n : Note) :
    ((request (.note n)).run M.device s : Option (Unit × State φ)) = some ((), s) := rfl

end Requests

/-! ### Polling and receiving -/

section Polling

variable {base : PhysAddr} {M : Machine base φ} {r : Register} {bits : UInt32} {a b : Side φ}
  {cached : Buffer} {s : State φ} {patience messages : Nat} {payload : UInt32}

theorem run_awaitClear :
    (awaitClear r bits (patience + 1)).run M.device ⟨a, cached⟩ =
      if (M.read r a).1 &&& bits = 0 then some ((), ⟨(M.read r a).2, cached⟩)
      else (awaitClear r bits patience).run M.device ⟨(M.read r a).2, cached⟩ := by
  rw [awaitClear, Prog.run_bind]
  simp only [run_read, Option.bind_some]
  split <;> rfl

/-- Polling sees nothing but the status register, and ends where this is clear. -/
theorem clears_of_awaitClear
    (h : (awaitClear r bits patience).run M.device ⟨a, cached⟩ = some ((), s)) :
    ∃ b, s = ⟨b, cached⟩ ∧ M.Clears r bits a b := by
  induction patience generalizing a with
  | zero => cases h
  | succ patience ih =>
    rw [run_awaitClear] at h
    split at h
    case isTrue hclear =>
      cases h
      exact ⟨_, rfl, .clear hclear⟩
    case isFalse hbusy =>
      obtain ⟨b, rfl, hclears⟩ := ih h
      exact ⟨b, rfl, .busy hbusy hclears⟩

theorem awaitClear_of_clears (h : M.Clears r bits a b) :
    ∃ enough, ∀ patience ≥ enough, ∀ cached,
      (awaitClear r bits patience).run M.device ⟨a, cached⟩ = some ((), ⟨b, cached⟩) := by
  induction h with
  | clear hclear =>
    refine ⟨1, fun patience hpatience cached => ?_⟩
    obtain ⟨patience, rfl⟩ := Nat.exists_eq_add_of_le' hpatience
    rw [run_awaitClear, if_pos hclear]
  | busy hbusy _ ih =>
    obtain ⟨enough, hends⟩ := ih
    refine ⟨enough + 1, fun patience hpatience cached => ?_⟩
    obtain ⟨patience, rfl⟩ := Nat.exists_eq_add_of_le' (Nat.le_of_add_left_le hpatience)
    rw [run_awaitClear, if_neg hbusy]
    exact hends patience (by omega) cached

theorem run_receiveWithin
    (h : (awaitClear .inboxStatus emptyBit patience).run M.device ⟨a, cached⟩ =
      some ((), ⟨b, cached⟩)) :
    (receiveWithin patience (messages + 1)).run M.device ⟨a, cached⟩ =
      if (M.read .inbox b).1 &&& 0xF = propertyChannel then
        some ((M.read .inbox b).1 >>> 4, ⟨(M.read .inbox b).2, cached⟩)
      else (receiveWithin patience messages).run M.device ⟨(M.read .inbox b).2, cached⟩ := by
  rw [receiveWithin, Prog.run_bind, h]
  simp only [Option.bind_some, Prog.run_bind, run_read]
  split <;> rfl

theorem delivers_of_receiveWithin
    (h : (receiveWithin patience messages).run M.device ⟨a, cached⟩ = some (payload, s)) :
    ∃ b, s = ⟨b, cached⟩ ∧ M.Delivers a payload b := by
  induction messages generalizing a with
  | zero => cases h
  | succ messages ih =>
    have hparts := h
    rw [receiveWithin] at hparts
    obtain ⟨⟨⟩, s1, hawait, -⟩ := Prog.run_bind_eq_some.mp hparts
    obtain ⟨b, rfl, hclears⟩ := clears_of_awaitClear hawait
    rw [run_receiveWithin hawait] at h
    split at h
    case isTrue hours =>
      cases h
      exact ⟨_, rfl, .ours hclears hours⟩
    case isFalse hforeign =>
      obtain ⟨c, rfl, hdelivers⟩ := ih h
      exact ⟨c, rfl, .foreign hclears hforeign hdelivers⟩

theorem receiveWithin_of_delivers (h : M.Delivers a payload b) :
    ∃ enough, ∀ patience ≥ enough, ∀ messages ≥ enough, ∀ cached,
      (receiveWithin patience messages).run M.device ⟨a, cached⟩ =
        some (payload, ⟨b, cached⟩) := by
  induction h with
  | ours hclears hours =>
    obtain ⟨enough, hends⟩ := awaitClear_of_clears hclears
    refine ⟨enough + 1, fun patience hpatience messages hmessages cached => ?_⟩
    obtain ⟨messages, rfl⟩ := Nat.exists_eq_add_of_le' (Nat.le_of_add_left_le hmessages)
    rw [run_receiveWithin (hends patience (by omega) cached), if_pos hours]
  | foreign hclears hforeign _ ih =>
    obtain ⟨enough, hends⟩ := awaitClear_of_clears hclears
    obtain ⟨enough', hrest⟩ := ih
    -- The same bound serves the polls for each message and the number of messages.
    refine ⟨enough + enough' + 1, fun patience hpatience messages hmessages cached => ?_⟩
    obtain ⟨messages, rfl⟩ := Nat.exists_eq_add_of_le' (Nat.le_of_add_left_le hmessages)
    rw [run_receiveWithin (hends patience (by omega) cached), if_neg hforeign]
    exact hrest patience (by omega) messages (by omega) cached

end Polling

end Peripherals.Mailbox
