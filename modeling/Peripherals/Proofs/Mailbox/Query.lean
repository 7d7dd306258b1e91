import Mathlib.Data.List.Basic
import Mathlib.Data.Nat.Bitwise
import Peripherals.Mailbox.Query
import Peripherals.Proofs.Mailbox.Records

/-! What a query comes to. It succeeds exactly if its transaction does and each record that it asks
for comes back with the response bit and a length other than zero. The words of a record are then
those that the firmware has left in the buffer. -/

namespace Peripherals.Mailbox

variable {φ α : Type} {m : Mailbox} {M : Machine m.buffer φ} {tags words : List UInt32}
  {s s' : State φ} {received : UInt32} {b : Side φ} {t : Tag} {memory : Buffer} {place count : Nat}

/-! ### Records of an answer -/

/-- The record at the word `place` of the buffer, with `count` words of value. -/
def Buffer.record (memory : Buffer) (place count : Nat) : Tag where
  id := memory[place]?.getD 0
  size := memory[place + 1]?.getD 0
  length := memory[place + 2]?.getD 0
  value := (List.range count).map fun i => memory[place + 3 + i]?.getD 0

/-- The response bit of the record is set. -/
def Tag.IsResponse (t : Tag) : Prop := t.length.toNat.testBit 31 = true

/-- How many bytes the answer in the record takes. -/
def Tag.answerLength (t : Tag) : Nat := t.length.toNat % 2 ^ 31

/-- The record is an answer with some data. -/
def Tag.IsAnswered (t : Tag) : Prop := t.IsResponse ∧ t.answerLength ≠ 0

instance (t : Tag) : Decidable t.IsResponse := inferInstanceAs (Decidable (_ = true))

instance (t : Tag) : Decidable t.IsAnswered := inferInstanceAs (Decidable (_ ∧ _))

/-- Words that agree with the buffer from `place` on spell the record that is there. -/
theorem Tag.ofWords_eq_record (hlength : words.length = count + 3)
    (hwords : ∀ i < count + 3, words[i]? = memory[place + i]?) :
    t.ofWords words = memory.record place count := by
  have hlist : words = (List.range (count + 3)).map fun i => memory[place + i]?.getD 0 := by
    refine List.ext_getElem? fun i => ?_
    by_cases hi : i < count + 3
    · have hword := hwords i hi
      rw [List.getElem?_eq_getElem (by omega)] at hword
      rw [List.getElem?_map, List.getElem?_range hi, Option.map_some, ← hword, Option.getD_some,
        List.getElem?_eq_getElem]
    · rw [List.getElem?_eq_none (by omega), List.getElem?_eq_none (by simpa using hi)]
  rw [hlist, List.range_succ_eq_map, List.range_succ_eq_map, List.range_succ_eq_map]
  simp only [List.map_cons, List.map_map]
  refine congrArg (Tag.mk _ _ _) (List.map_congr_left fun i _ => ?_)
  have hplace : place + (i + 1 + 1 + 1) = place + 3 + i := by omega
  exact congrArg (fun k => memory[k]?.getD 0) hplace

/-! ### The test of a record -/

theorem Tag.isResponse_iff : t.IsResponse ↔ t.length &&& responseBit ≠ 0 := by
  have hbit : responseBit.toNat = 2 ^ 31 := by decide
  rw [IsResponse, ne_eq, ← UInt32.toNat_inj, UInt32.toNat_and, hbit, Nat.and_two_pow]
  cases t.length.toNat.testBit 31 <;> simp

theorem Tag.toNat_answerLength (t : Tag) :
    (t.length &&& ~~~responseBit).toNat = t.answerLength :=
  toNat_and_not_responseBit t.length

theorem Tag.answerLength_of_not_isResponse (h : ¬t.IsResponse) :
    t.length.toNat = t.answerLength := by
  have hlt := t.length.toNat_lt
  rw [IsResponse, Nat.testBit_eq_decide_div_mod_eq, decide_eq_true_iff] at h
  rw [answerLength]
  omega

theorem Tag.answerLength_eq_zero_iff : t.answerLength = 0 ↔ t.length &&& ~~~responseBit = 0 := by
  rw [← UInt32.toNat_inj, t.toNat_answerLength]
  rfl

/-- What a query for the record `asked` comes to, where its transaction comes to `outcome` and the
firmware has left the record `answer`: the result of the query and the record after it. -/
structure Concludes (asked answer : Tag) (outcome result : Except Error Unit) (after : Tag) :
    Prop where
  ok_iff : result = .ok () ↔ outcome = .ok () ∧ answer.IsAnswered
  notAResponse_iff : result = .error .notAResponse ↔ outcome = .ok () ∧ ¬answer.IsResponse
  emptyResponse_iff : result = .error .emptyResponse ↔
    outcome = .ok () ∧ answer.IsResponse ∧ answer.answerLength = 0
  failed : ∀ e, outcome = .error e → result = .error e ∧ after = asked
  answered : outcome = .ok () → after.id = answer.id ∧ after.size = answer.size ∧
    after.length.toNat = answer.answerLength ∧ after.value = answer.value

namespace Concludes

variable {asked answer : Tag}

theorem of_failed {e : Error} (hresponse : e ≠ .notAResponse) (hempty : e ≠ .emptyResponse) :
    Concludes asked answer (.error e) (.error e) asked where
  ok_iff := by simp
  notAResponse_iff := by simpa using hresponse
  emptyResponse_iff := by simpa using hempty
  failed _ h := ⟨h, rfl⟩
  answered h := nomatch h

/-- The test of a record tells the four ways apart. -/
theorem of_done :
    Concludes asked answer (.ok ()) answer.checkResponse.1 answer.checkResponse.2 := by
  by_cases hresponse : answer.IsResponse
  case neg =>
    have hcheck : answer.checkResponse = (.error .notAResponse, answer) :=
      if_pos (not_not.mp (mt Tag.isResponse_iff.mpr hresponse))
    rw [hcheck]
    exact ⟨by simp [Tag.IsAnswered, hresponse], by simp [hresponse], by simp [hresponse], nofun,
      fun _ => ⟨rfl, rfl, Tag.answerLength_of_not_isResponse hresponse, rfl⟩⟩
  rw [Tag.checkResponse, if_neg (Tag.isResponse_iff.mp hresponse)]
  have hlength := answer.toNat_answerLength
  by_cases hempty : answer.answerLength = 0
  · rw [if_pos (Tag.answerLength_eq_zero_iff.mp hempty)]
    exact ⟨by simp [Tag.IsAnswered, hempty], by simp [hresponse], by simp [hresponse, hempty],
      nofun, fun _ => ⟨rfl, rfl, hlength, rfl⟩⟩
  · rw [if_neg (mt Tag.answerLength_eq_zero_iff.mpr hempty)]
    exact ⟨by simp [Tag.IsAnswered, hresponse, hempty], by simp [hresponse], by simp [hempty],
      nofun, fun _ => ⟨rfl, rfl, hlength, rfl⟩⟩

end Concludes

/-! ### Programs with one transaction -/

/-- The firmware makes room for the message of a transaction over `tags`. Then `received` is the
first payload that it answers with, and `b` is its side once this is taken. -/
def Machine.Answers (m : Mailbox) (M : Machine m.buffer φ) (tags : List UInt32) (s : State φ)
    (received : UInt32) (b : Side φ) : Prop :=
  ∃ a, M.Clears .outboxStatus fullBit (M.handed tags s) a ∧
    M.Delivers (M.write .outbox (encodeMessage m.payload) a) received b

/-- What comes of a program that makes a transaction over `tags`, which is answered with `received`.
With enough patience it ends. Where it ends, its transaction has settled, and `Q` relates the
outcome of this and the result. -/
def Machine.Settled (m : Mailbox) (M : Machine m.buffer φ) (tags : List UInt32) (s : State φ)
    (received : UInt32) (b : Side φ) (p : Mailbox → Prog port α)
    (Q : Except Error Unit → α → Prop) : Prop :=
  ∃ enough, ∀ patience, let m := { m with patience }
    (enough ≤ patience → ((p m).run M.device s).isSome) ∧
    ∀ result s', (p m).run M.device s = some (result, s') → s'.side = b ∧
      ∃ outcome words, (m.transactInPlace tags).run M.device s = some ((outcome, words), s') ∧
        Settles m.payload tags received b.memory outcome words ∧ Q outcome result

theorem Machine.Answers.settled {p : Mailbox → Prog port α} {Q : Except Error Unit → α → Prop}
    {f : Except Error Unit × List UInt32 → α} (h : M.Answers m tags s received b)
    (hfit : Mailbox.requestWords tags ≤ bufferWords)
    (hp : ∀ m : Mailbox, p m = m.transactInPlace tags >>= fun r => .pure (f r))
    (hQ : ∀ outcome words, Settles m.payload tags received b.memory outcome words →
      Q outcome (f (outcome, words))) : M.Settled m tags s received b p Q := by
  obtain ⟨a, hclears, hdelivers⟩ := h
  obtain ⟨enough, hends⟩ := run_isSome_of_delivers hfit hclears hdelivers
  refine ⟨enough, fun patience => ⟨fun hpatience => ?_, fun result s' hrun => ?_⟩⟩
  · obtain ⟨⟨r, s'⟩, htransaction⟩ := Option.isSome_iff_exists.mp (hends patience hpatience)
    rw [hp, Prog.run_bind, htransaction]
    rfl
  · rw [hp] at hrun
    obtain ⟨⟨outcome, words⟩, s1, htransaction, hpure⟩ := Prog.run_bind_eq_some.mp hrun
    cases hpure
    obtain ⟨a', received', hclears', hdelivers', hsettles⟩ :=
      settles_of_run (m := { m with patience }) hfit htransaction
    obtain rfl := hclears.unique hclears'
    obtain ⟨rfl, rfl⟩ := hdelivers.unique hdelivers'
    exact ⟨rfl, outcome, words, htransaction, hsettles, hQ outcome words hsettles⟩

theorem Settles.error_cases {sent : UInt32} {e : Error}
    (h : Settles sent tags received memory (.error e) words) :
    e = .addressMismatch sent received ∨ e = .badResponseStatus memory.code := by
  by_cases hechoed : received = sent
  · by_cases hcode : memory.code = successCode
    · cases h.done hechoed hcode
    · exact .inr (Except.error.inj (h.refused hechoed hcode))
  · exact .inl (Except.error.inj (h.mismatch hechoed))

/-! ### One record -/

/-- The result of a query for the record `asked` and the record after it, by the outcome of the
transaction and the words that are there after it. -/
def Tag.concluded (asked : Tag) : Except Error Unit × List UInt32 → Except Error Unit × Tag
  | (.error e, _) => (.error e, asked)
  | (.ok (), words) => (asked.ofWords words).checkResponse

theorem getTag_eq (m : Mailbox) (id : UInt32) (tag : Tag) (requestLength : UInt32) :
    m.getTag id tag requestLength =
      m.transactInPlace (tag.prepare id requestLength).words >>= fun r =>
        .pure ((tag.prepare id requestLength).concluded r) := by
  rw [Mailbox.getTag, Mailbox.transact, Prog.bind_assoc]
  refine bind_congr fun r => ?_
  obtain ⟨_ | _, words⟩ := r <;> rfl

theorem requestWords_prepare (id : UInt32) (tag : Tag) (requestLength : UInt32) :
    Mailbox.requestWords (tag.prepare id requestLength).words = tag.value.length + 6 := by
  simp only [Mailbox.requestWords, headerWords, Tag.prepare, Tag.words, List.length_cons]
  omega

/-- The answer to a query for one record is looked for behind the two words of the header. -/
theorem Tag.concludes {asked : Tag} {outcome : Except Error Unit} {sent : UInt32}
    (h : Settles sent asked.words received memory outcome words) :
    Concludes asked (memory.record 2 asked.value.length) outcome
      (asked.concluded (outcome, words)).1 (asked.concluded (outcome, words)).2 := by
  cases outcome with
  | error e => obtain rfl | rfl := h.error_cases <;> exact .of_failed nofun nofun
  | ok =>
    have hrecord : asked.ofWords words = memory.record 2 asked.value.length :=
      Tag.ofWords_eq_record h.length_eq fun i hi => h.answered rfl i hi
    rw [concluded, hrecord]
    exact .of_done

/-! ### Two records -/

/-- What a query for the split of the memory comes to, where its transaction comes to `outcome` and
the firmware has left the records `arm` and `graphics` in the buffer. -/
structure Splits (arm graphics : Tag) (outcome : Except Error Unit)
    (result : Except Error MemoryLayout) : Prop where
  ok_iff : (∃ layout, result = .ok layout) ↔
    outcome = .ok () ∧ arm.IsAnswered ∧ graphics.IsAnswered
  value : ∀ layout, result = .ok layout → arm.value = [layout.armBase, layout.armSize] ∧
    graphics.value = [layout.vcBase, layout.vcSize]

def armAsked : Tag := Tag.prepare { value := [0, 0] } TagId.processorMemory 8

def graphicsAsked : Tag := Tag.prepare { value := [0, 0] } TagId.graphicsMemory 8

/-- The words of the records with which the split of the memory is asked for. -/
def layoutTags : List UInt32 := armAsked.words ++ graphicsAsked.words

/-- The split of the memory by the records of an answer. -/
def layoutOf (arm graphics : Tag) : Except Error MemoryLayout := do
  arm.checkResponse.1
  graphics.checkResponse.1
  .ok ⟨arm.checkResponse.2.value[0]?.getD 0, arm.checkResponse.2.value[1]?.getD 0,
    graphics.checkResponse.2.value[0]?.getD 0, graphics.checkResponse.2.value[1]?.getD 0⟩

/-- The result of a query for the split of the memory. -/
def layoutConcluded : Except Error Unit × List UInt32 → Except Error MemoryLayout
  | (.error e, _) => .error e
  | (.ok (), words) =>
    layoutOf (armAsked.ofWords (words.take 5)) (graphicsAsked.ofWords (words.drop 5))

theorem memoryLayout_eq (m : Mailbox) :
    m.memoryLayout = m.transactInPlace layoutTags >>= fun r => .pure (layoutConcluded r) := by
  rw [Mailbox.memoryLayout, Mailbox.transact, Prog.bind_assoc]
  refine bind_congr fun r => ?_
  obtain ⟨_ | _, words⟩ := r <;> rfl

theorem layoutOf_eq_ok {arm graphics : Tag} {layout : MemoryLayout} :
    layoutOf arm graphics = .ok layout ↔ arm.IsAnswered ∧ graphics.IsAnswered ∧
      layout = ⟨arm.value[0]?.getD 0, arm.value[1]?.getD 0, graphics.value[0]?.getD 0,
        graphics.value[1]?.getD 0⟩ := by
  have harm : Concludes arm arm (.ok ()) _ _ := .of_done
  have hgraphics : Concludes graphics graphics (.ok ()) _ _ := .of_done
  have harmOk := harm.ok_iff
  have hgraphicsOk := hgraphics.ok_iff
  rw [layoutOf, (harm.answered rfl).2.2.2, (hgraphics.answered rfl).2.2.2]
  simp only [true_and] at harmOk hgraphicsOk
  rw [← harmOk, ← hgraphicsOk]
  cases arm.checkResponse.1 with
  | error => simp [bind, Except.bind]
  | ok =>
    cases graphics.checkResponse.1 with
    | error => simp [bind, Except.bind]
    | ok => simp [bind, Except.bind, eq_comm]

theorem splits_layoutOf {arm graphics : Tag} (harm : arm.value.length = 2)
    (hgraphics : graphics.value.length = 2) :
    Splits arm graphics (.ok ()) (layoutOf arm graphics) := by
  constructor
  · simp [layoutOf_eq_ok]
  · intro layout hlayout
    obtain ⟨-, -, rfl⟩ := layoutOf_eq_ok.mp hlayout
    obtain ⟨base, size, hvalue⟩ := List.length_eq_two.mp harm
    obtain ⟨base', size', hvalue'⟩ := List.length_eq_two.mp hgraphics
    simp [hvalue, hvalue']

theorem splits_of_settles {outcome : Except Error Unit} {sent : UInt32}
    (h : Settles sent layoutTags received memory outcome words) :
    Splits (memory.record 2 2) (memory.record 7 2) outcome (layoutConcluded (outcome, words)) := by
  cases outcome with
  | error e => exact ⟨by simp [layoutConcluded], nofun⟩
  | ok =>
    have hlength : words.length = 10 := h.length_eq
    have harm : armAsked.ofWords (words.take 5) = memory.record 2 2 := by
      refine Tag.ofWords_eq_record (by simp [hlength]) fun i hi => ?_
      rw [List.getElem?_take_of_lt hi]
      exact h.answered rfl i (Nat.lt_of_lt_of_le hi (by decide))
    have hgraphics : graphicsAsked.ofWords (words.drop 5) = memory.record 7 2 := by
      refine Tag.ofWords_eq_record (by simp [hlength]) fun i hi => ?_
      rw [List.getElem?_drop, h.answered rfl (5 + i) (Nat.add_lt_add_left hi 5), ← Nat.add_assoc]
    rw [layoutConcluded, harm, hgraphics]
    exact splits_layoutOf (by simp [Buffer.record]) (by simp [Buffer.record])

/-! ### Queries -/

/-- A query for one record succeeds exactly if its transaction does and the record comes back with
the response bit and a length other than zero, and the record is then as the firmware has left it.
Without the response bit it fails as not answered, with the bit and no length as empty. Where the
transaction fails the record keeps its value, under the header of the request. The query for the
split of the memory succeeds exactly if its transaction does and both records pass the same test,
and has one half of its answer from each of them. -/
theorem queries_answered (m : Mailbox) (M : Machine m.buffer φ) (s : State φ) :
    (∀ (id : UInt32) (tag : Tag) (requestLength : UInt32),
      let asked := tag.prepare id requestLength
      let query (m : Mailbox) := m.getTag id tag requestLength
      asked.value = tag.value ∧
      (1018 < tag.value.length → (query m).requests M.device s = [] ∧
        (query m).run M.device s = some ((.error .tooLarge, asked), s)) ∧
      (tag.value.length ≤ 1018 → ∀ received b, M.Answers m asked.words s received b →
        M.Settled m asked.words s received b query fun outcome (result, after) =>
          Concludes asked (b.memory.record 2 tag.value.length) outcome result after)) ∧
    (∀ received b, M.Answers m layoutTags s received b →
      M.Settled m layoutTags s received b Mailbox.memoryLayout fun outcome result =>
        Splits (b.memory.record 2 2) (b.memory.record 7 2) outcome result) := by
  refine ⟨fun id tag requestLength => ⟨rfl, fun hlong => ?_, fun hshort received b hanswers => ?_⟩,
    fun received b hanswers => ?_⟩
  · have hbuffer : bufferWords < Mailbox.requestWords (tag.prepare id requestLength).words := by
      rw [requestWords_prepare]
      exact Nat.add_lt_add_right hlong 6
    simp only [getTag_eq, Mailbox.transactInPlace, if_pos hbuffer]
    exact ⟨rfl, rfl⟩
  · refine hanswers.settled ?_ (fun m => getTag_eq m id tag requestLength)
      fun outcome words => Tag.concludes
    rw [requestWords_prepare]
    exact Nat.add_le_add_right hshort 6
  · exact hanswers.settled (by decide) memoryLayout_eq fun outcome words => splits_of_settles

/-- The code of a success, eight bytes as the length of the records at the words 2 and 7, and each
other word as its place. -/
def numberedWord (i : Nat) : UInt32 :=
  if i = 1 then successCode else if i = 4 ∨ i = 9 then 0x80000008 else UInt32.ofNat i

def numbered : Buffer := Vector.ofFn fun i => numberedWord i

theorem getElem?_numbered {i : Nat} (hi : i < bufferWords) :
    numbered[i]? = some (numberedWord i) := by
  simp [numbered, hi]

theorem code_numbered : numbered.code = successCode :=
  Option.some.inj (numbered.getElem?_one.symm.trans (getElem?_numbered one_lt_bufferWords))

theorem record_numbered (place count : Nat) (hfit : place + 3 + count ≤ bufferWords) :
    numbered.record place count =
      ⟨numberedWord place, numberedWord (place + 1), numberedWord (place + 2),
        (List.range count).map fun i => numberedWord (place + 3 + i)⟩ := by
  have hword {i : Nat} (hi : i < bufferWords) : numbered[i]?.getD 0 = numberedWord i := by
    rw [getElem?_numbered hi, Option.getD_some]
  rw [Buffer.record, hword (by omega), hword (by omega), hword (by omega)]
  refine congrArg (Tag.mk _ _ _) (List.map_congr_left fun i hi => hword ?_)
  rw [List.mem_range] at hi
  omega

/-- A firmware that leaves these words in the buffer and echoes the message. -/
def numbering : Machine ⟨0x4000⟩ (List UInt32) :=
  { incrementing with
    write
      | .outbox, message, s => ⟨s.own ++ [message], numbered⟩
      | _, _, s => s }

theorem numbering_delivers (message : UInt32) (memory : Buffer)
    (hours : message &&& 0xF = propertyChannel) :
    numbering.Delivers (numbering.write .outbox message ⟨[], memory⟩) (message >>> 4)
      ⟨[], numbered⟩ :=
  .ours (.clear UInt32.zero_and) hours

/-- The rate of a clock and the split of the memory. -/
theorem queries_answered_numbered :
    let s : State (List UInt32) := ⟨⟨[], Vector.replicate _ 0xFF⟩, Vector.replicate _ 0xEE⟩
    ∃ patience s1 s2,
      (Mailbox.getTag ⟨⟨0x4000⟩, 0xC0000000, patience⟩ TagId.clockRate { value := [1, 0] } 4).run
        numbering.device s = some ((.ok (), ⟨2, 3, 8, [5, 6]⟩), s1) ∧
      (Mailbox.memoryLayout ⟨⟨0x4000⟩, 0xC0000000, patience⟩).run numbering.device s =
        some (.ok ⟨5, 6, 10, 11⟩, s2) := by
  intro s
  let m : Mailbox := ⟨⟨0x4000⟩, 0xC0000000, 0⟩
  have hechoed : encodeMessage m.payload >>> 4 = m.payload := by decide
  have hanswers (tags : List UInt32) : numbering.Answers m tags s _ _ :=
    ⟨_, .clear UInt32.zero_and, numbering_delivers (encodeMessage m.payload) _ (by decide)⟩
  obtain ⟨hquery, hlayout⟩ := queries_answered m numbering s
  obtain ⟨enough, hquery⟩ :=
    (hquery TagId.clockRate { value := [1, 0] } 4).2.2 (by decide) _ _ (hanswers _)
  obtain ⟨enough', hlayout⟩ := hlayout _ _ (hanswers _)
  obtain ⟨hends, hquery⟩ := hquery (enough + enough')
  obtain ⟨hends', hlayout⟩ := hlayout (enough + enough')
  obtain ⟨⟨⟨result, after⟩, s1⟩, hrun⟩ := Option.isSome_iff_exists.mp (hends (by omega))
  obtain ⟨⟨result', s2⟩, hrun'⟩ := Option.isSome_iff_exists.mp (hends' (by omega))
  obtain ⟨-, outcome, words, -, hsettles, hconcludes⟩ := hquery _ _ hrun
  obtain ⟨-, outcome', words', -, hsettles', hsplits⟩ := hlayout _ _ hrun'
  obtain rfl := hsettles.done hechoed code_numbered
  obtain rfl := hsettles'.done hechoed code_numbered
  have hanswer : numbered.record 2 2 = ⟨2, 3, 0x80000008, [5, 6]⟩ := record_numbered 2 2 (by decide)
  have hsecond : numbered.record 7 2 = ⟨7, 8, 0x80000008, [10, 11]⟩ :=
    record_numbered 7 2 (by decide)
  refine ⟨enough + enough', s1, s2, ?_, ?_⟩
  · have hconcludes : Concludes _ (numbered.record 2 2) (.ok ()) result after := hconcludes
    rw [hanswer] at hconcludes
    obtain rfl := hconcludes.ok_iff.mpr ⟨rfl, by decide⟩
    obtain ⟨hid, hsize, hlength, hvalue⟩ := hconcludes.answered rfl
    have hlength : after.length = 8 := UInt32.toNat_inj.mp (hlength.trans (by decide))
    cases after
    cases hid
    cases hsize
    cases hlength
    cases hvalue
    exact hrun
  · have hsplits : Splits (numbered.record 2 2) (numbered.record 7 2) (.ok ()) result' := hsplits
    rw [hanswer, hsecond] at hsplits
    obtain ⟨⟨armBase, armSize, vcBase, vcSize⟩, rfl⟩ :=
      hsplits.ok_iff.mpr ⟨rfl, by decide, by decide⟩
    obtain ⟨harm, hgraphics⟩ := hsplits.value _ rfl
    cases harm
    cases hgraphics
    exact hrun'

end Peripherals.Mailbox
