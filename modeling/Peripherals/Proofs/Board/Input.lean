import Peripherals.Board.System
import Peripherals.Proofs.Input.Reception

/-! The input side of a board. Its tasks take bytes in and hand bytes out, in any order. What they
hand out, and what they report, is what comes of an input side by itself. -/

namespace Peripherals.Board

open Input (InputStep Overrun Reception reception)

variable {α β : Type} {s : System} {b : Board} {r : Reception}

/-- Key bytes and MIDI bytes that are handed out. -/
abbrev Handed := List UInt8 × List UInt8

def inputTask : InputStep → Task Handed
  | .receive byte => do
    receiveKeyboard byte
    pure ([], [])
  | .receiveMidi byte => do
    receiveMidi byte
    pure ([], [])
  | .popKey => do
    let byte ← popKey
    pure (byte.toList, [])
  | .popMidi => do
    let byte ← popMidi
    pure ([], byte.toList)

def inputTasks : (steps : List InputStep) → Task Handed
  | [] => pure ([], [])
  | step :: steps => do
    let (keys, midi) ← inputTask step
    let (keys', midi') ← inputTasks steps
    pure (keys ++ keys', midi ++ midi')

/-- The system once its board, which is `b` otherwise, has the input side `r`. -/
def System.withInput (s : System) (b : Board) (r : Reception) : System :=
  { s with board := some { b with keyboard := r.keyboard, queues := r.queues } }

/-- Reports the overruns, and ends with `a`. -/
def telling (a : α) : (overruns : List Overrun) → Prog port α
  | [] => .pure a
  | o :: overruns => .op (.note (.input o)) fun _ => telling a overruns

theorem telling_bind {a : α} {c : β} {first rest : List Overrun} {k : α → Prog port β}
    (h : k a = telling c rest) : telling a first >>= k = telling c (first ++ rest) := by
  induction first with
  | nil => exact h
  | cons o first ih => exact congrArg (Prog.op _) (funext fun _ => ih)

theorem telling_map {a : α} {c : β} {overruns : List Overrun} {k : α → Prog port β}
    (h : k a = .pure c) : telling a overruns >>= k = telling c overruns := by
  have hbind : telling a overruns >>= k = telling c (overruns ++ []) := telling_bind h
  rwa [List.append_nil] at hbind

/-! ### One step -/

/-- What a step hands out. -/
def handed (r : Reception) : InputStep → Handed
  | .popKey => (r.queues.popKey.1.toList, [])
  | .popMidi => ([], r.queues.popMidi.1.toList)
  | .receive _ | .receiveMidi _ => ([], [])

/-- What a step reports. -/
def overrun? (r : Reception) : InputStep → Option Overrun
  | .receive byte => (r.keyboard.receive byte).2.bind fun e => (r.queues.deliver e).2
  | .receiveMidi byte => (r.queues.pushMidi byte).2
  | .popKey | .popMidi => none

theorem keepQueues_run (b : Board) (queues : Input.Queues) (overrun : Option Overrun) :
    (keepQueues b queues overrun).run s =
      telling ((), { s with board := some { b with queues } }) overrun.toList := by
  cases overrun with
  | none | some => rfl

theorem receiveKeyboard_run (byte : UInt8) :
    (receiveKeyboard byte).run (s.withInput b r) =
      telling ((), s.withInput b (r.after (.receive byte)))
        (overrun? r (.receive byte)).toList := by
  simp only [receiveKeyboard, StateT.run_bind, StateT.run_get, Prog.pure_eq, Prog.pure_bind,
    System.withInput, Reception.after, overrun?]
  cases r.keyboard.receive byte with
  | mk keyboard event =>
    cases event with
    | none => rfl
    | some e => exact keepQueues_run _ _ _

/-- The task for a step does to a board what the step does to an input side by itself. -/
theorem inputTask_run (step : InputStep) :
    (inputTask step).run (s.withInput b r) =
      telling (handed r step, s.withInput b (r.after step)) (overrun? r step).toList := by
  cases step with
  | receive byte =>
    rw [inputTask, StateT.run_bind, receiveKeyboard_run]
    exact telling_map rfl
  | receiveMidi byte =>
    rw [inputTask, StateT.run_bind]
    exact (congrArg (· >>= _) (keepQueues_run _ _ _)).trans (telling_map rfl)
  | popKey | popMidi => rfl

/-- From `r` on to `r'`, these bytes are taken out, and these overruns reported. -/
structure Advances (r r' : Reception) (given : Handed) (overruns : List Overrun) : Prop where
  keys : r'.keys = r.keys ++ given.1
  midi : r'.midi = r.midi ++ given.2
  overruns : r'.overruns = r.overruns ++ overruns

namespace Advances

variable {r' r'' : Reception} {given given' : Handed} {overruns overruns' : List Overrun}

theorem refl (r : Reception) : Advances r r ([], []) [] where
  keys := (List.append_nil _).symm
  midi := (List.append_nil _).symm
  overruns := (List.append_nil _).symm

theorem trans (h : Advances r r' given overruns) (h' : Advances r' r'' given' overruns') :
    Advances r r'' (given.1 ++ given'.1, given.2 ++ given'.2) (overruns ++ overruns') where
  keys := by rw [h'.keys, h.keys, List.append_assoc]
  midi := by rw [h'.midi, h.midi, List.append_assoc]
  overruns := by rw [h'.overruns, h.overruns, List.append_assoc]

theorem keep (r : Reception) (kept : Input.Queues × Option Overrun) :
    Advances r (r.keep kept) ([], []) kept.2.toList where
  keys := (List.append_nil _).symm
  midi := (List.append_nil _).symm
  overruns := rfl

theorem after (step : InputStep) :
    Advances r (r.after step) (handed r step) (overrun? r step).toList := by
  cases step with
  | receive byte =>
    simp only [Reception.after, overrun?, handed]
    cases r.keyboard.receive byte with
    | mk keyboard event =>
      -- The bytes and the overruns of an input side do not depend on its keyboard.
      cases event with
      | none => exact ⟨(refl r).keys, (refl r).midi, (refl r).overruns⟩
      | some e =>
        have hkept := keep { r with keyboard } (r.queues.deliver e)
        exact ⟨hkept.keys, hkept.midi, hkept.overruns⟩
  | receiveMidi byte => exact keep r (r.queues.pushMidi byte)
  | popKey => exact ⟨rfl, (List.append_nil _).symm, (List.append_nil _).symm⟩
  | popMidi => exact ⟨(List.append_nil _).symm, rfl, (List.append_nil _).symm⟩

end Advances

/-! ### Whole runs -/

theorem inputTasks_advance (steps : List InputStep) : ∃ given overruns,
    Advances r (steps.foldl Reception.after r) given overruns ∧
    (inputTasks steps).run (s.withInput b r) =
      telling (given, s.withInput b (steps.foldl Reception.after r)) overruns := by
  induction steps generalizing r with
  | nil => exact ⟨([], []), [], .refl r, rfl⟩
  | cons step steps ih =>
    obtain ⟨given, overruns, hadvances, hrun⟩ := ih (r := r.after step)
    refine ⟨_, _, (Advances.after step).trans hadvances, ?_⟩
    rw [inputTasks, StateT.run_bind, inputTask_run]
    refine telling_bind ?_
    rw [StateT.run_bind, hrun]
    exact telling_map rfl

/-- On a board that has taken nothing in yet, the tasks hand out the bytes that are taken out of its
input side, and report the overruns, in their order. They never wait, and change nothing else. -/
theorem inputTasks_run (steps : List InputStep) :
    (inputTasks steps).run (s.withInput b {}) =
      telling (((reception steps).keys, (reception steps).midi),
        s.withInput b (reception steps)) (reception steps).overruns := by
  obtain ⟨given, overruns, ⟨hkeys, hmidi, hoverruns⟩, hrun⟩ :=
    inputTasks_advance (s := s) (b := b) (r := {}) steps
  rw [hrun, reception, hkeys, hmidi, hoverruns]
  rfl

/-- Without a board, all bytes are lost. -/
theorem inputTasks_absent (h : s.board = none) (steps : List InputStep) :
    (inputTasks steps).run s = .pure (([], []), s) := by
  have hstep (step : InputStep) : (inputTask step).run s = .pure (([], []), s) := by
    cases step with
    | receive | receiveMidi | popKey | popMidi =>
      simp only [inputTask, receiveKeyboard, receiveMidi, popKey, popMidi, StateT.run_bind,
        StateT.run_get, Prog.pure_eq, Prog.pure_bind, h]
      rfl
  induction steps with
  | nil => rfl
  | cons step steps ih =>
    rw [inputTasks, StateT.run_bind, hstep, Prog.pure_bind, StateT.run_bind, ih]
    rfl

end Peripherals.Board
