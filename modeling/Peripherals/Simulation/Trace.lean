import Peripherals.Simulation.Digest
import Peripherals.Text.Hex

/-! Traces of what a program does to its machine. Equal entries that follow one another are kept as
one entry with a count, and accesses to a data port in one direction as one entry with a digest. -/

namespace Peripherals.Simulation

/-- Accesses to a data port that have followed one another. -/
structure PortRun where
  toCard : Bool
  count : Nat
  digest : UInt32

/-- A trace in the making: the entries so far with their counts, the newest first, and the accesses
to the data port that are under way. -/
structure Trace where
  entries : List (String × Nat) := []
  run : Option PortRun := none

namespace Trace

/-- Adds an entry, or counts it where it is the same as the last. -/
def record (t : Trace) (entry : String) : Trace :=
  match t.entries with
  | (last, count) :: rest =>
    if last = entry then { t with entries := (last, count + 1) :: rest }
    else { t with entries := (entry, 1) :: t.entries }
  | [] => { t with entries := [(entry, 1)] }

/-- Ends the accesses to the data port that are under way. -/
def flush (t : Trace) : Trace :=
  match t.run with
  | none => t
  | some r =>
    let name := if r.toCard then "Fw*" else "Fr*"
    { t with run := none }.record
      (name ++ toString r.count ++ ":" ++ Text.hexFixed 8 r.digest.toNat)

def push (t : Trace) (entry : String) : Trace := t.flush.record entry

/-- Adds an access to the data port. -/
def port (t : Trace) (toCard : Bool) (word : UInt32) : Trace :=
  let fresh : PortRun := ⟨toCard, 1, Digest.addWord Digest.start word⟩
  match t.run with
  | some r =>
    if r.toCard = toCard then
      { t with run := some ⟨toCard, r.count + 1, Digest.addWord r.digest word⟩ }
    else
      { t.flush with run := some fresh }
  | none => { t with run := some fresh }

/-- The text of the entries, the oldest first. -/
def lines (t : Trace) : List String :=
  t.flush.entries.reverse.map fun (entry, count) =>
    if count = 1 then entry else entry ++ "*" ++ toString count

end Trace

/-- The text of a read of the register at `offset`. -/
def readEntry (offset : Nat) (value : UInt32) : String :=
  "r" ++ Text.hexAtLeast 2 offset ++ "=" ++ Text.hexFixed 8 value.toNat

/-- The text of a write of the register at `offset`. -/
def writeEntry (offset : Nat) (value : UInt32) : String :=
  "w" ++ Text.hexAtLeast 2 offset ++ "=" ++ Text.hexFixed 8 value.toNat

end Peripherals.Simulation
