/-
When a master streams at nobody (`reac_empty_master`).

Two facts, each acted on at once: a master that had a box and gave it up, and a
master that has courted for the quiet time with not one box frame.  The watcher
is pure; the poll reads the two facts and acts on the answer.
-/
import Mathlib.Tactic.Common

namespace ReacPw

/-- How long a courting master waits with not one box frame. -/
def reacEmptyMasterQuietNs : Nat := 2 * 1000000000

structure ReacEmptyMaster where
  /-- The box-frame count at the last step. -/
  rxLast : UInt64
  /-- When it last moved, or when the watch began. -/
  movedNs : Nat
  /-- The master has been past PROBING since the watch began. -/
  wasPast : Bool
  deriving DecidableEq, Repr

def ReacEmptyMaster.zeroed : ReacEmptyMaster := { rxLast := 0, movedNs := 0, wasPast := false }

/-- The watch of a master that has just opened. -/
def reacEmptyMasterInit (now : Nat) (rxBoxFrames : UInt64) : ReacEmptyMaster :=
  { rxLast := rxBoxFrames, movedNs := now, wasPast := false }

/-- One poll, and whether the master is streaming at nobody. -/
def reacEmptyMasterStep (e : ReacEmptyMaster) (now : Nat) (rxBoxFrames : UInt64)
    (pastProbing : Bool) : ReacEmptyMaster × Bool :=
  let moved := rxBoxFrames != e.rxLast
  let e := { e with rxLast := rxBoxFrames, movedNs := if moved then now else e.movedNs }
  if pastProbing then ({ e with wasPast := true, movedNs := now }, false)
  else if e.wasPast then (e, true)
  else (e, decide (reacEmptyMasterQuietNs ≤ now - e.movedNs))

/-- **What one poll can do.**  A master past PROBING is noted; one that is not any more,
or that has been quiet, is empty. -/
theorem reacEmptyMasterStep_cases (e : ReacEmptyMaster) (now : Nat) (rx : UInt64) (past : Bool) :
    (past = true ∧ reacEmptyMasterStep e now rx past =
      ({ rxLast := rx, movedNs := now, wasPast := true }, false)) ∨
    (past = false ∧ (reacEmptyMasterStep e now rx past).1 =
        { rxLast := rx, movedNs := if rx = e.rxLast then e.movedNs else now,
          wasPast := e.wasPast } ∧
      ((reacEmptyMasterStep e now rx past).2 = true ↔
        e.wasPast = true ∨
          reacEmptyMasterQuietNs ≤ now - (if rx = e.rxLast then e.movedNs else now))) := by
  cases past with
  | true => exact Or.inl ⟨rfl, rfl⟩
  | false =>
      refine Or.inr ⟨rfl, ?_, ?_⟩
      · cases hp : e.wasPast <;> simp [reacEmptyMasterStep, hp]
      · cases hp : e.wasPast <;> simp [reacEmptyMasterStep, hp]

end ReacPw
