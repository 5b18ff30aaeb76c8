/-
A segment's pair of nodes on its one ladder (`reac_node_recover_step_pair`).

The ladder counts ticks on which the segment is not whole; the verdict beside its answer
names the sides that are gone, with the reason of one that is.
-/
import ReacPw.Autodetect

namespace ReacPw

/-- One poll of the pair: who is on the graph, and the reasons. -/
structure PairTick where
  srcOnGraph : Bool
  srcWhy : Option Text
  sinkOnGraph : Bool
  sinkWhy : Option Text
  deriving DecidableEq, Repr

structure NodePairVerdict where
  act : RecoverAct
  srcGone : Bool
  sinkGone : Bool
  why : Option Text
  deriving DecidableEq, Repr

/-- The window just spent (`reac_node_recover_spent`). -/
def reacNodeRecoverSpent (r : NodeRecover) : Nat :=
  if r.attempts = 0 then reacRecoverGraceTicks
  else reacRecoverGraceTicks <<< min (r.attempts - 1) reacRecoverMaxShift

def reacNodeRecoverStepPair (r : NodeRecover) (t : PairTick) : NodeRecover × NodePairVerdict :=
  let srcGone := !t.srcOnGraph
  let sinkGone := !t.sinkOnGraph
  let step := reacNodeRecoverStep r (t.srcOnGraph && t.sinkOnGraph)
  (step.1,
    { act := step.2
      srcGone := srcGone
      sinkGone := sinkGone
      why := if srcGone then t.srcWhy else if sinkGone then t.sinkWhy else t.srcWhy })

def pairMachine : StepMachine NodeRecover PairTick NodePairVerdict where
  step := reacNodeRecoverStepPair

/-! ### The timer -/

section
variable {I : Type} (A : BoxApi I)

/-- What the timer finds of the pair. -/
def AutodetectNodes.pairTick (c : AutodetectNodes) (t : AutodetectTick I) (row : BoxRow) :
    PairTick where
  srcOnGraph := c.src.isSome && t.srcOnGraph
  srcWhy := none
  sinkOnGraph := !reacBoxRowHasPlayback row || c.sink.isSome && t.sinkOnGraph
  sinkWhy := none

/-- What the timer does with a verdict: a rebuild takes the sides it names. -/
def autodetectVerdict (c : AutodetectNodes) (t : AutodetectTick I) (bm : RowSlot) (row : BoxRow)
    (v : NodeRecover × NodePairVerdict) : AutodetectNodes :=
  match v.2.act with
  | .rebuild =>
      autodetectSized
        { c with
          recover := v.1
          src := if v.2.srcGone then none else c.src
          restamp := c.restamp || v.2.srcGone
          sink := if v.2.sinkGone then none else c.sink } t bm row
  | _ => { c with recover := v.1 }

/-- **On the row it acted on last, the timer follows the pair's verdict.** -/
theorem onAutodetectTimer_verdict {c : AutodetectNodes} {t : AutodetectTick I} {seen : BoxSeen}
    {bm : RowSlot} (hrow : sinkBoxRow A c.seen t.facts t.now = (seen, some bm))
    (hlast : c.last = some bm) :
    (onAutodetectTimer A c t).1 =
      autodetectVerdict { c with seen := seen } t bm (seen.rows.row bm)
        (reacNodeRecoverStepPair c.recover (c.pairTick t (seen.rows.row bm))) := by
  unfold onAutodetectTimer autodetectVerdict reacNodeRecoverStepPair AutodetectNodes.pairTick
  rw [hrow]
  dsimp only
  rw [if_pos hlast]
  generalize (c.src.isSome && t.srcOnGraph) = onGraph
  generalize (!reacBoxRowHasPlayback (seen.rows.row bm) || c.sink.isSome && t.sinkOnGraph) =
    sinkOnGraph
  generalize reacNodeRecoverStep c.recover (onGraph && sinkOnGraph) = step
  obtain ⟨r, act⟩ := step
  cases act with
  | wait => rfl
  | giveUp => rfl
  | rebuild => cases onGraph <;> cases sinkOnGraph <;> rfl

end

end ReacPw
