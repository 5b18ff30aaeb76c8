/-
The recover ladder of a pair.

One number says where an absence stands, the ticks since the segment was last whole, and
it says all of the ladder's state (`LadderAt`): each tick is the end of a window, the end
of the ladder, or a wait.  The ladder counts the pair's ticks, though, and not each
side's: a side that leaves the graph inside a window its sibling has opened is taken with
it at the window's end, unless it is back by then.
-/
import Mathlib.Algebra.GroupWithZero.Nat
import Mathlib.Data.List.Induction
import Mathlib.Tactic.IntervalCases
import ReacPw.NodeRecover

namespace ReacPw

/-! ### The ladder by its ticks -/

/-- The windows of an absence, one before each rebuild. -/
def ladderWindows : List Nat := [10, 20, 40, 80, 160]

/-- The window that ends at the `k`-th tick, of windows one after another. -/
def windowEnding : List Nat → Nat → Option Nat
  | [], _ => none
  | w :: rest, k =>
      if k = w then some w else if k < w then none else windowEnding rest (k - w)

/-- What the `k`-th tick of an absence brings: a rebuild at the end of each window, the
giving up 160 ticks after the last, and a wait at every other tick. -/
def ladderAct (k : Nat) : RecoverAct :=
  if (windowEnding ladderWindows k).isSome then .rebuild
  else if k = ladderWindows.sum + 160 then .giveUp
  else .wait

example : [10, 30, 70, 150, 310].map ladderAct = List.replicate 5 .rebuild ∧
    ladderAct 470 = .giveUp := by decide

/-- Both sides are there. -/
def PairTick.whole (t : PairTick) : Bool := t.srcOnGraph && t.sinkOnGraph

/-- The ticks since the segment was last whole. -/
def absentFor (run : List PairTick) : Nat :=
  run.foldl (fun k t => if t.whole then 0 else k + 1) 0

theorem absentFor_concat (run : List PairTick) (t : PairTick) :
    absentFor (run ++ [t]) = if t.whole then 0 else absentFor run + 1 := by simp [absentFor]

/-- The ladder after the `k`-th tick of an absence. -/
structure LadderAt (r : NodeRecover) (k : Nat) : Prop where
  few : r.attempts ≤ reacRecoverMaxAttempts
  counting : r.gaveUp = false →
    k = (ladderWindows.take r.attempts).sum + r.absent ∧ r.absent < reacNodeRecoverWindow r
  given : r.gaveUp = true → r.attempts = reacRecoverMaxAttempts ∧ ladderWindows.sum + 160 ≤ k

theorem ladderAt_init : LadderAt reacNodeRecoverInit 0 where
  few := by decide
  counting := fun _ => ⟨rfl, by decide⟩
  given := fun h => absurd h (by decide)

/-! ### Windows one after another -/

/-- Inside the window after the first `a`, only its last tick ends one. -/
theorem windowEnding_inside :
    ∀ (windows : List Nat) (a : Nat) {w : Nat}, windows[a]? = some w →
      ∀ absent, absent < w →
        windowEnding windows ((windows.take a).sum + (absent + 1)) =
          if absent + 1 = w then some w else none := by
  intro windows
  induction windows with
  | nil => intro a w h; simp at h
  | cons first rest ih =>
      intro a w h absent hin
      cases a with
      | zero =>
          obtain rfl : first = w := by simpa using h
          rw [List.take_zero, List.sum_nil, Nat.zero_add, windowEnding]
          by_cases hend : absent + 1 = first
          · rw [if_pos hend, if_pos hend]
          · rw [if_neg hend, if_neg hend, if_pos (by omega)]
      | succ a =>
          rw [List.take_succ_cons, List.sum_cons, windowEnding, if_neg (by omega),
            if_neg (by omega)]
          have hrest := ih a (by simpa using h) absent hin
          rwa [show first + (rest.take a).sum + (absent + 1) - first =
            (rest.take a).sum + (absent + 1) by omega]

/-- Past the last window none ends. -/
theorem windowEnding_past :
    ∀ (windows : List Nat) (k : Nat), windows.sum < k → windowEnding windows k = none := by
  intro windows
  induction windows with
  | nil => intro k _; rfl
  | cons first rest ih =>
      intro k hk
      rw [List.sum_cons] at hk
      rw [windowEnding, if_neg (by omega), if_neg (by omega)]
      exact ih (k - first) (by omega)

theorem windowEnding_mem {windows : List Nat} {k w : Nat} (h : windowEnding windows k = some w) :
    w ∈ windows := by
  induction windows generalizing k with
  | nil => cases h
  | cons first rest ih =>
      rw [windowEnding] at h
      split at h
      · obtain rfl : first = w := by simpa using h
        exact List.mem_cons_self ..
      · split at h
        · cases h
        · exact List.mem_cons_of_mem _ (ih h)

theorem ladderWindow_pos {k w : Nat} (h : windowEnding ladderWindows k = some w) : 0 < w := by
  have hall : ∀ w ∈ ladderWindows, 0 < w := by decide
  exact hall w (windowEnding_mem h)

theorem ladder_window {r : NodeRecover} (hfew : r.attempts < reacRecoverMaxAttempts) :
    ladderWindows[r.attempts]? = some (reacNodeRecoverWindow r) := by
  unfold reacNodeRecoverWindow
  generalize r.attempts = attempts at hfew ⊢
  have hfew : attempts < 5 := hfew
  interval_cases attempts <;> decide

theorem ladder_sum_succ {attempts w : Nat} (h : ladderWindows[attempts]? = some w) :
    (ladderWindows.take (attempts + 1)).sum = (ladderWindows.take attempts).sum + w := by
  rw [List.take_add_one, h]
  simp

theorem ladder_sum_le (attempts : Nat) :
    (ladderWindows.take attempts).sum ≤ ladderWindows.sum := by
  conv_rhs => rw [← List.take_append_drop attempts ladderWindows, List.sum_append]
  omega

theorem window_pos (r : NodeRecover) : 0 < reacNodeRecoverWindow r := by
  unfold reacNodeRecoverWindow
  rw [Nat.shiftLeft_eq]
  exact Nat.mul_pos (by decide) (Nat.two_pow_pos _)

/-- After the last rebuild the ladder waits out the longest window again. -/
theorem window_last {r : NodeRecover} (h : r.attempts = reacRecoverMaxAttempts) :
    reacNodeRecoverWindow r = 160 := by
  unfold reacNodeRecoverWindow
  rw [h]
  rfl

theorem ladder_take_all : ladderWindows.take reacRecoverMaxAttempts = ladderWindows := rfl

/-! ### One tick -/

theorem ladderAct_window {k w : Nat} (h : windowEnding ladderWindows k = some w) :
    ladderAct k = .rebuild := by simp [ladderAct, h]

theorem ladderAct_wait {k : Nat} (hnone : windowEnding ladderWindows k = none)
    (hgive : k ≠ ladderWindows.sum + 160) : ladderAct k = .wait := by
  simp [ladderAct, hnone, hgive]

theorem ladderAct_giveUp : ladderAct (ladderWindows.sum + 160) = .giveUp := by decide

/-- What a tick off the graph does. -/
inductive AbsentDid (r : NodeRecover) : NodeRecover × RecoverAct → Prop
  /-- Said once. -/
  | silent (hgave : r.gaveUp = true) : AbsentDid r (r, .wait)
  | inside (hgave : r.gaveUp = false) (hin : r.absent + 1 < reacNodeRecoverWindow r) :
      AbsentDid r ({ r with absent := r.absent + 1 }, .wait)
  | gives (hgave : r.gaveUp = false) (hend : reacNodeRecoverWindow r ≤ r.absent + 1)
      (hspent : reacRecoverMaxAttempts ≤ r.attempts) :
      AbsentDid r ({ r with absent := 0, gaveUp := true }, .giveUp)
  | rebuilds (hgave : r.gaveUp = false) (hend : reacNodeRecoverWindow r ≤ r.absent + 1)
      (hleft : r.attempts < reacRecoverMaxAttempts) :
      AbsentDid r ({ r with absent := 0, attempts := r.attempts + 1 }, .rebuild)

theorem reacNodeRecoverStep_did (r : NodeRecover) : AbsentDid r (reacNodeRecoverStep r false) := by
  unfold reacNodeRecoverStep
  rw [if_neg Bool.false_ne_true]
  split
  · rename_i hgave
    exact .silent hgave
  · rename_i hgave
    have hgave : r.gaveUp = false := by simpa using hgave
    dsimp only
    split
    · rename_i hin
      exact .inside hgave hin
    · rename_i hend
      have hend : reacNodeRecoverWindow r ≤ r.absent + 1 := Nat.not_lt.mp hend
      split
      · rename_i hspent
        exact .gives hgave hend hspent
      · rename_i hleft
        exact .rebuilds hgave hend (Nat.not_le.mp hleft)

/-- **A tick off the graph brings what its place in the absence says.** -/
theorem LadderAt.absent {r : NodeRecover} {k : Nat} (h : LadderAt r k) :
    LadderAt (reacNodeRecoverStep r false).1 (k + 1) ∧
      (reacNodeRecoverStep r false).2 = ladderAct (k + 1) ∧
      ((reacNodeRecoverStep r false).2 = .rebuild →
        windowEnding ladderWindows (k + 1) =
          some (reacNodeRecoverSpent (reacNodeRecoverStep r false).1)) := by
  generalize hdone : reacNodeRecoverStep r false = done
  have hdid := hdone ▸ reacNodeRecoverStep_did r
  cases hdid with
  | silent hgave =>
      obtain ⟨hspent, hlate⟩ := h.given hgave
      refine ⟨⟨h.few, fun hnot => by simp [hgave] at hnot, fun _ => ⟨hspent, by omega⟩⟩, ?_,
        nofun⟩
      exact (ladderAct_wait (windowEnding_past _ _ (by omega)) (by omega)).symm
  | inside hgave hin =>
      obtain ⟨hk, _⟩ := h.counting hgave
      refine ⟨⟨h.few, fun _ => ⟨by rw [hk]; rfl, hin⟩, fun hnot => by simp [hgave] at hnot⟩, ?_,
        nofun⟩
      refine (ladderAct_wait ?_ ?_).symm
      · rcases Nat.lt_or_ge r.attempts reacRecoverMaxAttempts with hleft | hspent
        · rw [hk, Nat.add_assoc, windowEnding_inside _ _ (ladder_window hleft) _ (by omega),
            if_neg (by omega)]
        · refine windowEnding_past _ _ ?_
          rw [hk, Nat.le_antisymm h.few hspent, ladder_take_all]
          omega
      · rcases Nat.lt_or_ge r.attempts reacRecoverMaxAttempts with hleft | hspent
        · have hnext := ladder_sum_succ (ladder_window hleft)
          have hall := ladder_sum_le (r.attempts + 1)
          omega
        · have hlast := Nat.le_antisymm h.few hspent
          rw [window_last hlast] at hin
          rw [hlast, ladder_take_all] at hk
          omega
  | gives hgave hend hspent =>
      obtain ⟨hk, hin⟩ := h.counting hgave
      have hlast := Nat.le_antisymm h.few hspent
      rw [window_last hlast] at hin hend
      rw [hlast, ladder_take_all] at hk
      have hend : k + 1 = ladderWindows.sum + 160 := by omega
      refine ⟨⟨h.few, nofun, fun _ => ⟨hlast, Nat.le_of_eq hend.symm⟩⟩, ?_, nofun⟩
      rw [hend]
      exact ladderAct_giveUp.symm
  | rebuilds hgave hend hleft =>
      obtain ⟨hk, hin⟩ := h.counting hgave
      have hwindow := ladder_window hleft
      have hends : windowEnding ladderWindows (k + 1) = some (reacNodeRecoverWindow r) := by
        rw [hk, Nat.add_assoc, windowEnding_inside _ _ hwindow _ hin, if_pos (by omega)]
      refine ⟨⟨hleft, fun _ => ⟨?_, window_pos _⟩, fun hnot => by simp [hgave] at hnot⟩,
        (ladderAct_window hends).symm, fun _ => hends⟩
      simp only
      rw [ladder_sum_succ hwindow]
      omega

/-! ### The pair -/

inductive NodeSide where
  | capture
  | playback
  deriving DecidableEq, Repr

def PairTick.missing (t : PairTick) : NodeSide → Bool
  | .capture => !t.srcOnGraph
  | .playback => !t.sinkOnGraph

def PairTick.reason (t : PairTick) : NodeSide → Option Text
  | .capture => t.srcWhy
  | .playback => t.sinkWhy

def NodePairVerdict.takes (v : NodePairVerdict) : NodeSide → Bool
  | .capture => v.srcGone
  | .playback => v.sinkGone

/-- The last ticks of a run. -/
def lastTicks (w : Nat) (run : List PairTick) : List PairTick := run.drop (run.length - w)

/-- The ladder after a run. -/
abbrev ladderAfter (run : List PairTick) : NodeRecover := pairMachine.after reacNodeRecoverInit run

/-- What a tick owes, after a run of others. -/
structure LadderLaw (before : List PairTick) (t : PairTick) : Prop where
  /-- A whole segment starts over. -/
  resets : t.whole = true →
    (reacNodeRecoverStepPair (ladderAfter before) t).1 = reacNodeRecoverInit ∧
      (reacNodeRecoverStepPair (ladderAfter before) t).2.act = .wait
  rungs : t.whole = false →
    (reacNodeRecoverStepPair (ladderAfter before) t).2.act = ladderAct (absentFor before + 1)
  /-- The window quoted is the one waited out. -/
  spent : (reacNodeRecoverStepPair (ladderAfter before) t).2.act = .rebuild →
    windowEnding ladderWindows (absentFor before + 1) =
      some (reacNodeRecoverSpent (reacNodeRecoverStepPair (ladderAfter before) t).1)
  sides : ∀ side, (reacNodeRecoverStepPair (ladderAfter before) t).2.takes side = t.missing side
  /-- The reason quoted is a missing side's own. -/
  reason : t.whole = false → ∃ side, t.missing side = true ∧
    (reacNodeRecoverStepPair (ladderAfter before) t).2.why = t.reason side
  /-- A side that is taken was off the graph for the whole window. -/
  grace : (reacNodeRecoverStepPair (ladderAfter before) t).2.act = .rebuild →
    ∀ side, (reacNodeRecoverStepPair (ladderAfter before) t).2.takes side = true →
      ∀ x ∈ lastTicks (reacNodeRecoverSpent (reacNodeRecoverStepPair (ladderAfter before) t).1)
        (before ++ [t]), x.missing side = true

/-- Every tick of the run gets what it is owed. -/
def LadderKept (run : List PairTick) : Prop :=
  ∀ before t after, run = before ++ t :: after → LadderLaw before t

/-- The side goes off the graph inside the window, between two ticks of it. -/
def LeavesIn (side : NodeSide) (window : List PairTick) : Prop :=
  ∃ older x y newer, window = older ++ x :: y :: newer ∧
    x.missing side = false ∧ y.missing side = true

/-- A side that goes off the graph inside a window is back on it at the window's end. -/
def SidesBack (run : List PairTick) : Prop :=
  ∀ before t after w, run = before ++ t :: after → t.whole = false →
    windowEnding ladderWindows (absentFor before + 1) = some w →
      ∀ side, LeavesIn side (lastTicks w (before ++ [t])) → t.missing side = false

/-- The ladder stands where the absence does. -/
theorem ladderAt_run (run : List PairTick) : LadderAt (ladderAfter run) (absentFor run) := by
  induction run using List.reverseRecOn with
  | nil => exact ladderAt_init
  | append_singleton run t ih =>
      rw [ladderAfter, pairMachine.after_concat, absentFor_concat]
      change LadderAt (reacNodeRecoverStep (ladderAfter run) t.whole).1 _
      cases ht : t.whole with
      | true => exact ladderAt_init
      | false => exact ih.absent.1

/-- The pair's step is the ladder's, of a segment that is whole or not. -/
theorem stepPair_ladder {r : NodeRecover} {t : PairTick} {whole : Bool} (ht : t.whole = whole) :
    (reacNodeRecoverStepPair r t).1 = (reacNodeRecoverStep r whole).1 ∧
      (reacNodeRecoverStepPair r t).2.act = (reacNodeRecoverStep r whole).2 := by
  rw [← ht]
  exact ⟨rfl, rfl⟩

theorem stepPair_sides (r : NodeRecover) (t : PairTick) (side : NodeSide) :
    (reacNodeRecoverStepPair r t).2.takes side = t.missing side := by
  cases side with
  | capture => rfl
  | playback => rfl

theorem stepPair_reason (r : NodeRecover) {t : PairTick} (ht : t.whole = false) :
    ∃ side, t.missing side = true ∧ (reacNodeRecoverStepPair r t).2.why = t.reason side := by
  cases hsrc : t.srcOnGraph with
  | false =>
      exact ⟨.capture, by simp [PairTick.missing, hsrc],
        by simp [reacNodeRecoverStepPair, hsrc, PairTick.reason]⟩
  | true =>
      have hsink : t.sinkOnGraph = false := by simpa [PairTick.whole, hsrc] using ht
      exact ⟨.playback, by simp [PairTick.missing, hsink],
        by simp [reacNodeRecoverStepPair, hsrc, hsink, PairTick.reason]⟩

/-- A side missing at the end was missing throughout, unless it left on the way. -/
theorem missing_throughout_iff {side : NodeSide} (older : List PairTick) {t : PairTick}
    (ht : t.missing side = true) :
    (∀ x ∈ older ++ [t], x.missing side = true) ↔ ¬LeavesIn side (older ++ [t]) := by
  constructor
  · rintro hall ⟨a, x, y, b, hwindow, hx, _⟩
    have hxs := hall x (by rw [hwindow]; simp)
    rw [hx] at hxs
    exact Bool.false_ne_true hxs
  · intro hstays
    induction older with
    | nil => simpa using ht
    | cons x rest ih =>
        have hrest : ∀ z ∈ rest ++ [t], z.missing side = true := by
          refine ih fun ⟨a, y, z, b, hwindow, hy, hz⟩ => hstays ⟨x :: a, y, z, b, ?_, hy, hz⟩
          rw [List.cons_append, hwindow, List.cons_append]
        intro z hz
        rcases List.mem_cons.mp hz with rfl | hz
        · -- the tick after the first is missing, so the first has to be
          obtain ⟨y, b, hnext⟩ : ∃ y b, rest ++ [t] = y :: b :=
            List.exists_cons_of_ne_nil (by simp)
          by_contra hx
          refine hstays ⟨[], z, y, b, ?_, by simpa using hx, hrest y (by simp [hnext])⟩
          rw [List.cons_append, hnext, List.nil_append]
        · exact hrest z hz

theorem lastTicks_concat {w : Nat} (hw : 0 < w) (before : List PairTick) (t : PairTick) :
    lastTicks w (before ++ [t]) = before.drop (before.length + 1 - w) ++ [t] := by
  unfold lastTicks
  rw [List.length_append, List.length_singleton, List.drop_append_of_le_length (by omega)]

/-- A tick gets all it is owed as soon as no side it takes left on the way. -/
theorem ladderLaw_iff (before : List PairTick) (t : PairTick) :
    LadderLaw before t ↔
      (t.whole = false → ∀ w, windowEnding ladderWindows (absentFor before + 1) = some w →
        ∀ side, LeavesIn side (lastTicks w (before ++ [t])) → t.missing side = false) := by
  have hat := ladderAt_run before
  cases ht : t.whole with
  | true =>
      refine ⟨fun _ h => absurd h.symm Bool.false_ne_true, fun _ => ?_⟩
      obtain ⟨hstate, hact⟩ := stepPair_ladder (r := ladderAfter before) ht
      exact
        { resets := fun _ => ⟨hstate, hact⟩
          rungs := fun h => absurd (h.symm.trans ht) Bool.false_ne_true
          spent := fun h => RecoverAct.noConfusion (hact.symm.trans h)
          sides := stepPair_sides _ t
          reason := fun h => absurd (h.symm.trans ht) Bool.false_ne_true
          grace := fun h => RecoverAct.noConfusion (hact.symm.trans h) }
  | false =>
      obtain ⟨hstate, hact⟩ := stepPair_ladder (r := ladderAfter before) ht
      obtain ⟨_, hrung, hspent⟩ := hat.absent
      have hwindow : (reacNodeRecoverStepPair (ladderAfter before) t).2.act = .rebuild →
          windowEnding ladderWindows (absentFor before + 1) =
            some (reacNodeRecoverSpent (reacNodeRecoverStepPair (ladderAfter before) t).1) := by
        rw [hact, hstate]
        exact hspent
      constructor
      · intro hlaw _ w hw side hleaves
        have hrebuild : (reacNodeRecoverStepPair (ladderAfter before) t).2.act = .rebuild :=
          (hlaw.rungs ht).trans (ladderAct_window hw)
        have hsame := (hwindow hrebuild).symm.trans hw
        by_contra hmissing
        have hmissing : t.missing side = true := by simpa using hmissing
        have hall := hlaw.grace hrebuild side ((hlaw.sides side).trans hmissing)
        rw [Option.some.inj hsame, lastTicks_concat (ladderWindow_pos hw)] at hall
        rw [lastTicks_concat (ladderWindow_pos hw)] at hleaves
        exact (missing_throughout_iff _ hmissing).mp hall hleaves
      · intro hback
        refine
          { resets := fun h => absurd (ht.symm.trans h) Bool.false_ne_true
            rungs := fun _ => hact.trans hrung
            spent := hwindow
            sides := stepPair_sides _ t
            reason := fun _ => stepPair_reason _ ht
            grace := ?_ }
        intro hrebuild side htaken
        have hmissing : t.missing side = true := (stepPair_sides _ t side).symm.trans htaken
        have hw := hwindow hrebuild
        rw [lastTicks_concat (ladderWindow_pos hw)]
        refine (missing_throughout_iff _ hmissing).mpr fun hleaves => ?_
        rw [← lastTicks_concat (ladderWindow_pos hw)] at hleaves
        exact Bool.false_ne_true ((hback rfl _ hw side hleaves).symm.trans hmissing)

/-- **The recover ladder.**  Every tick of a run gets all it is owed exactly when no side
that goes off the graph inside a window is still off it at the window's end. -/
theorem ladder_kept_iff (run : List PairTick) : LadderKept run ↔ SidesBack run := by
  constructor
  · intro hkept before t after w hrun ht hw side hleaves
    exact (ladderLaw_iff before t).mp (hkept before t after hrun) ht w hw side hleaves
  · intro hback before t after hrun
    exact (ladderLaw_iff before t).mpr fun ht w hw side hleaves =>
      hback before t after w hrun ht hw side hleaves

/-- Nine ticks without playback, and then one without both: the capture is taken after a
single tick. -/
theorem ladder_takes_sibling :
    ¬LadderKept (List.replicate 9 ⟨true, none, false, none⟩ ++ [⟨false, none, false, none⟩]) := by
  intro hkept
  have hlaw := hkept (List.replicate 9 ⟨true, none, false, none⟩) ⟨false, none, false, none⟩ [] rfl
  have hfirst := hlaw.grace (by decide) .capture (by decide) ⟨true, none, false, none⟩ (by decide)
  exact absurd hfirst (by decide)

end ReacPw
