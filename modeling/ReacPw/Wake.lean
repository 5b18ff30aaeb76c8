/-
The wake ladder (`reac_wake`): when a master may break its own link to wake a box
that has dropped.

A box that has torn its master down comes back on one event, a PHY link-up, and
no packet makes it.  So after enough completed scene pushes into silence the
daemon takes the interface down and up itself: an edge.  The ladder is the pure
decision, one clock and one observation in, one verdict out.  It never touches an
interface; `WakeDriver` holds the two callers that do.

The step reads its facts in a fixed order, and the order is part of the
behaviour: the spent ladder is asked about before the settle window of the last
edge is.
-/
import Mathlib.Tactic.Common

namespace ReacPw

/-- Completed scene transfers the cheap rung wants before an edge. -/
def reacWakeMinPushes : UInt64 := 3

/-- The floor under the push count. -/
def reacWakeGraceNs : Nat := 12 * 1000000000

/-- How long the interface stays administratively down. -/
def reacWakeDownMs : Nat := 1200

/-- What a box is owed after an edge before it has failed to answer. -/
def reacWakeSettleNs : Nat := 20 * 1000000000

def reacWakeMaxBounces : Nat := 2

/-- What the caller must do this step. -/
inductive WakeAct where
  | none
  | bounce
  | exhausted
  deriving DecidableEq, Repr

/-- Why a step did nothing. -/
inductive WakeRefusal where
  | ok
  | notProbing
  | noCarrier
  | carrierUnknown
  | boxIsTalking
  | hostNic
  | nothingSent
  | pushNotProven
  | settling
  | siblingServed
  | spent
  deriving DecidableEq, Repr

/-- The link's carrier as the kernel reports it; an unreadable one is not down. -/
inductive LinkCarrier where
  | up
  | down
  | unknown
  deriving DecidableEq, Repr

/-- What the daemon knows about the segment at this step. -/
structure WakeObs where
  probing : Bool
  carrier : LinkCarrier
  rxBoxFrames : UInt64
  scenePushes : UInt64
  siblingsServed : Bool
  hostNic : Bool
  txFrames : UInt64
  deriving DecidableEq, Repr

structure ReacWake where
  /-- When this PROBING spell began. -/
  openedNs : Nat
  /-- When the last edge was made, 0 for none yet. -/
  lastBounceNs : Nat
  /-- Edges made on this segment. -/
  bounces : Nat
  /-- `exhausted` has been returned. -/
  spentSaid : Bool
  /-- Why the last step did nothing. -/
  refusal : WakeRefusal
  /-- The refusal last handed to the journal. -/
  said : WakeRefusal
  deriving DecidableEq, Repr

/-- The ladder's memory as `memset` leaves it. -/
def ReacWake.zeroed : ReacWake :=
  { openedNs := 0, lastBounceNs := 0, bounces := 0, spentSaid := false,
    refusal := .ok, said := .ok }

/-- Open on a segment whose master has just entered PROBING. -/
def reacWakeInit (now : Nat) : ReacWake := { ReacWake.zeroed with openedNs := now }

/-- The grace restarts from here; the bounce count does not. -/
def reacWakeReopen (w : ReacWake) (now : Nat) : ReacWake :=
  { w with openedNs := now, refusal := .ok, said := .ok }

/-- Whether the refusal is a new one for the journal, which then holds it. -/
def reacWakeRefusalToSay (w : ReacWake) : ReacWake × Bool :=
  if w.refusal = .ok ∨ w.refusal = w.said then (w, false)
  else ({ w with said := w.refusal }, true)

/-- A step that does nothing, and the fact that stopped it. -/
def ReacWake.hold (w : ReacWake) (r : WakeRefusal) : ReacWake × WakeAct :=
  ({ w with refusal := r }, .none)

/-- Advance the clock against one observation. -/
def reacWakeStep (w : ReacWake) (now : Nat) (o : WakeObs) : ReacWake × WakeAct :=
  if !o.probing then w.hold .notProbing
  else if o.carrier = .down then w.hold .noCarrier
  else if o.carrier = .unknown then w.hold .carrierUnknown
  else if 0 < o.rxBoxFrames then w.hold .boxIsTalking
  else if o.hostNic then w.hold .hostNic
  else if o.txFrames = 0 then w.hold .nothingSent
  else if o.siblingsServed then w.hold .siblingServed
  else if reacWakeMaxBounces ≤ w.bounces then
    if w.spentSaid then w.hold .spent
    else ({ w with refusal := .spent, spentSaid := true }, .exhausted)
  else if w.lastBounceNs ≠ 0 ∧ now - w.lastBounceNs < reacWakeSettleNs then w.hold .settling
  else if o.scenePushes < reacWakeMinPushes ∨ now - w.openedNs < reacWakeGraceNs then
    w.hold .pushNotProven
  else
    ({ w with refusal := .ok, bounces := w.bounces + 1, lastBounceNs := now }, .bounce)

/-! ### What one step can do -/

/-- No fact about the wire or about us speaks against an edge. -/
structure WakeObs.Silent (o : WakeObs) : Prop where
  probing : o.probing = true
  carrier : o.carrier = .up
  rxBoxFrames : o.rxBoxFrames = 0
  hostNic : o.hostNic = false
  txFrames : o.txFrames ≠ 0
  siblingsServed : o.siblingsServed = false

instance (o : WakeObs) : Decidable o.Silent :=
  decidable_of_iff
    (o.probing = true ∧ o.carrier = .up ∧ o.rxBoxFrames = 0 ∧ o.hostNic = false ∧
      o.txFrames ≠ 0 ∧ o.siblingsServed = false)
    ⟨fun ⟨a, b, c, d, e, f⟩ => ⟨a, b, c, d, e, f⟩, fun ⟨a, b, c, d, e, f⟩ => ⟨a, b, c, d, e, f⟩⟩

/-- **What one step can do.**  It holds and changes nothing but the refusal, or it
says the ladder is spent, or it makes an edge, and the last two only into silence. -/
theorem reacWakeStep_cases (w : ReacWake) (now : Nat) (o : WakeObs) :
    (∃ r, reacWakeStep w now o = w.hold r) ∨
    (o.Silent ∧ reacWakeMaxBounces ≤ w.bounces ∧ w.spentSaid = false ∧
      reacWakeStep w now o = ({ w with refusal := .spent, spentSaid := true }, .exhausted)) ∨
    (o.Silent ∧ w.bounces < reacWakeMaxBounces ∧
      (w.lastBounceNs = 0 ∨ reacWakeSettleNs ≤ now - w.lastBounceNs) ∧
      reacWakeMinPushes ≤ o.scenePushes ∧ reacWakeGraceNs ≤ now - w.openedNs ∧
      reacWakeStep w now o =
        ({ w with refusal := .ok, bounces := w.bounces + 1, lastBounceNs := now }, .bounce)) := by
  by_cases hp : o.probing = true
  swap
  · exact Or.inl ⟨.notProbing, by simp [reacWakeStep, hp]⟩
  by_cases hd : o.carrier = .down
  · exact Or.inl ⟨.noCarrier, by simp [reacWakeStep, hp, hd]⟩
  by_cases hu : o.carrier = .unknown
  · exact Or.inl ⟨.carrierUnknown, by simp [reacWakeStep, hp, hu]⟩
  by_cases hrx : 0 < o.rxBoxFrames
  · exact Or.inl ⟨.boxIsTalking, by simp only [reacWakeStep, hp, hd, hu, hrx]; rfl⟩
  by_cases hh : o.hostNic = true
  · exact Or.inl ⟨.hostNic, by simp only [reacWakeStep, hp, hd, hu, hrx, hh]; rfl⟩
  by_cases htx : o.txFrames = 0
  · exact Or.inl ⟨.nothingSent, by simp only [reacWakeStep, hp, hd, hu, hrx, hh, htx]; rfl⟩
  by_cases hs : o.siblingsServed = true
  · refine Or.inl ⟨.siblingServed, ?_⟩
    simp only [reacWakeStep, hp, hd, hu, hrx, hh, htx, hs]
    rfl
  have hup : o.carrier = .up := by
    cases hc : o.carrier with
    | up => rfl
    | down => exact absurd hc hd
    | unknown => exact absurd hc hu
  have hsil : o.Silent :=
    ⟨hp, hup, by simpa using hrx, by simpa using hh, htx, by simpa using hs⟩
  have hlow : reacWakeStep w now o =
      if reacWakeMaxBounces ≤ w.bounces then
        if w.spentSaid then w.hold .spent
        else ({ w with refusal := .spent, spentSaid := true }, .exhausted)
      else if w.lastBounceNs ≠ 0 ∧ now - w.lastBounceNs < reacWakeSettleNs then w.hold .settling
      else if o.scenePushes < reacWakeMinPushes ∨ now - w.openedNs < reacWakeGraceNs then
        w.hold .pushNotProven
      else
        ({ w with refusal := .ok, bounces := w.bounces + 1, lastBounceNs := now }, .bounce) := by
    simp only [reacWakeStep, hp, hd, hu, hrx, hh, htx, hs]
    rfl
  rw [hlow]
  by_cases hmax : reacWakeMaxBounces ≤ w.bounces
  · rw [if_pos hmax]
    by_cases hsaid : w.spentSaid = true
    · rw [if_pos hsaid]
      exact Or.inl ⟨.spent, rfl⟩
    · rw [if_neg hsaid]
      exact Or.inr (Or.inl ⟨hsil, hmax, by simpa using hsaid, rfl⟩)
  rw [if_neg hmax]
  by_cases hset : w.lastBounceNs ≠ 0 ∧ now - w.lastBounceNs < reacWakeSettleNs
  · rw [if_pos hset]
    exact Or.inl ⟨.settling, rfl⟩
  rw [if_neg hset]
  by_cases hpush : o.scenePushes < reacWakeMinPushes ∨ now - w.openedNs < reacWakeGraceNs
  · rw [if_pos hpush]
    exact Or.inl ⟨.pushNotProven, rfl⟩
  rw [if_neg hpush]
  have hquiet : w.lastBounceNs = 0 ∨ reacWakeSettleNs ≤ now - w.lastBounceNs := by
    by_cases h0 : w.lastBounceNs = 0
    · exact Or.inl h0
    · exact Or.inr (Nat.le_of_not_lt fun hlt => hset ⟨h0, hlt⟩)
  have hcheap : reacWakeMinPushes ≤ o.scenePushes ∧ reacWakeGraceNs ≤ now - w.openedNs :=
    ⟨UInt64.not_lt.mp fun h => hpush (Or.inl h), Nat.le_of_not_lt fun h => hpush (Or.inr h)⟩
  exact Or.inr (Or.inr ⟨hsil, Nat.lt_of_not_le hmax, hquiet, hcheap.1, hcheap.2, rfl⟩)

/-- An edge is made only into silence. -/
theorem reacWakeStep_bounce_silent {w : ReacWake} {now : Nat} {o : WakeObs}
    (h : (reacWakeStep w now o).2 = .bounce) : o.Silent := by
  obtain ⟨r, hs⟩ | ⟨-, -, -, hs⟩ | ⟨hsil, -⟩ := reacWakeStep_cases w now o
  · rw [hs] at h
    cases h
  · rw [hs] at h
    cases h
  · exact hsil

/-- Box frames are the refusal only on a probing wire with carrier that carried some. -/
theorem reacWakeStep_boxIsTalking {w : ReacWake} {now : Nat} {o : WakeObs}
    (h : (reacWakeStep w now o).1.refusal = .boxIsTalking) :
    o.probing = true ∧ o.carrier = .up ∧ 0 < o.rxBoxFrames := by
  by_cases hp : o.probing = true
  swap
  · simp [reacWakeStep, hp, ReacWake.hold] at h
  cases hc : o.carrier with
  | down => simp [reacWakeStep, hp, hc, ReacWake.hold] at h
  | unknown => simp [reacWakeStep, hp, hc, ReacWake.hold] at h
  | up =>
      refine ⟨hp, rfl, ?_⟩
      by_contra hrx
      rw [reacWakeStep, if_neg (by simp [hp]), if_neg (by simp [hc]), if_neg (by simp [hc]),
        if_neg hrx] at h
      revert h
      unfold ReacWake.hold
      repeat' split
      all_goals simp

/-- The ladder's edges and its last word survive a re-open. -/
@[simp] theorem reacWakeReopen_bounces (w : ReacWake) (now : Nat) :
    (reacWakeReopen w now).bounces = w.bounces := rfl

@[simp] theorem reacWakeReopen_lastBounceNs (w : ReacWake) (now : Nat) :
    (reacWakeReopen w now).lastBounceNs = w.lastBounceNs := rfl

@[simp] theorem reacWakeReopen_spentSaid (w : ReacWake) (now : Nat) :
    (reacWakeReopen w now).spentSaid = w.spentSaid := rfl

@[simp] theorem reacWakeRefusalToSay_bounces (w : ReacWake) :
    (reacWakeRefusalToSay w).1.bounces = w.bounces := by
  unfold reacWakeRefusalToSay
  split <;> rfl

@[simp] theorem reacWakeRefusalToSay_lastBounceNs (w : ReacWake) :
    (reacWakeRefusalToSay w).1.lastBounceNs = w.lastBounceNs := by
  unfold reacWakeRefusalToSay
  split <;> rfl

@[simp] theorem reacWakeRefusalToSay_spentSaid (w : ReacWake) :
    (reacWakeRefusalToSay w).1.spentSaid = w.spentSaid := by
  unfold reacWakeRefusalToSay
  split <;> rfl

@[simp] theorem reacWakeRefusalToSay_openedNs (w : ReacWake) :
    (reacWakeRefusalToSay w).1.openedNs = w.openedNs := by
  unfold reacWakeRefusalToSay
  split <;> rfl

@[simp] theorem reacWakeRefusalToSay_refusal (w : ReacWake) :
    (reacWakeRefusalToSay w).1.refusal = w.refusal := by
  unfold reacWakeRefusalToSay
  split <;> rfl

end ReacPw
