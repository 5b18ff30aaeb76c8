/-
What the wake ladder may be trusted to have done.

The pure ladder keeps two numbers, the edges it allowed and the time of the last
one.  What they are worth depends on the callers, who alone know whether the
kernel took the write.  So the history of a driver is laid beside it as ghost
state: every edge since the ladder was last opened, with what was known when it
was allowed and whether the link really went down, and every time the ladder said
it was spent.

Both drivers take turns of one shape (`LadderTurn`): nothing is asked, or the
ladder is asked once with some observation.  The invariant is about that shape,
and each driver is shown to have it.

Unconditionally, the edges are few, far apart and only into silence, and the last
word is said once.  That the last word is true takes two conditions: the kernel
takes every down write, and no turn finds the ladder spent and silent inside the
settle window.  The step asks about the spent ladder before it asks about the
window, so without the second condition the word comes too early.
-/
import Mathlib.Data.List.Basic
import ReacPw.Lib.Run
import ReacPw.WakeDriver

namespace ReacPw

/-! ### The history of a ladder -/

/-- One edge the ladder allowed. -/
structure Edge where
  time : Nat
  /-- What the ladder was shown. -/
  obs : WakeObs
  /-- The link really went down. -/
  made : Bool
  deriving DecidableEq

/-- What happened since the ladder was last opened, newest first. -/
structure LadderLog where
  edges : List Edge := []
  /-- When the ladder said it was spent. -/
  said : List Nat := []
  deriving DecidableEq

/-- An answer of the ladder, written down. -/
def LadderLog.answer (log : LadderLog) (now : Nat) (o : WakeObs) (act : WakeAct)
    (made : Bool) : LadderLog :=
  match act with
  | .none => log
  | .bounce => { log with edges := ⟨now, o, made⟩ :: log.edges }
  | .exhausted => { log with said := now :: log.said }

/-- A turn's report, written down. -/
def LadderLog.note (log : LadderLog) (now : Nat) (r : WakeReport) : LadderLog :=
  let log := if r.inited then {} else log
  match r.asked with
  | none => log
  | some (o, act) => log.answer now o act (r.writes.contains ⟨false, true⟩)

/-- The edges are at most `reacWakeMaxBounces`, a settle window apart, each into
silence, and the last word is said at most once. -/
structure LadderLog.Bounded (log : LadderLog) : Prop where
  few : log.edges.length ≤ reacWakeMaxBounces
  spaced : log.edges.Pairwise fun newer older => older.time + reacWakeSettleNs ≤ newer.time
  silent : ∀ e ∈ log.edges, e.obs.Silent
  once : log.said.length ≤ 1

/-- The last word is true: all the edges were made, and the box had its window. -/
def LadderLog.Truthful (log : LadderLog) : Prop :=
  ∀ t ∈ log.said, reacWakeMaxBounces ≤ (log.edges.filter (·.made)).length ∧
    ∀ e ∈ log.edges, e.time + reacWakeSettleNs ≤ t

instance (log : LadderLog) : Decidable log.Truthful :=
  inferInstanceAs (Decidable (∀ t ∈ log.said, _ ∧ _))

/-! ### The ladder's memory against its history -/

/-- The three fields a ladder decides its edges by. -/
structure ReacWake.SameEdges (w w' : ReacWake) : Prop where
  bounces : w'.bounces = w.bounces
  lastBounceNs : w'.lastBounceNs = w.lastBounceNs
  spentSaid : w'.spentSaid = w.spentSaid

theorem ReacWake.SameEdges.rfl {w : ReacWake} : w.SameEdges w := ⟨Eq.refl _, Eq.refl _, Eq.refl _⟩

theorem ReacWake.SameEdges.trans {w w' w'' : ReacWake} (h : w.SameEdges w')
    (h' : w'.SameEdges w'') : w.SameEdges w'' :=
  ⟨h'.bounces.trans h.bounces, h'.lastBounceNs.trans h.lastBounceNs,
    h'.spentSaid.trans h.spentSaid⟩

theorem reacWakeReopen_sameEdges (w : ReacWake) (now : Nat) :
    w.SameEdges (reacWakeReopen w now) := ⟨rfl, rfl, rfl⟩

theorem reacWakeRefusalToSay_sameEdges (w : ReacWake) :
    w.SameEdges (reacWakeRefusalToSay w).1 := by
  unfold reacWakeRefusalToSay
  split
  · exact .rfl
  · exact ⟨rfl, rfl, rfl⟩

/-- The ladder's memory is its history, by time `t`. -/
structure LadderInv (t : Nat) (w : ReacWake) (log : LadderLog) : Prop where
  count : log.edges.length = w.bounces
  capped : w.bounces ≤ reacWakeMaxBounces
  last : ∀ e ∈ log.edges.head?, e.time = w.lastBounceNs
  timed : ∀ e ∈ log.edges, 0 < e.time ∧ e.time ≤ t ∧ e.time ≤ w.lastBounceNs
  spaced : log.edges.Pairwise fun newer older => older.time + reacWakeSettleNs ≤ newer.time
  silent : ∀ e ∈ log.edges, e.obs.Silent
  said : log.said.length = if w.spentSaid then 1 else 0
  spent : w.spentSaid = true → reacWakeMaxBounces ≤ w.bounces

theorem LadderInv.zeroed (t : Nat) : LadderInv t .zeroed {} where
  count := rfl
  capped := Nat.zero_le _
  last := by simp
  timed := by simp
  spaced := by simp
  silent := by simp
  said := rfl
  spent := by simp [ReacWake.zeroed]

theorem LadderInv.sameEdges {t : Nat} {w w' : ReacWake} {log : LadderLog}
    (h : LadderInv t w log) (hw : w.SameEdges w') : LadderInv t w' log := by
  obtain ⟨hb, hl, hs⟩ := hw
  constructor
  · rw [hb]; exact h.count
  · rw [hb]; exact h.capped
  · rw [hl]; exact h.last
  · rw [hl]; exact h.timed
  · exact h.spaced
  · exact h.silent
  · rw [hs]; exact h.said
  · rw [hb, hs]; exact h.spent

theorem LadderInv.mono {t t' : Nat} {w : ReacWake} {log : LadderLog}
    (h : LadderInv t w log) (hle : t ≤ t') : LadderInv t' w log where
  count := h.count
  capped := h.capped
  last := h.last
  timed e he := by
    obtain ⟨hpos, htime, hlast⟩ := h.timed e he
    exact ⟨hpos, by omega, hlast⟩
  spaced := h.spaced
  silent := h.silent
  said := h.said
  spent := h.spent

theorem LadderInv.bounded {t : Nat} {w : ReacWake} {log : LadderLog} (h : LadderInv t w log) :
    log.Bounded where
  few := by rw [h.count]; exact h.capped
  spaced := h.spaced
  silent := h.silent
  once := by
    rw [h.said]
    split <;> omega

/-- **One answer of the ladder keeps its memory true to its history.** -/
theorem LadderInv.answer {t now : Nat} {w : ReacWake} {log : LadderLog} (h : LadderInv t w log)
    (hle : t ≤ now) (o : WakeObs) (made : Bool) :
    LadderInv now (reacWakeStep w now o).1 (log.answer now o (reacWakeStep w now o).2 made) := by
  obtain ⟨r, hs⟩ | ⟨hsil, hmax, hsaid, hs⟩ | ⟨hsil, hlt, hquiet, hpush, hgrace, hs⟩ :=
    reacWakeStep_cases w now o
  · rw [hs]
    exact (h.mono hle).sameEdges ⟨rfl, rfl, rfl⟩
  · rw [hs]
    have h' := h.mono hle
    refine ⟨h'.count, h'.capped, h'.last, h'.timed, h'.spaced, h'.silent, ?_, fun _ => hmax⟩
    show (now :: log.said).length = 1
    rw [List.length_cons, h.said, hsaid]
    rfl
  · rw [hs]
    have hnow : 0 < now := by
      have : 0 < reacWakeGraceNs := by decide
      omega
    -- a second edge waits out the window of the one before it
    have hafter : ∀ e ∈ log.edges, e.time + reacWakeSettleNs ≤ now := by
      intro e he
      obtain ⟨hpos, htime, hlast⟩ := h.timed e he
      rcases hquiet with h0 | hset
      · omega
      · have : 0 < reacWakeSettleNs := by decide
        omega
    refine ⟨?_, ?_, ?_, ?_, ?_, ?_, h.said, ?_⟩
    · show (log.edges.length + 1) = w.bounces + 1
      rw [h.count]
    · show w.bounces + 1 ≤ reacWakeMaxBounces
      omega
    · intro e he
      have : e = ⟨now, o, made⟩ := by simpa [LadderLog.answer] using he.symm
      rw [this]
    · intro e he
      rcases List.mem_cons.mp he with rfl | hold
      · exact ⟨hnow, Nat.le_refl _, Nat.le_refl _⟩
      · have := hafter e hold
        exact ⟨(h.timed e hold).1, by omega, by show e.time ≤ now; omega⟩
    · exact List.pairwise_cons.mpr ⟨hafter, h.spaced⟩
    · intro e he
      rcases List.mem_cons.mp he with rfl | hold
      · exact hsil
      · exact h.silent e hold
    · intro hsaid
      have := h.spent hsaid
      omega

/-! ### When the last word is true -/

/-- All the edges were made, and the last word, if said, came after their window. -/
structure LadderTruth (log : LadderLog) : Prop where
  made : ∀ e ∈ log.edges, e.made = true
  window : ∀ t ∈ log.said, reacWakeMaxBounces ≤ log.edges.length ∧
    ∀ e ∈ log.edges, e.time + reacWakeSettleNs ≤ t

theorem LadderTruth.truthful {log : LadderLog} (h : LadderTruth log) : log.Truthful := by
  intro t ht
  have hall : log.edges.filter (·.made) = log.edges := List.filter_eq_self.mpr h.made
  rw [hall]
  exact h.window t ht

/-- A turn that finds the ladder spent and unsaid finds the window over. -/
def ReacWake.WindowOver (w : ReacWake) (now : Nat) : Prop :=
  reacWakeMaxBounces ≤ w.bounces → w.spentSaid = false → w.lastBounceNs + reacWakeSettleNs ≤ now

instance (w : ReacWake) (now : Nat) : Decidable (w.WindowOver now) :=
  inferInstanceAs (Decidable (_ → _ → _))

theorem LadderTruth.answer {t now : Nat} {w : ReacWake} {log : LadderLog} (hi : LadderInv t w log)
    (h : LadderTruth log) (o : WakeObs) {made : Bool}
    (hmade : (reacWakeStep w now o).2 = .bounce → made = true)
    (hover : o.Silent → w.WindowOver now) :
    LadderTruth (log.answer now o (reacWakeStep w now o).2 made) := by
  obtain ⟨r, hs⟩ | ⟨hsil, hmax, hsaid, hs⟩ | ⟨hsil, hlt, hquiet, hpush, hgrace, hs⟩ :=
    reacWakeStep_cases w now o
  · rw [hs]
    exact h
  · rw [hs]
    refine ⟨h.made, ?_⟩
    have hwin := hover hsil hmax hsaid
    intro u hu
    rcases List.mem_cons.mp hu with rfl | hold
    · refine ⟨by show _ ≤ log.edges.length; rw [hi.count]; exact hmax, ?_⟩
      intro e he
      have := (hi.timed e he).2.2
      omega
    · exact h.window u hold
  · have hm : made = true := hmade (by rw [hs])
    rw [hs]
    refine ⟨?_, ?_⟩
    · intro e he
      rcases List.mem_cons.mp he with rfl | hold
      · exact hm
      · exact h.made e hold
    · -- nothing was said yet: a ladder that spoke allows no edge
      intro u hu
      have hnone : log.said = [] := by
        have hf : w.spentSaid = false := by
          cases hsp : w.spentSaid with
          | false => rfl
          | true =>
              have := hi.spent hsp
              omega
        have := hi.said
        rw [hf] at this
        exact List.length_eq_zero_iff.mp this
      have hmem : u ∈ log.said := hu
      rw [hnone] at hmem
      exact absurd hmem (by simp)

/-! ### The shape of a driver's turn -/

/-- What a turn does to the ladder: nothing, or one question on a ladder that was
opened afresh if the report says so. -/
inductive LadderTurn (w : ReacWake) (now : Nat) (r : WakeReport) (w' : ReacWake) : Prop where
  | idle (hasked : r.asked = none) (hinit : r.inited = false) (hw : w.SameEdges w')
  | asked (w₀ : ReacWake) (o : WakeObs)
      (h₀ : (if r.inited then ReacWake.zeroed else w).SameEdges w₀)
      (hasked : r.asked = some (o, (reacWakeStep w₀ now o).2))
      (hw : (reacWakeStep w₀ now o).1.SameEdges w')

theorem LadderTurn.inv {t now : Nat} {w w' : ReacWake} {r : WakeReport} {log : LadderLog}
    (h : LadderTurn w now r w') (hi : LadderInv t w log) (hle : t ≤ now) :
    LadderInv now w' (log.note now r) := by
  cases h with
  | idle hasked hinit hw =>
      simp only [LadderLog.note, hasked, hinit]
      exact (hi.mono hle).sameEdges hw
  | asked w₀ o h₀ hasked hw =>
      simp only [LadderLog.note, hasked]
      refine (LadderInv.answer ?_ hle o _).sameEdges hw
      cases hin : r.inited with
      | false => exact hi.sameEdges (by simpa [hin] using h₀)
      | true => exact (LadderInv.zeroed t).sameEdges (by simpa [hin] using h₀)

theorem LadderTurn.truth {t now : Nat} {w w' : ReacWake} {r : WakeReport} {log : LadderLog}
    (h : LadderTurn w now r w') (hi : LadderInv t w log) (ht : LadderTruth log)
    (hmade : ∀ o, r.asked = some (o, .bounce) → r.writes.contains ⟨false, true⟩ = true)
    (hover : ∀ o act, r.asked = some (o, act) → r.inited = false → o.Silent →
      w.WindowOver now) :
    LadderTruth (log.note now r) := by
  cases h with
  | idle hasked hinit hw =>
      simp only [LadderLog.note, hasked, hinit]
      exact ht
  | asked w₀ o h₀ hasked hw =>
      simp only [LadderLog.note, hasked]
      cases hin : r.inited with
      | false =>
          have h₀' : w.SameEdges w₀ := by simpa [hin] using h₀
          refine LadderTruth.answer (hi.sameEdges h₀') ht o ?_ ?_
          · intro hb
            exact hmade o (by rw [hasked, hb])
          · intro hsil hmax hsaid
            rw [h₀'.lastBounceNs]
            exact hover o _ hasked hin hsil (by rw [← h₀'.bounces]; exact hmax)
              (by rw [← h₀'.spentSaid]; exact hsaid)
      | true =>
          have h₀' : ReacWake.zeroed.SameEdges w₀ := by simpa [hin] using h₀
          refine LadderTruth.answer ((LadderInv.zeroed t).sameEdges h₀') ⟨by simp, by simp⟩ o ?_ ?_
          · intro hb
            exact hmade o (by rw [hasked, hb])
          · intro _ hmax
            rw [h₀'.bounces] at hmax
            exact absurd hmax (by decide)

end ReacPw
