/-
What held for a while, on a timed trace.

A trace is a list, oldest first, each entry with a time.  A property is held for a window
when every entry since one that is at least a window old has it.  A monitor that stores
only the time its property began decides that: it is enough to know that the entry it
began at is the first of the last unbroken stretch (`Since`), while the times never go
back.
-/
import Mathlib.Data.List.Basic
import Mathlib.Tactic.Common

namespace Held

variable {α : Type*} (p : α → Prop) (time : α → Nat)

/-- Every entry since one at least a window before `now` has the property. -/
def HeldFor (window now : Nat) (trace : List α) : Prop :=
  ∃ older first newer, trace = older ++ first :: newer ∧
    time first + window ≤ now ∧ ∀ x ∈ first :: newer, p x

/-- The last stretch with the property began at `t`. -/
def Since (t : Nat) (trace : List α) : Prop :=
  ∃ older first newer, trace = older ++ first :: newer ∧ time first = t ∧
    (∀ x ∈ first :: newer, p x) ∧ ∀ x ∈ older.getLast?, ¬p x

/-- The last entry has not got the property, or there is none. -/
def Broken (trace : List α) : Prop := ∀ x ∈ trace.getLast?, ¬p x

variable {p time}

theorem broken_nil : Broken p [] := by simp [Broken]

theorem broken_concat {trace : List α} {x : α} : Broken p (trace ++ [x]) ↔ ¬p x := by
  simp [Broken]

/-- A stretch begins. -/
theorem Since.begin {trace : List α} {x : α} (hbroken : Broken p trace) (hx : p x) :
    Since p time (time x) (trace ++ [x]) :=
  ⟨trace, x, [], rfl, rfl, by simpa using hx, hbroken⟩

/-- A stretch goes on. -/
theorem Since.concat {t : Nat} {trace : List α} {x : α} (h : Since p time t trace) (hx : p x) :
    Since p time t (trace ++ [x]) := by
  obtain ⟨older, first, newer, htrace, ht, hall, hbroken⟩ := h
  refine ⟨older, first, newer ++ [x], by simp [htrace], ht, ?_, hbroken⟩
  intro y hy
  rcases List.mem_append.mp (by simpa using hy : y ∈ (first :: newer) ++ [x]) with hy | hy
  · exact hall y hy
  · rw [List.mem_singleton.mp hy]
    exact hx

theorem Since.last {t : Nat} {trace : List α} (h : Since p time t trace) :
    ∀ x ∈ trace.getLast?, p x := by
  obtain ⟨older, first, newer, htrace, _, hall, _⟩ := h
  intro x hx
  rw [htrace, List.getLast?_append_cons] at hx
  exact hall x (List.mem_of_getLast? hx)

theorem HeldFor.last {window now : Nat} {trace : List α} (h : HeldFor p time window now trace) :
    ∃ x ∈ trace.getLast?, p x := by
  obtain ⟨older, first, newer, htrace, _, hall⟩ := h
  rw [htrace, List.getLast?_append_cons]
  obtain ⟨x, hx⟩ : ∃ x, (first :: newer).getLast? = some x :=
    ⟨_, List.getLast?_eq_some_getLast (List.cons_ne_nil first newer)⟩
  exact ⟨x, hx, hall x (List.mem_of_getLast? hx)⟩

theorem Broken.not_heldFor {window now : Nat} {trace : List α} (h : Broken p trace) :
    ¬HeldFor p time window now trace := by
  intro hheld
  obtain ⟨x, hx, hpx⟩ := hheld.last
  exact h x hx hpx

/-- **The time a stretch began says for how long it was held.** -/
theorem Since.heldFor_iff {t : Nat} {trace : List α} (h : Since p time t trace)
    (hclock : (trace.map time).Pairwise (· ≤ ·)) {window now : Nat} :
    HeldFor p time window now trace ↔ t + window ≤ now := by
  obtain ⟨older, first, newer, htrace, ht, hall, hbroken⟩ := h
  constructor
  · rintro ⟨older', first', newer', htrace', hold, hall'⟩
    -- the stretch that was held lies in the last one, so it began no earlier
    have hinside : first' ∈ first :: newer := by
      rw [htrace] at htrace'
      rcases List.append_eq_append_iff.mp htrace' with ⟨mid, _, hmid⟩ | ⟨mid, hmid, hrest⟩
      · rw [hmid]
        exact List.mem_append_right _ (List.mem_cons_self ..)
      · cases mid with
        | nil =>
            rw [List.nil_append] at hrest
            rw [← hrest]
            exact List.mem_cons_self ..
        | cons y ys =>
            obtain ⟨z, hz⟩ : ∃ z, (y :: ys).getLast? = some z :=
              ⟨_, List.getLast?_eq_some_getLast (List.cons_ne_nil y ys)⟩
            have hlast : older.getLast? = some z := by
              rw [hmid, List.getLast?_append_cons, hz]
            refine absurd (hall' z ?_) (hbroken z hlast)
            rw [hrest]
            exact List.mem_append_left _ (List.mem_of_getLast? hz)
    have hfirst : time first ≤ time first' := by
      rcases List.mem_cons.mp hinside with hsame | hlater
      · exact Nat.le_of_eq (congrArg time hsame.symm)
      · rw [htrace, List.map_append, List.map_cons] at hclock
        exact (List.pairwise_cons.mp (List.pairwise_append.mp hclock).2.1).1 _
          (List.mem_map_of_mem hlater)
    omega
  · intro hold
    exact ⟨older, first, newer, htrace, by omega, hall⟩

end Held
