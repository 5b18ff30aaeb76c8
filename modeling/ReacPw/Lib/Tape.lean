/-
A reader of a tape that is still being written.

A tape only grows at its end.  A reader visits it now and then and asks for so many cells.
It takes up where its last visit left off; but it never lags by more than so many times what
it asks for, and passes over what is older.  It gets what has been written, as far as it
asked.  Its visits lie one behind the other on the tape, so no cell is read twice.

What a reader has yet to read is the rest of the tape, and a queue that holds it may drop
from its front what is passed over.
-/
import Mathlib.Data.List.Basic
import Mathlib.Tactic.Common

namespace Tape

/-- One visit of a reader. -/
structure Visit where
  /-- How much of the tape there was. -/
  written : Nat
  /-- How many cells it asked for. -/
  asked : Nat
  /-- The first cell it read. -/
  start : Nat
  /-- How many it got. -/
  got : Nat
  deriving DecidableEq, Repr

namespace Visit

variable {α : Type*}

/-- Where the next visit takes up. -/
def next (v : Visit) : Nat := v.start + v.got

/-- The visits of a reader that keeps within `lag` times what it asks for, from that place on,
on a tape that had so many cells. -/
def Follow (lag : Nat) : Nat → Nat → List Visit → Prop
  | _, _, [] => True
  | place, written, v :: rest =>
      written ≤ v.written ∧ v.start = max place (v.written - lag * v.asked) ∧
        v.got = min v.asked (v.written - v.start) ∧ Follow lag v.next v.written rest

/-- The visits of a reader, when it begins later. -/
theorem Follow.later {lag : Nat} {place written written' : Nat} {visits : List Visit}
    (hwritten : written ≤ written') (hfollow : Follow lag place written' visits) :
    Follow lag place written visits := by
  cases visits with
  | nil => trivial
  | cons v rest => exact ⟨Nat.le_trans hwritten hfollow.1, hfollow.2⟩

theorem Follow.from_le {lag : Nat} :
    ∀ (visits : List Visit) {place written : Nat}, Follow lag place written visits →
      ∀ v ∈ visits, place ≤ v.start := by
  intro visits
  induction visits with
  | nil => intro place written _ v hv; exact absurd hv List.not_mem_nil
  | cons v rest ih =>
      intro place written ⟨_, hstart, _, hrest⟩ w hw
      have hfirst : place ≤ v.start := hstart ▸ Nat.le_max_left _ _
      rcases List.mem_cons.mp hw with rfl | hw
      · exact hfirst
      · have hnext : v.next ≤ w.start := ih hrest w hw
        exact Nat.le_trans (Nat.le_trans hfirst (Nat.le_add_right _ _)) hnext

/-- **No cell is read twice**: the visits lie one behind the other. -/
theorem Follow.apart {lag : Nat} :
    ∀ (visits : List Visit) {place written : Nat}, Follow lag place written visits →
      visits.Pairwise fun v w => v.next ≤ w.start := by
  intro visits
  induction visits with
  | nil => intro _ _ _; exact List.Pairwise.nil
  | cons v rest ih =>
      intro place written ⟨_, _, _, hrest⟩
      exact List.Pairwise.cons (hrest.from_le rest) (ih hrest)

/-- Dropping the front of what is left to read moves the reader's place on. -/
theorem drop_behind (tape : List α) (place keep : Nat) :
    (tape.drop place).drop ((tape.drop place).length - keep) =
      tape.drop (max place (tape.length - keep)) := by
  rw [List.drop_drop, List.length_drop]
  congr 1
  omega

/-- A visit takes from the front what it got. -/
theorem drop_read (tape : List α) (start asked : Nat) :
    (tape.drop start).drop asked = tape.drop (start + min asked (tape.length - start)) := by
  rw [List.drop_drop]
  rcases Nat.le_total asked (tape.length - start) with hless | hmore
  · rw [Nat.min_eq_left hless]
  · rw [Nat.min_eq_right hmore, List.drop_eq_nil_of_le (by omega),
      List.drop_eq_nil_of_le (by omega)]

/-- What is read is what was read, however much the tape has grown since. -/
theorem read_grown (tape more : List α) {start got : Nat} (hread : start + got ≤ tape.length) :
    ((tape ++ more).drop start).take got = (tape.drop start).take got := by
  rw [List.drop_append_of_le_length (by omega), List.take_append_of_le_length (by simp; omega)]

end Visit

end Tape
