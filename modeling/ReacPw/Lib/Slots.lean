/-
A bounded table of slots whose entries carry their own key.

A key is found by walking the slots, and an entry goes into the first free one.  While
no two slots hold the same key, the walk makes a map of the table: filling a free slot
with a new key, changing an entry in place and clearing a slot each change the map at
one key.
-/
import Mathlib.Data.List.FinRange
import Mathlib.Logic.Function.Basic
import Mathlib.Tactic.Common

namespace Slots

variable {α κ : Type*} [DecidableEq κ] {m : Nat} (key : α → κ)

/-- The first slot that holds a key. -/
def find (slots : Fin m → Option α) (k : κ) : Option (Fin m) :=
  (List.finRange m).find? fun i => (slots i).any fun a => decide (key a = k)

/-- The first slot that holds nothing. -/
def free (slots : Fin m → Option α) : Option (Fin m) :=
  (List.finRange m).find? fun i => (slots i).isNone

/-- The entry of a key. -/
def entry (slots : Fin m → Option α) (k : κ) : Option α := (find key slots k).bind slots

/-- No two slots hold the same key. -/
def Distinct (slots : Fin m → Option α) : Prop :=
  ∀ i j a b, slots i = some a → slots j = some b → key a = key b → i = j

variable {key} {slots : Fin m → Option α}

theorem find_some {k : κ} {i : Fin m} (hfound : find key slots k = some i) :
    ∃ a, slots i = some a ∧ key a = k := by
  have hholds := List.find?_some hfound
  obtain ⟨a, ha, hkey⟩ := Option.any_eq_true _ _ |>.mp hholds
  exact ⟨a, ha, of_decide_eq_true hkey⟩

theorem find_none {k : κ} (hnone : find key slots k = none) {i : Fin m} {a : α}
    (ha : slots i = some a) : key a ≠ k := by
  intro hkey
  have hholds := List.find?_eq_none.mp hnone i (List.mem_finRange i)
  rw [ha] at hholds
  exact hholds (decide_eq_true hkey)

theorem free_some {i : Fin m} (hfree : free slots = some i) : slots i = none := by
  simpa using List.find?_some hfree

theorem entry_some {k : κ} {a : α} (hentry : entry key slots k = some a) :
    ∃ i, slots i = some a ∧ key a = k := by
  obtain ⟨i, hfound, ha⟩ := Option.bind_eq_some_iff.mp hentry
  obtain ⟨b, hb, hkey⟩ := find_some hfound
  rw [hb] at ha
  exact ⟨i, hb.trans ha, Option.some.inj ha ▸ hkey⟩

theorem entry_eq_none {k : κ} :
    entry key slots k = none ↔ ∀ i a, slots i = some a → key a ≠ k := by
  constructor
  · intro hnone i a ha
    cases hfound : find key slots k with
    | none => exact find_none hfound ha
    | some j =>
        obtain ⟨b, hb, -⟩ := find_some hfound
        rw [entry, hfound, Option.bind_some, hb] at hnone
        exact absurd hnone (by simp)
  · intro hall
    cases hentry : entry key slots k with
    | none => rfl
    | some a =>
        obtain ⟨i, ha, hkey⟩ := entry_some hentry
        exact absurd hkey (hall i a ha)

/-- Whoever holds a key is its entry. -/
theorem Distinct.entry (hd : Distinct key slots) {i : Fin m} {a : α} (ha : slots i = some a) :
    Slots.entry key slots (key a) = some a := by
  cases hentry : Slots.entry key slots (key a) with
  | none => exact absurd rfl (entry_eq_none.mp hentry i a ha)
  | some b =>
      obtain ⟨j, hb, hkey⟩ := entry_some hentry
      rw [hd j i b a hb ha hkey, ha] at hb
      exact hb.symm

/-- **A slot takes an entry whose key no other slot holds**: it is that key's entry, and the
other keys have theirs. -/
theorem Distinct.put (hd : Distinct key slots) {i : Fin m} {a : α}
    (hold : ∀ old, slots i = some old → key old = key a)
    (hother : ∀ j b, j ≠ i → slots j = some b → key b ≠ key a) :
    Distinct key (Function.update slots i (some a)) ∧
      ∀ k, Slots.entry key (Function.update slots i (some a)) k =
        if k = key a then some a else Slots.entry key slots k := by
  have hput : ∀ j b, Function.update slots i (some a) j = some b →
      (j = i ∧ b = a) ∨ (j ≠ i ∧ slots j = some b) := by
    intro j b hb
    by_cases hj : j = i
    · rw [hj, Function.update_self] at hb
      exact Or.inl ⟨hj, (Option.some.inj hb).symm⟩
    · rw [Function.update_of_ne hj] at hb
      exact Or.inr ⟨hj, hb⟩
  have hdistinct : Distinct key (Function.update slots i (some a)) := by
    intro j j' b b' hb hb' hkey
    rcases hput j b hb with ⟨hj, rfl⟩ | ⟨hj, hslot⟩
    · rcases hput j' b' hb' with ⟨hj', -⟩ | ⟨hj', hslot'⟩
      · rw [hj, hj']
      · exact absurd hkey.symm (hother j' b' hj' hslot')
    · rcases hput j' b' hb' with ⟨hj', rfl⟩ | ⟨hj', hslot'⟩
      · exact absurd hkey (hother j b hj hslot)
      · exact hd j j' b b' hslot hslot' hkey
  refine ⟨hdistinct, fun k => ?_⟩
  by_cases hk : k = key a
  · rw [if_pos hk, hk]
    exact hdistinct.entry (Function.update_self i (some a) slots)
  · rw [if_neg hk]
    cases hentry : Slots.entry key slots k with
    | none =>
        rw [entry_eq_none] at hentry ⊢
        intro j b hb
        rcases hput j b hb with ⟨-, rfl⟩ | ⟨-, hslot⟩
        · exact Ne.symm hk
        · exact hentry j b hslot
    | some b =>
        obtain ⟨j, hslot, rfl⟩ := entry_some hentry
        have hj : j ≠ i := fun hj => hk (hold b (hj ▸ hslot))
        exact hdistinct.entry ((Function.update_of_ne hj _ _).trans hslot)

/-- **A slot is cleared**: its key has no entry any more, and the other keys have theirs. -/
theorem Distinct.clear (hd : Distinct key slots) {i : Fin m} {old : α} (hold : slots i = some old) :
    Distinct key (Function.update slots i none) ∧
      ∀ k, Slots.entry key (Function.update slots i none) k =
        if k = key old then none else Slots.entry key slots k := by
  have hrest : ∀ j b, Function.update slots i none j = some b → j ≠ i ∧ slots j = some b := by
    intro j b hb
    by_cases hj : j = i
    · rw [hj, Function.update_self] at hb
      exact absurd hb (by simp)
    · exact ⟨hj, (Function.update_of_ne hj _ _).symm.trans hb⟩
  have hdistinct : Distinct key (Function.update slots i none) := fun j j' b b' hb hb' hkey =>
    hd j j' b b' (hrest j b hb).2 (hrest j' b' hb').2 hkey
  refine ⟨hdistinct, fun k => ?_⟩
  by_cases hk : k = key old
  · rw [if_pos hk, entry_eq_none]
    intro j b hb hkey
    obtain ⟨hj, hslot⟩ := hrest j b hb
    exact hj (hd j i b old hslot hold (hkey.trans hk))
  · rw [if_neg hk]
    cases hentry : Slots.entry key slots k with
    | none =>
        rw [entry_eq_none] at hentry ⊢
        exact fun j b hb => hentry j b (hrest j b hb).2
    | some b =>
        obtain ⟨j, hslot, rfl⟩ := entry_some hentry
        have hj : j ≠ i := by
          rintro rfl
          rw [hold] at hslot
          exact hk (Option.some.inj hslot ▸ rfl)
        exact hdistinct.entry ((Function.update_of_ne hj _ _).trans hslot)

end Slots
