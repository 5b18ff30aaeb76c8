/-
A text cut into tokens, and the tokens read one by one.

A token is a longest run without separators.  A loop that skips separators, takes a run and
goes on behind it meets the tokens in order.  A list of tokens is read only where each of
them is; the last section says exactly when two readings make the same of a list.
-/
import Mathlib.Data.List.Basic
import Mathlib.Data.List.TakeWhile
import Mathlib.Tactic.Common

namespace Tokens

variable {α β : Type*}

/-! ### Tokens -/

def cut (sep : α → Bool) (s : List α) : List (List α) :=
  (s.splitOnP sep).filter fun w => !w.isEmpty

variable {sep : α → Bool}

@[simp] theorem cut_nil : cut sep [] = [] := rfl

theorem cut_cons_sep {c : α} (hc : sep c = true) (s : List α) :
    cut sep (c :: s) = cut sep s := by
  rw [cut, List.splitOnP_cons_eq_if_modifyHead, if_pos hc]
  rfl

theorem cut_dropWhile (s : List α) : cut sep (s.dropWhile sep) = cut sep s := by
  induction s with
  | nil => rfl
  | cons c s ih =>
      by_cases hc : sep c = true
      · rw [List.dropWhile_cons_of_pos hc, cut_cons_sep hc, ih]
      · rw [List.dropWhile_cons_of_neg hc]

/-- A run up to a separator or the end is a token. -/
theorem cut_run {w rest : List α} (hne : w ≠ []) (hw : ∀ c ∈ w, sep c = false)
    (hrest : ∀ c ∈ rest.head?, sep c = true) :
    cut sep (w ++ rest) = w :: cut sep rest := by
  have hkept : (!w.isEmpty) = true := by simpa using hne
  cases rest with
  | nil =>
      rw [List.append_nil, cut, List.splitOnP_eq_singleton hw]
      simp [hne]
  | cons c rest =>
      have hc : sep c = true := hrest c rfl
      rw [cut, List.splitOnP_append_cons_of_forall_mem hw c hc,
        List.filter_cons_of_pos (p := fun w : List α => !w.isEmpty) hkept, cut_cons_sep hc]
      rfl

theorem head_dropWhile {p : α → Bool} (s : List α) : ∀ c ∈ (s.dropWhile p).head?, p c = false := by
  induction s with
  | nil => simp
  | cons c s ih =>
      by_cases hc : p c = true
      · rw [List.dropWhile_cons_of_pos hc]
        exact ih
      · rw [List.dropWhile_cons_of_neg hc]
        simpa using hc

/-- **One turn of the loop**: behind the separators is a run, and then the rest. -/
theorem cut_step {s p : List α} {c : α} (hskip : s.dropWhile sep = c :: p) :
    cut sep s = (c :: p).takeWhile (fun x => !sep x) ::
      cut sep ((c :: p).dropWhile fun x => !sep x) := by
  have hc : sep c = false := head_dropWhile s c (by rw [hskip]; rfl)
  rw [← cut_dropWhile, hskip]
  conv_lhs => rw [← List.takeWhile_append_dropWhile (p := fun x => !sep x) (l := c :: p)]
  refine cut_run ?_ ?_ ?_
  · simp [hc]
  · intro x hx
    simpa using List.mem_takeWhile_imp hx
  · intro x hx
    simpa using head_dropWhile (c :: p) x hx

theorem cut_done {s : List α} (hskip : s.dropWhile sep = []) : cut sep s = [] := by
  rw [← cut_dropWhile, hskip, cut_nil]

/-! ### Reading every token -/

theorem mapM_eq_none_iff {f : α → Option β} {xs : List α} :
    xs.mapM f = none ↔ ∃ x ∈ xs, f x = none := by
  induction xs with
  | nil => simp
  | cons x xs ih =>
      cases hx : f x with
      | none => simp [hx]
      | some b => cases hrest : xs.mapM f <;> simp_all

theorem mapM_cons_some {f : α → Option β} {x : α} {b : β} (hx : f x = some b) (xs : List α) :
    (x :: xs).mapM f = (xs.mapM f).map (b :: ·) := by
  cases hrest : xs.mapM f <;> simp [hx, hrest]

theorem mapM_cons_none {f : α → Option β} {x : α} (hx : f x = none) (xs : List α) :
    (x :: xs).mapM f = none := by
  simp [hx]

/-- Two readings that both succeed make the same of a list just where they do of each item. -/
theorem mapM_eq_of_some {f g : α → Option β} {xs : List α} {bs : List β}
    (hf : xs.mapM f = some bs) :
    xs.mapM g = some bs ↔ ∀ x ∈ xs, ∃ b, f x = some b ∧ g x = some b := by
  induction xs generalizing bs with
  | nil =>
      cases hf
      simp
  | cons x xs ih =>
      cases hx : f x with
      | none =>
          rw [mapM_cons_none hx] at hf
          cases hf
      | some b =>
          rw [mapM_cons_some hx] at hf
          obtain ⟨rest, hrest, rfl⟩ := Option.map_eq_some_iff.mp hf
          cases hg : g x with
          | none => simp [mapM_cons_none hg, hx, hg]
          | some c =>
              rw [mapM_cons_some hg]
              simp only [Option.map_eq_some_iff, List.cons.injEq, List.forall_mem_cons, hx, hg,
                Option.some.injEq, ← ih hrest]
              constructor
              · rintro ⟨rest', hrest', rfl, rfl⟩
                exact ⟨⟨c, rfl, rfl⟩, hrest'⟩
              · rintro ⟨⟨d, rfl, rfl⟩, hrest'⟩
                exact ⟨rest, hrest', rfl, rfl⟩

/-- **Two readings of a list are the same** where they are of each item, or where neither of
them reads the list. -/
theorem mapM_eq_mapM_iff {f g : α → Option β} {xs : List α} :
    xs.mapM f = xs.mapM g ↔
      (∀ x ∈ xs, ∃ b, f x = some b ∧ g x = some b) ∨
        ((∃ x ∈ xs, f x = none) ∧ ∃ x ∈ xs, g x = none) := by
  rw [← mapM_eq_none_iff, ← mapM_eq_none_iff]
  cases hf : xs.mapM f with
  | none =>
      have hnot : ¬ ∀ x ∈ xs, ∃ b, f x = some b ∧ g x = some b := by
        intro hall
        obtain ⟨x, hx, hnone⟩ := mapM_eq_none_iff.mp hf
        obtain ⟨b, hb, -⟩ := hall x hx
        rw [hnone] at hb
        cases hb
      simp only [hnot, false_or, true_and]
      exact eq_comm
  | some bs =>
      rw [← mapM_eq_of_some hf]
      simp [eq_comm]

end Tokens
