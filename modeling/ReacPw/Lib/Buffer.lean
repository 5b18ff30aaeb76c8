/-
A buffer of a fixed size that text is appended to, piece by piece.

Each piece goes in as far as there is room, with a terminator behind it; the length counts
on past the end, so that a caller can tell what was cut off.  Whatever the size, the
buffer holds as much of the whole text as fits, and nothing is written past it.
-/
import Mathlib.Data.List.Basic
import Mathlib.Logic.Function.Basic
import Mathlib.Tactic.Common

variable {α : Type*}

/-- A buffer, and the length of the text so far. -/
structure TextBuffer (α : Type*) where
  buf : Nat → α
  used : Nat

namespace TextBuffer

variable (nul : α)

/-- These bytes from this position on. -/
def copy (buf : Nat → α) (start : Nat) (xs : List α) : Nat → α := fun i =>
  if start ≤ i then (xs[i - start]?).getD (buf i) else buf i

/-- An empty text. -/
def clear (cap : Nat) (buf : Nat → α) : TextBuffer α :=
  { buf := if 0 < cap then Function.update buf 0 nul else buf, used := 0 }

/-- Append what fits, and count all of it. -/
def append (cap : Nat) (b : TextBuffer α) (piece : List α) : TextBuffer α :=
  { buf :=
      if b.used + 1 < cap then
        Function.update (copy b.buf b.used (piece.take (cap - 1 - b.used)))
          (b.used + (piece.take (cap - 1 - b.used)).length) nul
      else b.buf
    used := b.used + piece.length }

/-- What a reader finds in a buffer of this size, up to the first terminator. -/
def readText [DecidableEq α] (cap : Nat) (buf : Nat → α) : List α :=
  ((List.range cap).map buf).takeWhile fun c => decide (c ≠ nul)

/-- The buffer holds what fits of the text, from what was in it at the start. -/
structure Holds (cap : Nat) (start : Nat → α) (b : TextBuffer α) (text : List α) : Prop where
  counted : b.used = text.length
  held : ∀ i, i + 1 < cap → i < text.length → text[i]? = some (b.buf i)
  ended : 0 < cap → b.buf (min text.length (cap - 1)) = nul
  /-- Nothing behind the terminator is written, and nothing at all without room for one. -/
  frame : ∀ i, cap = 0 ∨ min text.length (cap - 1) < i → b.buf i = start i

theorem copy_before {buf : Nat → α} {start i : Nat} (h : i < start) (xs : List α) :
    copy buf start xs i = buf i := if_neg (Nat.not_le.mpr h)

theorem copy_inside {buf : Nat → α} {start i : Nat} {xs : List α} (hlo : start ≤ i)
    (hhi : i < start + xs.length) : xs[i - start]? = some (copy buf start xs i) := by
  have hin : i - start < xs.length := by omega
  rw [copy, if_pos hlo, List.getElem?_eq_getElem hin, Option.getD_some]

theorem copy_after {buf : Nat → α} {start i : Nat} {xs : List α} (h : start + xs.length ≤ i) :
    copy buf start xs i = buf i := by
  rw [copy, if_pos (by omega), List.getElem?_eq_none (by omega), Option.getD_none]

theorem holds_clear (cap : Nat) (start : Nat → α) :
    Holds nul cap start (clear nul cap start) [] where
  counted := rfl
  held := fun i _ h => absurd h (Nat.not_lt_zero i)
  ended := by
    intro hcap
    simp [clear, hcap]
  frame := by
    rintro i (rfl | hi)
    · rfl
    · have hne : i ≠ 0 := by
        rintro rfl
        exact absurd hi (Nat.not_lt_zero _)
      simp only [clear]
      split
      · exact Function.update_of_ne hne _ _
      · rfl

variable {nul}

variable (nul) in
theorem append_buf_full {cap : Nat} {b : TextBuffer α} (piece : List α)
    (hfull : ¬ b.used + 1 < cap) : (append nul cap b piece).buf = b.buf := if_neg hfull

variable (nul) in
theorem append_buf_room {cap : Nat} {b : TextBuffer α} (piece : List α)
    (hroom : b.used + 1 < cap) : (append nul cap b piece).buf =
      Function.update (copy b.buf b.used (piece.take (cap - 1 - b.used)))
        (b.used + (piece.take (cap - 1 - b.used)).length) nul := if_pos hroom

/-- A piece that finds no room leaves the buffer as it is. -/
theorem Holds.append_full {cap : Nat} {start : Nat → α} {b : TextBuffer α} {text : List α}
    (h : Holds nul cap start b text) (piece : List α) (hfull : ¬ b.used + 1 < cap) :
    Holds nul cap start (append nul cap b piece) (text ++ piece) := by
  have hused := h.counted
  have hbuf := append_buf_full nul piece hfull
  have hend : 0 < cap → min (text ++ piece).length (cap - 1) = min text.length (cap - 1) := by
    intro hcap
    rw [List.length_append]
    omega
  refine ⟨by simp [TextBuffer.append, hused], ?_, ?_, ?_⟩
  · intro i hi hin
    have hold : i < text.length := by omega
    rw [hbuf, List.getElem?_append_left hold]
    exact h.held i hi hold
  · intro hcap
    rw [hbuf, hend hcap]
    exact h.ended hcap
  · intro i hi
    rw [hbuf]
    refine h.frame i ?_
    rcases Nat.eq_zero_or_pos cap with hnone | hcap
    · exact Or.inl hnone
    · rw [hend hcap] at hi
      exact hi

/-- A piece goes in as far as there is room, with the terminator behind it. -/
theorem Holds.append_room {cap : Nat} {start : Nat → α} {b : TextBuffer α} {text : List α}
    (h : Holds nul cap start b text) (piece : List α) (hroom : b.used + 1 < cap) :
    Holds nul cap start (append nul cap b piece) (text ++ piece) := by
  have hused := h.counted
  have hbuf := append_buf_room nul piece hroom
  rw [hused] at hroom hbuf
  obtain ⟨took, htook⟩ : ∃ took, took = piece.take (cap - 1 - text.length) := ⟨_, rfl⟩
  rw [← htook] at hbuf
  have hlen : took.length = min (cap - 1 - text.length) piece.length := by
    rw [htook, List.length_take]
  have hend : min (text ++ piece).length (cap - 1) = text.length + took.length := by
    rw [hlen, List.length_append]
    omega
  refine ⟨by simp [TextBuffer.append, hused], ?_, ?_, ?_⟩
  · intro i hi hin
    rw [hbuf, Function.update_of_ne (by rw [← hend]; omega)]
    rcases Nat.lt_or_ge i text.length with hold | hnew
    · rw [copy_before hold, List.getElem?_append_left hold]
      exact h.held i hi hold
    · have hin : i < text.length + took.length := by rw [← hend]; omega
      rw [List.getElem?_append_right hnew, ← copy_inside hnew hin, htook,
        List.getElem?_take_of_lt (by omega)]
  · intro _
    rw [hbuf, hend, Function.update_self]
  · rintro i (hnone | hi)
    · omega
    · rw [hend] at hi
      rw [hbuf, Function.update_of_ne (by omega), copy_after (by omega)]
      exact h.frame i (Or.inr (by omega))

/-- **A piece more.** -/
theorem Holds.append {cap : Nat} {start : Nat → α} {b : TextBuffer α} {text : List α}
    (h : Holds nul cap start b text) (piece : List α) :
    Holds nul cap start (append nul cap b piece) (text ++ piece) := by
  by_cases hroom : b.used + 1 < cap
  · exact h.append_room piece hroom
  · exact h.append_full piece hroom

theorem Holds.written {cap : Nat} {start : Nat → α} {b : TextBuffer α} {text : List α}
    (h : Holds nul cap start b text) :
    (List.range (min text.length (cap - 1))).map b.buf = text.take (cap - 1) := by
  refine List.ext_getElem? fun i => ?_
  rw [List.getElem?_map, List.getElem?_take]
  by_cases hi : i < min text.length (cap - 1)
  · rw [List.getElem?_range hi, if_pos (by omega)]
    exact (h.held i (by omega) (by omega)).symm
  · rw [List.getElem?_eq_none (by simpa using Nat.not_lt.mp hi)]
    split
    · rw [List.getElem?_eq_none (by omega)]
      rfl
    · rfl

/-- A reader finds as much of a text without terminators as fits. -/
theorem Holds.reads [DecidableEq α] {cap : Nat} {start : Nat → α} {b : TextBuffer α}
    {text : List α} (h : Holds nul cap start b text) (hnul : nul ∉ text) :
    readText nul cap b.buf = text.take (cap - 1) := by
  rcases Nat.eq_zero_or_pos cap with rfl | hcap
  · simp [readText]
  · obtain ⟨len, hlen⟩ : ∃ len, len = min text.length (cap - 1) := ⟨_, rfl⟩
    have hsplit : List.range cap =
        List.range len ++ len :: List.range' (len + 1) (cap - 1 - len) := by
      rw [← List.range'_succ, List.range_eq_range', List.range_eq_range',
        show cap = len + (cap - 1 - len + 1) by omega, ← List.range'_append_1, Nat.zero_add]
      congr 2
      omega
    have hwritten : (List.range len).map b.buf = text.take (cap - 1) := by
      rw [hlen]
      exact h.written
    have hend : b.buf len = nul := by
      rw [hlen]
      exact h.ended hcap
    rw [readText, hsplit, List.map_append, List.map_cons, hwritten, hend,
      List.takeWhile_append_of_pos]
    · simp
    · intro c hc
      refine decide_eq_true fun hc0 => hnul ?_
      rw [← hc0]
      exact List.mem_of_mem_take hc

end TextBuffer
