/-
A stream cut into blocks of one length, as far as it goes.

The blocks are full, what is left over is shorter than one, and together they are the
stream.  An element more either joins what is left over or completes a block.
-/
import Mathlib.Data.List.Basic
import Mathlib.Tactic.Common

namespace Blocks

variable {α : Type*}

/-- The stream is these blocks of length `k` and a shorter rest. -/
structure Cut (k : Nat) (stream : List α) (blocks : List (List α)) (rest : List α) : Prop where
  whole : blocks.flatten ++ rest = stream
  full : ∀ b ∈ blocks, b.length = k
  short : rest.length < k

namespace Cut

variable {k : Nat} {stream rest : List α} {blocks : List (List α)}

/-- A stream that is no block yet. -/
theorem start (h : rest.length < k) : Cut k rest [] rest := ⟨rfl, nofun, h⟩

/-- An element joins what is left over. -/
theorem keep (h : Cut k stream blocks rest) (x : α) (hroom : rest.length + 1 ≠ k) :
    Cut k (stream ++ [x]) blocks (rest ++ [x]) where
  whole := by rw [← h.whole, List.append_assoc]
  full := h.full
  short := by
    have := h.short
    rw [List.length_append, List.length_singleton]
    omega

/-- An element completes a block. -/
theorem complete (h : Cut k stream blocks rest) (x : α) (hfull : rest.length + 1 = k) :
    Cut k (stream ++ [x]) (blocks ++ [rest ++ [x]]) [] where
  whole := by simp [← h.whole]
  full := by
    intro b hb
    rcases List.mem_append.mp hb with hb | hb
    · exact h.full b hb
    · rw [List.mem_singleton.mp hb, List.length_append, List.length_singleton, hfull]
  short := by
    rw [List.length_nil]
    omega

/-- **A block is its stretch of the stream.** -/
theorem block (h : Cut k stream blocks rest) {i : Nat} {b : List α} (hb : blocks[i]? = some b) :
    b = (stream.drop (k * i)).take k := by
  obtain ⟨whole, full, _⟩ := h
  subst whole
  induction blocks generalizing i with
  | nil => simp at hb
  | cons first bs ih =>
      have hfirst := full first (List.mem_cons_self ..)
      cases i with
      | zero =>
          obtain rfl : first = b := by simpa using hb
          rw [Nat.mul_zero, List.drop_zero, List.flatten_cons, List.append_assoc,
            List.take_append_of_le_length (Nat.le_of_eq hfirst.symm),
            List.take_of_length_le (Nat.le_of_eq hfirst)]
      | succ i =>
          rw [ih (by simpa using hb) fun c hc => full c (List.mem_cons_of_mem _ hc)]
          rw [List.flatten_cons, List.append_assoc, Nat.mul_succ, Nat.add_comm, ← List.drop_drop,
            List.drop_append_of_le_length (Nat.le_of_eq hfirst.symm),
            List.drop_of_length_le (Nat.le_of_eq hfirst), List.nil_append]

end Cut

end Blocks
