/-
Property maps that can only be merged into.

A published object's properties are a map from keys to values, and the only update
is a merge of sets: nothing takes a key away.  A merge is folded left to right, so
the last set of a key wins.

An indexed group of properties has keys made of a root, an index and a field,
`root0.name`, `root1.name`.  They name the index and the field without ambiguity,
because a numeral has no dot in it.
-/
import Mathlib.Data.List.Nodup
import Mathlib.Tactic.Common
import ReacPw.Lib.Decimal

/-- What is published under each key. -/
def PropMap (κ ν : Type*) := κ → Option ν

namespace PropMap

variable {κ ν : Type*} [DecidableEq κ]

/-- One key set. -/
def set (m : PropMap κ ν) (k : κ) (v : ν) : PropMap κ ν :=
  fun k' => if k' = k then some v else m k'

@[simp] theorem set_self (m : PropMap κ ν) (k : κ) (v : ν) : m.set k v k = some v :=
  if_pos rfl

theorem set_of_ne {k k' : κ} (h : k' ≠ k) (m : PropMap κ ν) (v : ν) : m.set k v k' = m k' :=
  if_neg h

/-- The sets of an update, applied in order. -/
def merge (m : PropMap κ ν) (sets : List (κ × ν)) : PropMap κ ν :=
  sets.foldl (fun m kv => m.set kv.1 kv.2) m

theorem merge_cons (m : PropMap κ ν) (kv : κ × ν) (sets : List (κ × ν)) :
    m.merge (kv :: sets) = (m.set kv.1 kv.2).merge sets := rfl

/-- A key no set names keeps what it had. -/
theorem merge_of_not_mem {sets : List (κ × ν)} {k : κ} (h : ∀ v, (k, v) ∉ sets) :
    ∀ m : PropMap κ ν, m.merge sets k = m k := by
  induction sets with
  | nil => intro m; rfl
  | cons kv rest ih =>
      intro m
      have hne : k ≠ kv.1 := by
        rintro rfl
        exact h kv.2 (List.mem_cons_self ..)
      rw [merge_cons, ih (fun v hv => h v (List.mem_cons_of_mem _ hv)), set_of_ne hne]

/-- A key whose sets agree has their value. -/
theorem merge_of_mem {sets : List (κ × ν)} {k : κ} {v : ν} (hmem : (k, v) ∈ sets)
    (hagree : ∀ v', (k, v') ∈ sets → v' = v) : ∀ m : PropMap κ ν, m.merge sets k = some v := by
  induction sets with
  | nil => exact absurd hmem (by simp)
  | cons kv rest ih =>
      intro m
      rw [merge_cons]
      by_cases hrest : (k, v) ∈ rest
      · exact ih hrest (fun v' hv' => hagree v' (List.mem_cons_of_mem _ hv')) _
      · have hkv : kv = (k, v) := ((List.mem_cons.mp hmem).resolve_right hrest).symm
        have hnone : ∀ v', (k, v') ∉ rest := by
          intro v' hv'
          have := hagree v' (List.mem_cons_of_mem _ hv')
          exact hrest (this ▸ hv')
        rw [merge_of_not_mem hnone, hkv, set_self]

theorem merge_append (m : PropMap κ ν) (sets more : List (κ × ν)) :
    m.merge (sets ++ more) = (m.merge sets).merge more := List.foldl_append

/-! ### What a map has of an update -/

/-- Every key of an update has the update's value. -/
def Has (m : PropMap κ ν) (sets : List (κ × ν)) : Prop := ∀ kv ∈ sets, m kv.1 = some kv.2

omit [DecidableEq κ] in
theorem has_append {m : PropMap κ ν} {sets more : List (κ × ν)} :
    m.Has (sets ++ more) ↔ m.Has sets ∧ m.Has more := by
  simp only [Has, List.mem_append]
  constructor
  · intro h
    exact ⟨fun kv hkv => h kv (Or.inl hkv), fun kv hkv => h kv (Or.inr hkv)⟩
  · intro h kv hkv
    exact hkv.elim (h.1 kv) (h.2 kv)

/-- An update that names no key twice is there once merged. -/
theorem has_merge {sets : List (κ × ν)} (h : (sets.map Prod.fst).Nodup) (m : PropMap κ ν) :
    (m.merge sets).Has sets := by
  intro kv hkv
  apply merge_of_mem hkv
  intro v hv
  exact congrArg Prod.snd (List.inj_on_of_nodup_map h hv hkv rfl)

/-- An update of other keys leaves it. -/
theorem Has.merge {m : PropMap κ ν} {sets : List (κ × ν)} (h : m.Has sets) {more : List (κ × ν)}
    (hother : ∀ kv ∈ sets, ∀ kv' ∈ more, kv'.1 ≠ kv.1) : (m.merge more).Has sets := by
  intro kv hkv
  rw [merge_of_not_mem]
  · exact h kv hkv
  · intro v hv
    exact hother kv hkv (kv.1, v) hv rfl

/-! ### Keys of an indexed group -/

/-- The key of one field of one group. -/
def groupKey (root : String) (i : Nat) (field : String) : String :=
  root ++ toString i ++ "." ++ field

/-- Two lists cut at their first separator are cut alike. -/
theorem cut_at_first_sep {α : Type*} {sep : α} :
    ∀ (xs ys : List α) {t u : List α}, sep ∉ xs → sep ∉ ys →
      xs ++ sep :: t = ys ++ sep :: u → xs = ys ∧ t = u := by
  intro xs
  induction xs with
  | nil =>
      intro ys t u _ hys h
      cases ys with
      | nil => exact ⟨rfl, by simpa using h⟩
      | cons y ys =>
          simp only [List.nil_append, List.cons_append, List.cons.injEq] at h
          exact absurd (h.1 ▸ List.mem_cons_self ..) hys
  | cons x xs ih =>
      intro ys t u hxs hys h
      cases ys with
      | nil =>
          simp only [List.nil_append, List.cons_append, List.cons.injEq] at h
          exact absurd (h.1 ▸ List.mem_cons_self ..) hxs
      | cons y ys =>
          simp only [List.cons_append, List.cons.injEq] at h
          obtain ⟨hxy, htail⟩ := h
          obtain ⟨hxs', htu⟩ := ih ys (fun hm => hxs (List.mem_cons_of_mem _ hm))
            (fun hm => hys (List.mem_cons_of_mem _ hm)) htail
          exact ⟨by rw [hxy, hxs'], htu⟩

/-- A numeral has no dot in it. -/
theorem dot_not_mem_numeral (i : Nat) : '.' ∉ Decimal.numeral i :=
  fun h => absurd (Decimal.isDigit_of_mem_numeral h) (by decide)

/-- **A group's key names its index and its field.** -/
theorem groupKey_inj {root : String} {i j : Nat} {f g : String}
    (h : groupKey root i f = groupKey root j g) : i = j ∧ f = g := by
  have hl := congrArg String.toList h
  have hdot : ".".toList = ['.'] := by decide
  simp only [groupKey, String.toList_append, List.append_assoc, List.append_cancel_left_eq,
    Decimal.toList_toString, hdot, List.singleton_append] at hl
  obtain ⟨hi, hf⟩ := cut_at_first_sep _ _ (dot_not_mem_numeral i) (dot_not_mem_numeral j) hl
  exact ⟨Decimal.numeral_injective hi, String.toList_inj.mp hf⟩

end PropMap
