/-
A table of slots, each with whose it is and the account of what it holds.

A slot is taken for a key, acquires what it needs, and is written over when it is given
back.  The table is kept when a slot that is nobody's holds nothing, one that is somebody's
holds what such a slot should, and no key has two.  A slot may be replaced by one that is
sound on its own, as long as the key it is for was its own before or nobody's.
-/
import ReacPw.Lib.Ledger
import ReacPw.Lib.Slots

structure OwnedSlot (κ τ : Type*) where
  key : Option κ
  own : Account τ

namespace OwnedSlot

variable {κ τ : Type*} {n : Nat}

/-- A slot that nobody ever had. -/
def fresh : OwnedSlot κ τ := { key := none, own := .straight ∅ }

/-- The slot with its account as that leaves it. -/
def books (f : Account τ → Account τ) (s : OwnedSlot κ τ) : OwnedSlot κ τ :=
  { s with own := f s.own }

@[simp] theorem books_key (f : Account τ → Account τ) (s : OwnedSlot κ τ) :
    (s.books f).key = s.key := rfl

@[simp] theorem books_own (f : Account τ → Account τ) (s : OwnedSlot κ τ) :
    (s.books f).own = f s.own := rfl

section
variable [DecidableEq τ]

/-- The slot written over: what it held, nobody knows of any more. -/
def wiped (s : OwnedSlot κ τ) : OwnedSlot κ τ := { key := none, own := s.own.forget s.own.held }

@[simp] theorem wiped_key (s : OwnedSlot κ τ) : s.wiped.key = none := rfl

/-- Wiping a slot that holds nothing loses nothing. -/
theorem wiped_own {s : OwnedSlot κ τ} (hown : s.own = .straight ∅) :
    s.wiped.own = .straight ∅ := by
  show s.own.forget s.own.held = _
  rw [hown]
  exact Account.forget_straight (Finset.disjoint_empty_left _)

end

/-! ### The table -/

section
variable [DecidableEq κ]

/-- The slot of a key. -/
def find (slots : Fin n → OwnedSlot κ τ) (k : κ) : Option (Fin n) :=
  Slots.find id (fun i => (slots i).key) k

theorem find_key {slots : Fin n → OwnedSlot κ τ} {k : κ} {i : Fin n}
    (hfound : find slots k = some i) : (slots i).key = some k := by
  obtain ⟨a, ha, rfl⟩ := Slots.find_some hfound
  exact ha

theorem find_none {slots : Fin n → OwnedSlot κ τ} {k : κ} (hnone : find slots k = none)
    (i : Fin n) : (slots i).key ≠ some k := fun hkey => Slots.find_none hnone hkey rfl

end

/-- The first slot that is nobody's. -/
def free (slots : Fin n → OwnedSlot κ τ) : Option (Fin n) := Slots.free fun i => (slots i).key

theorem free_key {slots : Fin n → OwnedSlot κ τ} {i : Fin n} (hfree : free slots = some i) :
    (slots i).key = none := Slots.free_some hfree

variable (Good : Finset τ → Prop)

/-- A slot that is nobody's holds nothing; one that is somebody's holds what it should. -/
structure Sound (s : OwnedSlot κ τ) : Prop where
  empty : s.key = none → s.own = .straight ∅
  good : ∀ k, s.key = some k → ∃ held, s.own = .straight held ∧ Good held

structure Kept (slots : Fin n → OwnedSlot κ τ) : Prop where
  sound : ∀ i, (slots i).Sound Good
  distinct : ∀ i j k, (slots i).key = some k → (slots j).key = some k → i = j

variable {Good}

theorem Sound.ofEmpty {s : OwnedSlot κ τ} (hkey : s.key = none) (hown : s.own = .straight ∅) :
    s.Sound Good :=
  ⟨fun _ => hown, fun _ h => absurd (hkey.symm.trans h) (by simp)⟩

theorem Sound.ofGood {s : OwnedSlot κ τ} {k : κ} (hkey : s.key = some k) (held : Finset τ)
    (hown : s.own = .straight held) (hgood : Good held) : s.Sound Good :=
  ⟨fun h => absurd (hkey.symm.trans h) (by simp), fun _ _ => ⟨held, hown, hgood⟩⟩

theorem kept_fresh : Kept Good fun _ : Fin n => (fresh : OwnedSlot κ τ) :=
  ⟨fun _ => .ofEmpty rfl rfl, fun _ _ _ h => absurd h (by simp [fresh])⟩

/-- A key of the table with one slot replaced is the slot's, or was there. -/
theorem key_update {slots : Fin n → OwnedSlot κ τ} {i j : Fin n} {s : OwnedSlot κ τ} {k : κ}
    (hkey : (Function.update slots i s j).key = some k) :
    (j = i ∧ s.key = some k) ∨ (j ≠ i ∧ (slots j).key = some k) := by
  by_cases hj : j = i
  · subst hj
    rw [Function.update_self] at hkey
    exact Or.inl ⟨rfl, hkey⟩
  · rw [Function.update_of_ne hj] at hkey
    exact Or.inr ⟨hj, hkey⟩

/-- **A slot is replaced** by one that is sound, for its own key or one that nobody had. -/
theorem Kept.replace {slots : Fin n → OwnedSlot κ τ} (hkept : Kept Good slots) {i : Fin n}
    {s : OwnedSlot κ τ} (hsound : s.Sound Good)
    (howner : ∀ k, s.key = some k → (slots i).key = some k ∨ ∀ j, (slots j).key ≠ some k) :
    Kept Good (Function.update slots i s) := by
  refine ⟨fun j => ?_, fun j j' k hj hj' => ?_⟩
  · by_cases hj : j = i
    · subst hj
      rwa [Function.update_self]
    · rw [Function.update_of_ne hj]
      exact hkept.sound j
  · have hclash : ∀ j, j ≠ i → s.key = some k → (slots j).key ≠ some k := by
      intro j hj hs hkey
      rcases howner k hs with hold | hnone
      · exact hj (hkept.distinct j i k hkey hold)
      · exact hnone j hkey
    rcases key_update hj with ⟨hji, hs⟩ | ⟨hji, hkey⟩
    · rcases key_update hj' with ⟨hji', -⟩ | ⟨hji', hkey'⟩
      · exact hji.trans hji'.symm
      · exact absurd hkey' (hclash j' hji' hs)
    · rcases key_update hj' with ⟨-, hs⟩ | ⟨-, hkey'⟩
      · exact absurd hkey (hclash j hji hs)
      · exact hkept.distinct j j' k hkey hkey'

/-- A key is found where it is. -/
theorem Kept.find_eq [DecidableEq κ] {slots : Fin n → OwnedSlot κ τ} (hkept : Kept Good slots)
    {i : Fin n} {k : κ} (hkey : (slots i).key = some k) : find slots k = some i := by
  cases hfound : find slots k with
  | none => exact absurd hkey (find_none hfound i)
  | some j => rw [hkept.distinct j i k (find_key hfound) hkey]

/-- The table has a slot for that key. -/
def Has (slots : Fin n → OwnedSlot κ τ) (k : κ) : Prop := ∃ i, (slots i).key = some k

theorem has_other [DecidableEq κ] {slots : Fin n → OwnedSlot κ τ} {k : κ}
    (hnone : find slots k = none) (k' : κ) (hhas : Has slots k') : Has slots k' ∧ k' ≠ k := by
  refine ⟨hhas, ?_⟩
  rintro rfl
  obtain ⟨i, hi⟩ := hhas
  exact find_none hnone i hi

/-- A free slot is taken for a key that has none. -/
theorem Kept.take [DecidableEq κ] {slots : Fin n → OwnedSlot κ τ} (hkept : Kept Good slots) {k : κ}
    (hnone : find slots k = none) {i : Fin n} {s : OwnedSlot κ τ} (hsound : s.Sound Good)
    (hkey : ∀ k', s.key = some k' → k' = k) :
    Kept Good (Function.update slots i s) ∧
      ∀ k', Has (Function.update slots i s) k' → Has slots k' ∨ k' = k := by
  refine ⟨hkept.replace hsound fun k' hs => Or.inr ?_, ?_⟩
  · rw [hkey k' hs]
    exact find_none hnone
  · rintro k' ⟨j, hj⟩
    rcases key_update hj with ⟨-, hs⟩ | ⟨-, hold⟩
    · exact Or.inr (hkey k' hs)
    · exact Or.inl ⟨j, hold⟩

/-- The slot of a key is given back. -/
theorem Kept.giveBack {slots : Fin n → OwnedSlot κ τ} (hkept : Kept Good slots) {k : κ} {i : Fin n}
    (hfound : (slots i).key = some k) {s : OwnedSlot κ τ} (hkey : s.key = none)
    (hown : s.own = .straight ∅) :
    Kept Good (Function.update slots i s) ∧
      ∀ k', Has (Function.update slots i s) k' → Has slots k' ∧ k' ≠ k := by
  refine ⟨hkept.replace (.ofEmpty hkey hown) fun k' hs => absurd (hkey.symm.trans hs) (by simp), ?_⟩
  rintro k' ⟨j, hj⟩
  rcases key_update hj with ⟨-, hs⟩ | ⟨hji, hold⟩
  · exact absurd (hkey.symm.trans hs) (by simp)
  · refine ⟨⟨j, hold⟩, ?_⟩
    rintro rfl
    exact hji (hkept.distinct j i k' hold hfound)

/-- A slot changes what it holds, for whom it held it. -/
theorem Kept.change {slots : Fin n → OwnedSlot κ τ} (hkept : Kept Good slots) {i : Fin n}
    {s : OwnedSlot κ τ} (hsound : s.Sound Good) (hkey : s.key = (slots i).key) :
    Kept Good (Function.update slots i s) ∧
      ∀ k, Has (Function.update slots i s) k → Has slots k := by
  refine ⟨hkept.replace hsound fun k hs => Or.inl (hkey.symm.trans hs), ?_⟩
  rintro k ⟨j, hj⟩
  rcases key_update hj with ⟨-, hs⟩ | ⟨-, hold⟩
  · exact ⟨i, hkey.symm.trans hs⟩
  · exact ⟨j, hold⟩

end OwnedSlot
