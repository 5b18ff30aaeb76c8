/-
Orders that are given through a queue.

A table has a state for each of its keys, and the state orders something of whoever looks
after the key.  What the table says as it moves is queued, and is carried out later, one word
at a time; what was done is a record of somebody else's.

The last word about a key is what the record will be left at.  So the two are in step at a
key when that word is what the table orders now, or when there is none and the record obeys
the order.  They stay so if every move's own last word is what it has come to order
(`Tells`), and every word carried out is obeyed.
-/
import Mathlib.Tactic.Common

namespace Orders

variable {κ ε ω ρ : Type*} (about : κ → ε → Option ω)

/-- The last word about a key. -/
def lastWord (queue : List ε) (k : κ) : Option ω := (queue.filterMap (about k)).getLast?

@[simp] theorem lastWord_nil (k : κ) : lastWord about [] k = none := rfl

theorem lastWord_append (queue more : List ε) (k : κ) :
    lastWord about (queue ++ more) k = (lastWord about more k).or (lastWord about queue k) := by
  unfold lastWord
  rw [List.filterMap_append, List.getLast?_append]

theorem lastWord_cons (e : ε) (queue : List ε) (k : κ) :
    lastWord about (e :: queue) k = (lastWord about queue k).or (about k e) := by
  rw [← List.singleton_append, lastWord_append]
  congr 1
  unfold lastWord
  cases hword : about k e with
  | none => rw [List.filterMap_cons_none hword]; rfl
  | some w => rw [List.filterMap_cons_some hword]; rfl

/-! ### A move of the table -/

/-- What is queued by a move takes the order of a key from one to the other. -/
def Tells (more : List ε) (k : κ) (o o' : ω) : Prop := (lastWord about more k).getD o = o'

theorem tells_nothing (k : κ) (o : ω) : Tells about [] k o o := rfl

theorem Tells.trans {more rest : List ε} {k : κ} {o o' o'' : ω} (hfirst : Tells about more k o o')
    (hrest : Tells about rest k o' o'') : Tells about (more ++ rest) k o o'' := by
  unfold Tells at hfirst hrest ⊢
  rw [lastWord_append]
  cases hlast : lastWord about rest k with
  | none =>
      rw [hlast] at hrest
      rw [Option.none_or, hfirst]
      exact hrest
  | some w =>
      rw [hlast] at hrest
      exact hrest

/-! ### In step -/

variable (obeys : ω → ρ → Prop)

/-- The last word about the key is the order, or nothing is queued and the record obeys it. -/
def InStep (queue : List ε) (k : κ) (o : ω) (r : ρ) : Prop :=
  match lastWord about queue k with
  | some w => w = o
  | none => obeys o r

variable {about obeys} {queue : List ε} {k : κ} {o : ω} {r : ρ}

/-- **In step, what is ordered is obeyed or on its way.** -/
theorem InStep.obeyed (h : InStep about obeys queue k o r) :
    obeys o r ∨ lastWord about queue k = some o := by
  unfold InStep at h
  cases hlast : lastWord about queue k with
  | none =>
      rw [hlast] at h
      exact Or.inl h
  | some w =>
      rw [hlast] at h
      exact Or.inr (congrArg some h)

/-- **A move that says what it has come to.** -/
theorem InStep.told {more : List ε} {o' : ω} (h : InStep about obeys queue k o r)
    (htells : Tells about more k o o') : InStep about obeys (queue ++ more) k o' r := by
  unfold InStep Tells at *
  rw [lastWord_append]
  cases hmore : lastWord about more k with
  | none =>
      rw [hmore] at htells
      obtain rfl : o = o' := htells
      exact h
  | some w =>
      rw [hmore] at htells
      exact htells

/-- **Another record**: it is asked about only where no word is on its way. -/
theorem InStep.record {r' : ρ} (h : InStep about obeys queue k o r)
    (hobeys : lastWord about queue k = none → obeys o r → obeys o r') :
    InStep about obeys queue k o r' := by
  unfold InStep at *
  cases hlast : lastWord about queue k with
  | none =>
      rw [hlast] at h
      exact hobeys hlast h
  | some w =>
      rw [hlast] at h
      exact h

/-- **A word is carried out**, which leaves the record obeying it. -/
theorem InStep.carried {e : ε} {r' : ρ} (h : InStep about obeys (e :: queue) k o r)
    (hword : ∀ w, about k e = some w → obeys w r') (hother : about k e = none → r' = r) :
    InStep about obeys queue k o r' := by
  unfold InStep at *
  rw [lastWord_cons] at h
  cases hlast : lastWord about queue k with
  | some w =>
      rw [hlast] at h
      exact h
  | none =>
      rw [hlast, Option.none_or] at h
      cases habout : about k e with
      | none =>
          rw [habout] at h
          rw [hother habout]
          exact h
      | some w =>
          rw [habout] at h
          obtain rfl : w = o := h
          exact hword w habout

end Orders
