/-
A list of items read one by one, each taken or refused.

`taken` are the values that were read, `firstRefused` is why the first item that was not was
refused.  A stricter reading refuses some items, the loose ones, whatever they read as; the
last section says exactly when a reader that is not strict takes the same values as far as
there is room, and refuses for the same first reason.
-/
import Mathlib.Data.List.Basic
import Mathlib.Tactic.Common

namespace Reading

variable {β α ε : Type*} (read : β → Except ε α)

def taken : List β → List α
  | [] => []
  | x :: xs =>
      match read x with
      | .ok a => a :: taken xs
      | .error _ => taken xs

/-- The first refusal, `clean` where there is none. -/
def firstRefused (clean : ε) : List β → ε
  | [] => clean
  | x :: xs =>
      match read x with
      | .ok _ => firstRefused clean xs
      | .error e => e

/-- Nothing comes behind the item that is taken and finds the room used up. -/
def Heard (room : Nat) (xs : List β) : Prop :=
  ∀ before x after a, xs = before ++ x :: after → read x = .ok a →
    room ≤ (taken read before).length → after = []

variable {read}

theorem taken_cons_ok {x : β} {a : α} (h : read x = .ok a) (xs : List β) :
    taken read (x :: xs) = a :: taken read xs := by
  rw [taken, h]

theorem taken_cons_error {x : β} {e : ε} (h : read x = .error e) (xs : List β) :
    taken read (x :: xs) = taken read xs := by
  rw [taken, h]

theorem firstRefused_cons_ok {x : β} {a : α} (h : read x = .ok a) (clean : ε) (xs : List β) :
    firstRefused read clean (x :: xs) = firstRefused read clean xs := by
  rw [firstRefused, h]

theorem firstRefused_cons_error {x : β} {e : ε} (h : read x = .error e) (clean : ε)
    (xs : List β) : firstRefused read clean (x :: xs) = e := by
  rw [firstRefused, h]

theorem taken_append (xs ys : List β) :
    taken read (xs ++ ys) = taken read xs ++ taken read ys := by
  induction xs with
  | nil => rfl
  | cons x xs ih =>
      cases hx : read x with
      | ok a => rw [List.cons_append, taken_cons_ok hx, taken_cons_ok hx, ih, List.cons_append]
      | error e => rw [List.cons_append, taken_cons_error hx, taken_cons_error hx, ih]

/-- There is no refusal just where every item is taken. -/
theorem firstRefused_eq_clean {clean : ε} (hne : ∀ x e, read x = .error e → e ≠ clean)
    {xs : List β} :
    firstRefused read clean xs = clean ↔ ∀ x ∈ xs, ∃ a, read x = .ok a := by
  induction xs with
  | nil => simp [firstRefused]
  | cons x xs ih =>
      cases hx : read x with
      | ok a => simp [firstRefused_cons_ok hx, ih, hx]
      | error e => simp [firstRefused_cons_error hx, hne x e hx, hx]

/-! ### Heard to the end -/

theorem heard_nil (room : Nat) : Heard read room [] := by
  intro before x after a hsplit
  exact absurd hsplit (by simp)

theorem heard_cons_error {x : β} {e : ε} (h : read x = .error e) {room : Nat} {xs : List β} :
    Heard read room (x :: xs) ↔ Heard read room xs := by
  constructor
  · intro hheard before y after a hsplit hy hfull
    refine hheard (x :: before) y after a (by rw [hsplit]; rfl) hy ?_
    rw [taken_cons_error h]
    exact hfull
  · intro hheard before y after a hsplit hy hfull
    cases before with
    | nil =>
        cases hsplit
        rw [h] at hy
        cases hy
    | cons z before =>
        cases hsplit
        rw [taken_cons_error h] at hfull
        exact hheard before y after a rfl hy hfull

theorem heard_cons_ok {x : β} {a : α} (h : read x = .ok a) {room : Nat} {xs : List β} :
    Heard read (room + 1) (x :: xs) ↔ Heard read room xs := by
  constructor
  · intro hheard before y after b hsplit hy hfull
    refine hheard (x :: before) y after b (by rw [hsplit]; rfl) hy ?_
    rw [taken_cons_ok h, List.length_cons]
    exact Nat.succ_le_succ hfull
  · intro hheard before y after b hsplit hy hfull
    cases before with
    | nil => exact absurd hfull (Nat.not_succ_le_zero room)
    | cons z before =>
        cases hsplit
        rw [taken_cons_ok h, List.length_cons] at hfull
        exact hheard before y after b rfl hy (Nat.le_of_succ_le_succ hfull)

theorem heard_cons_full {x : β} {a : α} (h : read x = .ok a) {xs : List β} :
    Heard read 0 (x :: xs) ↔ xs = [] := by
  constructor
  · intro hheard
    exact hheard [] x xs a rfl h (Nat.zero_le _)
  · rintro rfl before y after b hsplit _ _
    cases before with
    | nil => cases hsplit; rfl
    | cons z before => simp at hsplit

/-- At most one item more is taken than there is room for. -/
theorem Heard.length_taken_le {room : Nat} {xs : List β} (h : Heard read room xs) :
    (taken read xs).length ≤ room + 1 := by
  induction xs generalizing room with
  | nil => exact Nat.zero_le _
  | cons x xs ih =>
      cases hx : read x with
      | error e =>
          rw [taken_cons_error hx]
          exact ih ((heard_cons_error hx).mp h)
      | ok a =>
          rw [taken_cons_ok hx, List.length_cons]
          cases room with
          | zero =>
              rw [(heard_cons_full hx).mp h]
              exact Nat.le_refl _
          | succ room => exact Nat.succ_le_succ (ih ((heard_cons_ok hx).mp h))

/-! ### A stricter reading -/

/-- The reading that refuses the loose items besides. -/
def strict (read : β → Except ε α) (loose : β → Prop) [DecidablePred loose] (bad : ε) :
    β → Except ε α := fun x =>
  if loose x then .error bad else read x

variable {loose : β → Prop} [DecidablePred loose] {bad clean : ε}

theorem strict_loose {x : β} (h : loose x) : strict read loose bad x = .error bad := if_pos h

theorem strict_other {x : β} (h : ¬ loose x) : strict read loose bad x = read x := if_neg h

theorem taken_strict_cons {x : β} (h : ¬ loose x) (xs ys : List β)
    (hrest : taken (strict read loose bad) xs = taken read ys) :
    taken (strict read loose bad) (x :: xs) = taken read (x :: ys) := by
  rw [taken, taken, strict_other h, hrest]

variable (bad) in
/-- Where no loose item is taken, the stricter reading takes the same. -/
theorem taken_strict_eq {xs : List β}
    (hnone : ∀ x ∈ xs, loose x → ∀ a, read x ≠ .ok a) :
    taken (strict read loose bad) xs = taken read xs := by
  induction xs with
  | nil => rfl
  | cons x xs ih =>
      have ih := ih fun y hy => hnone y (List.mem_cons_of_mem x hy)
      by_cases hx : loose x
      · cases hread : read x with
        | ok a => exact absurd hread (hnone x List.mem_cons_self hx a)
        | error e => rw [taken_cons_error (strict_loose hx), taken_cons_error hread, ih]
      · exact taken_strict_cons hx xs xs ih

variable (read loose bad) in
theorem length_taken_strict_le (xs : List β) :
    (taken (strict read loose bad) xs).length ≤ (taken read xs).length := by
  induction xs with
  | nil => exact Nat.le_refl _
  | cons x xs ih =>
      by_cases hx : loose x
      · rw [taken_cons_error (strict_loose hx)]
        cases hread : read x with
        | ok a =>
            rw [taken_cons_ok hread, List.length_cons]
            exact Nat.le_succ_of_le ih
        | error e =>
            rw [taken_cons_error hread]
            exact ih
      · cases hread : read x with
        | ok a =>
            rw [taken_cons_ok ((strict_other hx).trans hread), taken_cons_ok hread]
            exact Nat.succ_le_succ ih
        | error e =>
            rw [taken_cons_error ((strict_other hx).trans hread), taken_cons_error hread]
            exact ih

theorem taken_at {before after : List β} {x : β} {a : α} (hread : read x = .ok a) :
    taken read (before ++ x :: after) = taken read before ++ a :: taken read after := by
  rw [taken_append, taken_cons_ok hread]

variable (bad) in
theorem taken_strict_at {before after : List β} {x : β} (hx : loose x) :
    taken (strict read loose bad) (before ++ x :: after) =
      taken (strict read loose bad) before ++ taken (strict read loose bad) after := by
  rw [taken_append, taken_cons_error (strict_loose hx)]

variable (bad) in
/-- A loose item that is taken is one the stricter reading lacks. -/
theorem length_taken_strict_lt {before after : List β} {x : β} {a : α} (hx : loose x)
    (hread : read x = .ok a) :
    (taken (strict read loose bad) (before ++ x :: after)).length <
      (taken read (before ++ x :: after)).length := by
  have hbefore := length_taken_strict_le read loose bad before
  have hafter := length_taken_strict_le read loose bad after
  rw [taken_at hread, taken_strict_at bad hx, List.length_append, List.length_append,
    List.length_cons]
  omega

variable (bad) in
theorem none_loose_taken_of_length {xs : List β}
    (hlen : (taken read xs).length ≤ (taken (strict read loose bad) xs).length) :
    ∀ x ∈ xs, loose x → ∀ a, read x ≠ .ok a := by
  intro x hx hloose a hread
  obtain ⟨before, after, rfl⟩ := List.append_of_mem hx
  exact absurd hlen (Nat.not_le.mpr (length_taken_strict_lt bad hloose hread))

/-- A loose item is taken only to no effect: there is one taken item more than there is room,
no other loose item is taken, and all that is taken behind it is the same value. -/
def LooseSpare (read : β → Except ε α) (loose : β → Prop) (room : Nat) (xs : List β) : Prop :=
  ∀ before x after a, xs = before ++ x :: after → loose x → read x = .ok a →
    (taken read xs).length = room + 1 ∧
      (∀ y ∈ before ++ after, loose y → ∀ b, read y ≠ .ok b) ∧
      ∀ b ∈ taken read after, b = a

theorem dropLast_cons_eq_self {a : α} {xs : List α} (h : (a :: xs).dropLast = xs) :
    ∀ b ∈ xs, b = a := by
  induction xs generalizing a with
  | nil => simp
  | cons c xs ih =>
      rw [List.dropLast_cons_cons] at h
      obtain ⟨rfl, hrest⟩ := List.cons.inj h
      intro b hb
      rcases List.mem_cons.mp hb with rfl | hb
      · rfl
      · exact ih hrest b hb

variable (bad) in
/-- Where the two take the same as far as there is room, the stricter reading lacks the last
value alone. -/
theorem taken_strict_eq_dropLast {room : Nat} {xs : List β} (hheard : Heard read room xs)
    (hlt : (taken (strict read loose bad) xs).length < (taken read xs).length)
    (hsame : (taken read xs).take room = (taken (strict read loose bad) xs).take room) :
    (taken read xs).length = room + 1 ∧
      taken (strict read loose bad) xs = (taken read xs).dropLast := by
  have hmost := hheard.length_taken_le
  have hlen := congrArg List.length hsame
  rw [List.length_take, List.length_take] at hlen
  have hover : (taken read xs).length = room + 1 := by omega
  refine ⟨hover, ?_⟩
  rw [List.dropLast_eq_take, hover, Nat.add_sub_cancel, hsame, List.take_of_length_le]
  omega

variable (bad) in
theorem looseSpare_of_take {room : Nat} {xs : List β} (hheard : Heard read room xs)
    (hsame : (taken read xs).take room = (taken (strict read loose bad) xs).take room) :
    LooseSpare read loose room xs := by
  rintro before x after a rfl hx hread
  obtain ⟨hover, hall⟩ :=
    taken_strict_eq_dropLast bad hheard (length_taken_strict_lt bad hx hread) hsame
  rw [taken_at hread] at hover
  rw [taken_at hread, taken_strict_at bad hx] at hall
  have hb := length_taken_strict_le read loose bad before
  have ha := length_taken_strict_le read loose bad after
  have hcount := congrArg List.length hall
  rw [List.length_dropLast, List.length_append, List.length_append, List.length_cons] at hcount
  have hbefore : ∀ y ∈ before, loose y → ∀ b, read y ≠ .ok b :=
    none_loose_taken_of_length bad (by omega)
  have hafter : ∀ y ∈ after, loose y → ∀ b, read y ≠ .ok b :=
    none_loose_taken_of_length bad (by omega)
  refine ⟨by rw [taken_at hread, hover], ?_, ?_⟩
  · intro y hy
    rcases List.mem_append.mp hy with hy | hy
    · exact hbefore y hy
    · exact hafter y hy
  · rw [taken_strict_eq bad hbefore, taken_strict_eq bad hafter,
      List.dropLast_append_of_ne_nil (List.cons_ne_nil _ _)] at hall
    exact dropLast_cons_eq_self (List.append_cancel_left hall).symm

variable (bad) in
theorem take_of_looseSpare {room : Nat} {xs : List β} (hspare : LooseSpare read loose room xs) :
    (taken read xs).take room = (taken (strict read loose bad) xs).take room := by
  by_cases hloose : ∃ x ∈ xs, loose x ∧ ∃ a, read x = .ok a
  · obtain ⟨x, hmem, hx, a, hread⟩ := hloose
    obtain ⟨before, after, rfl⟩ := List.append_of_mem hmem
    obtain ⟨hover, hothers, hvalue⟩ := hspare before x after a rfl hx hread
    have hbefore := taken_strict_eq bad fun y hy => hothers y (List.mem_append_left after hy)
    have hafter := taken_strict_eq bad fun y hy => hothers y (List.mem_append_right before hy)
    obtain ⟨k, hk⟩ : ∃ k, taken read after = List.replicate k a :=
      ⟨_, List.eq_replicate_of_mem hvalue⟩
    rw [taken_strict_at bad hx, hbefore, hafter]
    rw [taken_at hread] at hover ⊢
    have hshort : (taken read before ++ taken read after).length = room := by
      rw [List.length_append, List.length_cons] at hover
      rw [List.length_append]
      omega
    have hdrop : (taken read before ++ a :: taken read after).take room =
        (taken read before ++ a :: taken read after).dropLast := by
      rw [List.dropLast_eq_take, hover, Nat.add_sub_cancel]
    rw [hdrop, ← hshort, List.take_length,
      List.dropLast_append_of_ne_nil (List.cons_ne_nil _ _), hk, ← List.replicate_succ,
      List.dropLast_replicate, Nat.add_sub_cancel]
  · rw [taken_strict_eq]
    intro x hmem hx a hread
    exact hloose ⟨x, hmem, hx, a, hread⟩

variable (bad) in
/-- **The same values, as far as there is room.** -/
theorem take_taken_strict_iff {room : Nat} {xs : List β} (hheard : Heard read room xs) :
    (taken read xs).take room = (taken (strict read loose bad) xs).take room ↔
      LooseSpare read loose room xs :=
  ⟨looseSpare_of_take bad hheard, take_of_looseSpare bad⟩

/-- A loose item that comes before every refusal is taken, and what is refused first behind it
is refused as the loose one should have been. -/
def LooseUnsaid (read : β → Except ε α) (loose : β → Prop) (bad clean : ε) (xs : List β) : Prop :=
  ∀ before x after, xs = before ++ x :: after → loose x →
    (∀ y ∈ before, ¬ loose y ∧ ∃ a, read y = .ok a) → firstRefused read clean (x :: after) = bad

/-- **The same first refusal.** -/
theorem firstRefused_strict_iff {xs : List β} :
    firstRefused read clean xs = firstRefused (strict read loose bad) clean xs ↔
      LooseUnsaid read loose bad clean xs := by
  induction xs with
  | nil =>
      refine iff_of_true rfl ?_
      intro before x after hsplit
      exact absurd hsplit (by simp)
  | cons x xs ih =>
      by_cases hx : loose x
      · rw [firstRefused_cons_error (strict_loose hx)]
        constructor
        · intro hsame before y after hsplit _ hclear
          cases before with
          | nil =>
              cases hsplit
              exact hsame
          | cons z before =>
              cases hsplit
              exact absurd hx (hclear x List.mem_cons_self).1
        · intro hunsaid
          exact hunsaid [] x xs rfl hx (by simp)
      · cases hread : read x with
        | error e =>
            rw [firstRefused_cons_error hread,
              firstRefused_cons_error ((strict_other hx).trans hread)]
            refine iff_of_true rfl ?_
            intro before y after hsplit hy hclear
            cases before with
            | nil =>
                cases hsplit
                exact absurd hy hx
            | cons z before =>
                cases hsplit
                obtain ⟨a, ha⟩ := (hclear x List.mem_cons_self).2
                rw [hread] at ha
                cases ha
        | ok a =>
            rw [firstRefused_cons_ok hread,
              firstRefused_cons_ok ((strict_other hx).trans hread), ih]
            constructor
            · intro hunsaid before y after hsplit hy hclear
              cases before with
              | nil =>
                  cases hsplit
                  exact absurd hy hx
              | cons z before =>
                  cases hsplit
                  exact hunsaid before y after rfl hy fun w hw =>
                    hclear w (List.mem_cons_of_mem x hw)
            · intro hunsaid before y after hsplit hy hclear
              refine hunsaid (x :: before) y after (by rw [hsplit]; rfl) hy ?_
              intro w hw
              rcases List.mem_cons.mp hw with rfl | hw
              · exact ⟨hx, a, hread⟩
              · exact hclear w hw

end Reading
