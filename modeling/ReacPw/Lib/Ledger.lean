/-
A ledger of resources, and the books a program keeps of them.

The ledger says what is live in the world and keeps every fault: a resource acquired
over itself, which loses the first; one used or released that is not live; one
released under something that uses it.  The program knows of its resources only by
pointers and flags of its own, and a release that is safe on nothing goes by those.

The books are straight when what the program believes it holds is what is live and
there has been no fault; `Account.straight` is the account of a set kept so.  Each
operation keeps them straight under a condition on that set alone, so a proof about a
program's acquisitions and releases speaks of one set.  A teardown keeps them straight
when each release comes after those of its users (`UsersFirst`).
-/
import Mathlib.Data.Finset.Basic
import Mathlib.Tactic.Common

inductive Fault (τ : Type*) where
  /-- Acquired over itself. -/
  | lost (t : τ)
  /-- Used or released when it was not live. -/
  | unheld (t : τ)
  /-- Released under something that uses it. -/
  | inUse (t : τ)
  deriving DecidableEq, Repr

structure Account (τ : Type*) where
  /-- What the program's own pointers and flags say it holds. -/
  held : Finset τ
  live : Finset τ
  faults : List (Fault τ)
  deriving DecidableEq

namespace Account

variable {τ : Type*}

/-- Straight books of a set. -/
def straight (s : Finset τ) : Account τ := { held := s, live := s, faults := [] }

@[simp] theorem straight_held (s : Finset τ) : (straight s).held = s := rfl

@[simp] theorem straight_live (s : Finset τ) : (straight s).live = s := rfl

@[simp] theorem straight_faults (s : Finset τ) : (straight s).faults = [] := rfl

variable [DecidableEq τ]

/-- What is used has to be live. -/
def touch (ts : List τ) (A : Account τ) : Account τ :=
  { A with faults := (ts.filter (· ∉ A.live)).map .unheld ++ A.faults }

/-- Acquire a resource, over those it is given. -/
def take (given : List τ) (t : τ) (A : Account τ) : Account τ :=
  let A := A.touch given
  { held := insert t A.held
    live := insert t A.live
    faults := if t ∈ A.live then .lost t :: A.faults else A.faults }

@[simp] theorem touch_held (ts : List τ) (A : Account τ) : (A.touch ts).held = A.held := rfl

@[simp] theorem take_held (given : List τ) (t : τ) (A : Account τ) :
    (A.take given t).held = insert t A.held := rfl

/-- The program's words for these are overwritten. -/
def forget (ts : Finset τ) (A : Account τ) : Account τ := { A with held := A.held \ ts }

variable (uses : τ → τ → Bool)

/-- Release a resource, held or not. -/
def stop (t : τ) (A : Account τ) : Account τ :=
  { held := A.held.erase t
    live := A.live.erase t
    faults :=
      if t ∉ A.live then .unheld t :: A.faults
      else if ∃ u ∈ A.live, uses u t = true then .inUse t :: A.faults
      else A.faults }

/-- A release that is safe on what is not held. -/
def free (t : τ) (A : Account τ) : Account τ := if t ∈ A.held then A.stop uses t else A

def freeAll (ts : List τ) (A : Account τ) : Account τ := ts.foldl (fun A t => A.free uses t) A

/-- Nothing in the set uses a resource when its turn comes. -/
def UsersFirst : Finset τ → List τ → Prop
  | _, [] => True
  | s, t :: rest => (∀ u ∈ s, uses u t = false) ∧ UsersFirst (s.erase t) rest

/-! ### Straight books -/

section
variable {s : Finset τ} {t : τ}

theorem touch_straight {ts : List τ} (hlive : ∀ u ∈ ts, u ∈ s) :
    (straight s).touch ts = straight s := by
  have hnone : ts.filter (· ∉ s) = [] :=
    List.filter_eq_nil_iff.mpr fun u hu => by simpa using hlive u hu
  show ({ held := s, live := s, faults := (ts.filter (· ∉ s)).map .unheld ++ [] } : Account τ) = _
  rw [hnone]
  rfl

theorem take_straight {given : List τ} (hfresh : t ∉ s) (hlive : ∀ u ∈ given, u ∈ s) :
    (straight s).take given t = straight (insert t s) := by
  unfold take
  rw [touch_straight hlive]
  show ({ held := insert t s, live := insert t s, faults := if t ∈ s then _ else _ } : Account τ) = _
  rw [if_neg hfresh]
  rfl

theorem forget_straight {ts : Finset τ} (hapart : Disjoint s ts) :
    (straight s).forget ts = straight s := by
  show ({ held := s \ ts, live := s, faults := [] } : Account τ) = _
  rw [Finset.sdiff_eq_self_of_disjoint hapart]
  rfl

theorem stop_straight (hheld : t ∈ s) (husers : ∀ u ∈ s, uses u t = false) :
    (straight s).stop uses t = straight (s.erase t) := by
  have hnone : ¬ ∃ u ∈ s, uses u t = true := by
    rintro ⟨u, hu, huses⟩
    rw [husers u hu] at huses
    exact absurd huses Bool.false_ne_true
  unfold stop
  rw [straight_live, straight_held, straight_faults, if_neg (not_not.mpr hheld), if_neg hnone]
  rfl

/-- A release under a flag that tells the truth. -/
theorem stopIf_straight {flag : Bool} (hflag : flag = true ↔ t ∈ s)
    (husers : ∀ u ∈ s, uses u t = false) :
    (if flag then (straight s).stop uses t else straight s) = straight (s.erase t) := by
  split
  · rename_i hup
    exact stop_straight uses (hflag.mp hup) husers
  · rename_i hdown
    rw [Finset.erase_eq_of_notMem fun ht => hdown (hflag.mpr ht)]

theorem free_straight (husers : ∀ u ∈ s, uses u t = false) :
    (straight s).free uses t = straight (s.erase t) := by
  unfold free
  split
  · rename_i hheld
    exact stop_straight uses hheld husers
  · rename_i hnot
    rw [Finset.erase_eq_of_notMem (show t ∉ s from hnot)]

/-- **A teardown that frees users first keeps the books straight.** -/
theorem freeAll_straight :
    ∀ (ts : List τ) (s : Finset τ), UsersFirst uses s ts →
      (straight s).freeAll uses ts = straight (s \ ts.toFinset) := by
  intro ts
  induction ts with
  | nil => intro s _; simp [freeAll]
  | cons t rest ih =>
      intro s hfirst
      obtain ⟨husers, hrest⟩ := hfirst
      show ((straight s).free uses t).freeAll uses rest = _
      rw [free_straight uses husers, ih _ hrest]
      congr 1
      ext u
      simp only [Finset.mem_sdiff, Finset.mem_erase, List.mem_toFinset, List.mem_cons]
      tauto

/-- Where nothing uses any of them, their order does not matter. -/
theorem usersFirst_of_unused :
    ∀ (ts : List τ) (s : Finset τ), (∀ t ∈ ts, ∀ u ∈ s, uses u t = false) →
      UsersFirst uses s ts := by
  intro ts
  induction ts with
  | nil => intro s _; trivial
  | cons t rest ih =>
      intro s hunused
      refine ⟨hunused t List.mem_cons_self, ih _ fun k hk u hu => ?_⟩
      exact hunused k (List.mem_cons_of_mem _ hk) u (Finset.mem_of_mem_erase hu)

end

end Account
