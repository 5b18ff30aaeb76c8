/-
Machines that read an input and give an output at every step.

A daemon is a machine of this kind: its inputs are what the world does next, its
outputs what it does to the world.  This file says what a finite run of one is,
and gives the three rules every proof about runs here goes through.

  * An invariant that one step preserves holds after every run.
  * The same under a guard: only the steps the guard allows have to preserve it,
    and only the runs whose steps all meet the guard are spoken of.
  * The same under a clock: when the inputs carry a time that never goes back,
    the invariant may mention the time of the last step; and so for anything else
    the inputs carry in order.

A history is ghost state laid beside a machine: it notes what the steps read and
gave, and no step can see it.
-/
import Mathlib.Data.List.Basic
import Mathlib.Order.Defs.PartialOrder
import Mathlib.Tactic.Common

/-- A deterministic machine over states `σ`, inputs `ι` and outputs `ο`. -/
structure StepMachine (σ ι ο : Type*) where
  step : σ → ι → σ × ο

namespace StepMachine

variable {σ ι ο η : Type*} (M : StepMachine σ ι ο)

/-- The state a run of inputs leads to. -/
def after : σ → List ι → σ
  | s, [] => s
  | s, i :: rest => after (M.step s i).1 rest

/-- Everything the machine gave over a run, oldest first. -/
def outputs : σ → List ι → List ο
  | _, [] => []
  | s, i :: rest => (M.step s i).2 :: outputs (M.step s i).1 rest

/-- Every step of the run meets the guard in the state it starts from. -/
def Guarded (G : σ → ι → Prop) : σ → List ι → Prop
  | _, [] => True
  | s, i :: rest => G s i ∧ Guarded G (M.step s i).1 rest

instance decidableGuarded (G : σ → ι → Prop) [∀ s i, Decidable (G s i)] :
    ∀ (s : σ) (run : List ι), Decidable (M.Guarded G s run)
  | _, [] => inferInstanceAs (Decidable True)
  | s, i :: rest =>
      have := decidableGuarded G (M.step s i).1 rest
      inferInstanceAs (Decidable (G s i ∧ M.Guarded G (M.step s i).1 rest))

@[simp] theorem after_nil (s : σ) : M.after s [] = s := rfl

@[simp] theorem after_cons (s : σ) (i : ι) (rest : List ι) :
    M.after s (i :: rest) = M.after (M.step s i).1 rest := rfl

theorem after_append (run more : List ι) :
    ∀ s : σ, M.after s (run ++ more) = M.after (M.after s run) more := by
  induction run with
  | nil => intro s; rfl
  | cons i rest ih => intro s; exact ih (M.step s i).1

theorem outputs_append (run more : List ι) :
    ∀ s : σ, M.outputs s (run ++ more) = M.outputs s run ++ M.outputs (M.after s run) more := by
  induction run with
  | nil => intro s; rfl
  | cons i rest ih =>
      intro s
      exact congrArg ((M.step s i).2 :: ·) (ih (M.step s i).1)

theorem after_concat (s : σ) (run : List ι) (i : ι) :
    M.after s (run ++ [i]) = (M.step (M.after s run) i).1 := by
  rw [after_append]
  rfl

theorem guarded_append (G : σ → ι → Prop) (run more : List ι) :
    ∀ s : σ, M.Guarded G s (run ++ more) ↔
      M.Guarded G s run ∧ M.Guarded G (M.after s run) more := by
  induction run with
  | nil => intro s; simp [Guarded]
  | cons i rest ih =>
      intro s
      simp only [List.cons_append, Guarded, after_cons, ih (M.step s i).1, and_assoc]

theorem guarded_concat (G : σ → ι → Prop) (s : σ) (run : List ι) (i : ι) :
    M.Guarded G s (run ++ [i]) ↔ M.Guarded G s run ∧ G (M.after s run) i := by
  rw [guarded_append]
  simp [Guarded]

theorem guarded_and {G H : σ → ι → Prop} (run : List ι) (s : σ) :
    M.Guarded (fun s i => G s i ∧ H s i) s run ↔ M.Guarded G s run ∧ M.Guarded H s run := by
  induction run generalizing s with
  | nil => simp [Guarded]
  | cons i rest ih =>
      simp only [Guarded, ih]
      tauto

theorem guarded_true (s : σ) (run : List ι) : M.Guarded (fun _ _ => True) s run := by
  induction run generalizing s with
  | nil => exact True.intro
  | cons i rest ih => exact ⟨True.intro, ih _⟩

/-! ### Invariants of runs -/

/-- **An invariant the guarded steps keep holds after every guarded run.** -/
theorem invariant_guarded {I : σ → Prop} {G : σ → ι → Prop}
    (hstep : ∀ s i, I s → G s i → I (M.step s i).1) :
    ∀ (run : List ι) (s : σ), I s → M.Guarded G s run → I (M.after s run) := by
  intro run
  induction run with
  | nil => intro s h _; exact h
  | cons i rest ih => intro s h hg; exact ih _ (hstep s i h hg.1) hg.2

/-- An invariant every step keeps holds after every run. -/
theorem invariant {I : σ → Prop} (hstep : ∀ s i, I s → I (M.step s i).1)
    (run : List ι) (s : σ) (h : I s) : I (M.after s run) :=
  M.invariant_guarded (G := fun _ _ => True) (fun s i h _ => hstep s i h) run s h
    (M.guarded_true s run)

/-- **What every step gives under an invariant, every output of a run is.** -/
theorem outputs_of_invariant {I : σ → Prop} {G : ι → Prop} {Q : ο → Prop}
    (hstep : ∀ s i, I s → G i → I (M.step s i).1 ∧ Q (M.step s i).2) :
    ∀ (run : List ι) (s : σ), I s → (∀ i ∈ run, G i) → ∀ o ∈ M.outputs s run, Q o := by
  intro run
  induction run with
  | nil =>
      intro s _ _ o ho
      simp [outputs] at ho
  | cons i rest ih =>
      intro s hI hG o ho
      obtain ⟨hI', hQ⟩ := hstep s i hI (hG i (List.mem_cons_self ..))
      rcases List.mem_cons.mp ho with rfl | hrest
      · exact hQ
      · exact ih _ hI' (fun j hj => hG j (List.mem_cons_of_mem _ hj)) o hrest

/-- A property of the steps that is a guard's, while an invariant holds that the guarded steps
keep, is the guard's of every run. -/
theorem guarded_iff {I : σ → Prop} {G P : σ → ι → Prop}
    (hstep : ∀ s i, I s → G s i → I (M.step s i).1) (hiff : ∀ s i, I s → (P s i ↔ G s i)) :
    ∀ (run : List ι) (s : σ), I s → (M.Guarded P s run ↔ M.Guarded G s run) := by
  intro run
  induction run with
  | nil => intro s _; exact Iff.rfl
  | cons i rest ih =>
      intro s h
      constructor
      · intro hp
        have hg := (hiff s i h).mp hp.1
        exact ⟨hg, (ih _ (hstep s i h hg)).mp hp.2⟩
      · intro hg
        exact ⟨(hiff s i h).mpr hg.1, (ih _ (hstep s i h hg.1)).mpr hg.2⟩

/-- The same of runs whose inputs meet a condition of their own. -/
theorem guarded_iff_of {I : σ → Prop} {C : ι → Prop} {G P : σ → ι → Prop}
    (hstep : ∀ s i, I s → C i → G s i → I (M.step s i).1)
    (hiff : ∀ s i, I s → C i → (P s i ↔ G s i)) :
    ∀ (run : List ι) (s : σ), I s → (∀ i ∈ run, C i) →
      (M.Guarded P s run ↔ M.Guarded G s run) := by
  intro run
  induction run with
  | nil => intro s _ _; exact Iff.rfl
  | cons i rest ih =>
      intro s hI hC
      have hi := hC i (List.mem_cons_self ..)
      have hrest := fun j hj => hC j (List.mem_cons_of_mem i hj)
      constructor
      · intro hp
        have hg := (hiff s i hI hi).mp hp.1
        exact ⟨hg, (ih _ (hstep s i hI hi hg) hrest).mp hp.2⟩
      · intro hg
        exact ⟨(hiff s i hI hi).mpr hg.1, (ih _ (hstep s i hI hi hg.1) hrest).mpr hg.2⟩

/-! ### Runs under a clock -/

/-- The times of the inputs start at `t₀` or later and never go back. -/
def Clocked (time : ι → Nat) (t₀ : Nat) (run : List ι) : Prop :=
  (t₀ :: run.map time).Pairwise (· ≤ ·)

instance (time : ι → Nat) (t₀ : Nat) (run : List ι) : Decidable (Clocked time t₀ run) :=
  inferInstanceAs (Decidable (List.Pairwise _ _))

theorem clocked_cons {time : ι → Nat} {t₀ : Nat} {i : ι} {rest : List ι} :
    Clocked time t₀ (i :: rest) → t₀ ≤ time i ∧ Clocked time (time i) rest := by
  intro h
  obtain ⟨hall, hrest⟩ := List.pairwise_cons.mp h
  exact ⟨hall _ (by simp), hrest⟩

/-- The time of the last input of a run, or `t₀` when there is none. -/
def lastTime (time : ι → Nat) : Nat → List ι → Nat
  | t, [] => t
  | _, i :: rest => lastTime time (time i) rest

/-- **The clocked rule.**  The invariant may speak of the time of the last step. -/
theorem invariant_clocked {time : ι → Nat} {I : Nat → σ → Prop} {G : σ → ι → Prop}
    (hstep : ∀ t s i, I t s → t ≤ time i → G s i → I (time i) (M.step s i).1) :
    ∀ (run : List ι) (t : Nat) (s : σ), I t s → Clocked time t run → M.Guarded G s run →
      I (lastTime time t run) (M.after s run) := by
  intro run
  induction run with
  | nil => intro t s h _ _; exact h
  | cons i rest ih =>
      intro t s h hc hg
      obtain ⟨hle, hrest⟩ := clocked_cons hc
      exact ih (time i) _ (hstep t s i h hle hg.1) hrest hg.2

/-- **What a guard gives a step under a clocked invariant, it gives every step of a run.** -/
theorem guarded_of_clocked {time : ι → Nat} {I : Nat → σ → Prop} {P G : σ → ι → Prop}
    (hstep : ∀ t s i, I t s → t ≤ time i → I (time i) (M.step s i).1)
    (hgives : ∀ t s i, I t s → G s i → P s i) :
    ∀ (run : List ι) (t : Nat) (s : σ), I t s → Clocked time t run →
      M.Guarded G s run → M.Guarded P s run := by
  intro run
  induction run with
  | nil => intro t s _ _ hg; exact hg
  | cons i rest ih =>
      intro t s h hc hg
      obtain ⟨hle, hrest⟩ := clocked_cons hc
      exact ⟨hgives t s i h hg.1, ih (time i) _ (hstep t s i h hle) hrest hg.2⟩

/-- **The clocked rule for a property of the steps**: while an invariant of the clocked runs
makes it a guard's, it is the guard's of every clocked run. -/
theorem guarded_iff_clocked {time : ι → Nat} {I : Nat → σ → Prop} {P G : σ → ι → Prop}
    (hstep : ∀ t s i, I t s → t ≤ time i → I (time i) (M.step s i).1)
    (hiff : ∀ t s i, I t s → (P s i ↔ G s i)) :
    ∀ (run : List ι) (t : Nat) (s : σ), I t s → Clocked time t run →
      (M.Guarded P s run ↔ M.Guarded G s run) := by
  intro run
  induction run with
  | nil => intro t s _ _; exact Iff.rfl
  | cons i rest ih =>
      intro t s h hc
      obtain ⟨hle, hrest⟩ := clocked_cons hc
      exact and_congr (hiff t s i h) (ih (time i) _ (hstep t s i h hle) hrest)

/-- **The rule for inputs that come in order**, of a clock or of anything else they carry:
the invariant may speak of how far they have come, and holds before the last of them. -/
theorem invariant_before {κ : Type*} [Preorder κ] {key : ι → κ} {I : κ → σ → Prop}
    (hstep : ∀ k s i, I k s → k ≤ key i → I (key i) (M.step s i).1) (last : ι) :
    ∀ (run : List ι) (k : κ) (s : σ), I k s →
      (k :: (run ++ [last]).map key).Pairwise (· ≤ ·) → ∃ k', k' ≤ key last ∧ I k' (M.after s run) := by
  intro run
  induction run with
  | nil =>
      intro k s h hord
      exact ⟨k, (List.pairwise_cons.mp hord).1 _ (by simp), h⟩
  | cons i rest ih =>
      intro k s h hord
      obtain ⟨hfirst, hrest⟩ := List.pairwise_cons.mp hord
      exact ih (key i) _ (hstep k s i h (hfirst _ (by simp))) hrest

theorem clocked_concat_le {time : ι → Nat} :
    ∀ (run : List ι) (t : Nat) (i : ι), Clocked time t (run ++ [i]) →
      Clocked time t run ∧ lastTime time t run ≤ time i := by
  intro run
  induction run with
  | nil => intro t i h; exact ⟨by simp [Clocked], (clocked_cons h).1⟩
  | cons j rest ih =>
      intro t i h
      have hsub : ((j :: rest).map time).Sublist (((j :: rest) ++ [i]).map time) :=
        (List.sublist_append_left (j :: rest) [i]).map time
      exact ⟨h.sublist (hsub.cons_cons t), (ih (time j) i (clocked_cons h).2).2⟩

/-! ### Histories -/

/-- The machine with a history beside it: `note` writes down each step. -/
def withHistory (note : η → σ → ι → ο → η) : StepMachine (σ × η) ι ο where
  step s i := (((M.step s.1 i).1, note s.2 s.1 i (M.step s.1 i).2), (M.step s.1 i).2)

/-- A guard on the machine's own state is no stricter with a history beside it. -/
theorem withHistory_guarded (note : η → σ → ι → ο → η) {G : σ → ι → Prop} (run : List ι) :
    ∀ s : σ × η, M.Guarded G s.1 run →
      (M.withHistory note).Guarded (fun s i => G s.1 i) s run := by
  induction run with
  | nil => intro s _; exact True.intro
  | cons i rest ih => intro s hg; exact ⟨hg.1, ih ((M.withHistory note).step s i).1 hg.2⟩

end StepMachine
