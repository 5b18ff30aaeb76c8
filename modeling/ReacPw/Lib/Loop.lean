/-
A loop that runs until its body breaks, on a fuel.

The body takes the loop's state and says whether to go on.  Three rules are all a
proof about such a loop needs: what every turn keeps holds where the loop broke;
a measure that every turn lowers is enough fuel; a property no turn breaks at
keeps the loop running for ever.
-/
import Mathlib.Tactic.Common

namespace Loop

/-- `for (;;)` with a body whose `false` is the `break`, for as many turns as there is fuel. -/
def loop {σ : Type*} (body : σ → σ × Bool) : Nat → σ → Option σ
  | 0, _ => none
  | fuel + 1, s => if (body s).2 then loop body fuel (body s).1 else some (body s).1

section
variable {σ : Type*} {body : σ → σ × Bool}

/-- **Where the loop broke, what every turn keeps still holds**, and a turn broke there. -/
theorem loop_exit {I : σ → Prop} (hkeep : ∀ s, I s → I (body s).1) :
    ∀ (fuel : Nat) (s out : σ), I s → loop body fuel s = some out →
      I out ∧ ∃ last, I last ∧ body last = (out, false) := by
  intro fuel
  induction fuel with
  | zero => intro s out _ h; simp [loop] at h
  | succ fuel ih =>
      intro s out hI h
      by_cases hgo : (body s).2 = true
      · rw [loop, if_pos hgo] at h
        exact ih _ out (hkeep s hI) h
      · rw [loop, if_neg hgo] at h
        have hout : (body s).1 = out := by simpa using h
        have hstop : (body s).2 = false := by simpa using hgo
        refine ⟨hout ▸ hkeep s hI, s, hI, ?_⟩
        rw [← hout, ← hstop]

/-- **A measure every turn lowers is enough fuel.** -/
theorem loop_returns {I : σ → Prop} {μ : σ → Nat} (hkeep : ∀ s, I s → I (body s).1)
    (hlow : ∀ s, I s → (body s).2 = true → μ (body s).1 < μ s) :
    ∀ (fuel : Nat) (s : σ), I s → μ s < fuel → ∃ out, loop body fuel s = some out := by
  intro fuel
  induction fuel with
  | zero => intro s _ h; omega
  | succ fuel ih =>
      intro s hI h
      by_cases hgo : (body s).2 = true
      · have hless := hlow s hI hgo
        obtain ⟨out, hout⟩ := ih (body s).1 (hkeep s hI) (by omega)
        exact ⟨out, by rw [loop, if_pos hgo, hout]⟩
      · exact ⟨(body s).1, by rw [loop, if_neg hgo]⟩

/-- More fuel changes nothing once the loop has broken. -/
theorem loop_more_fuel :
    ∀ (fuel more : Nat) (s out : σ), fuel ≤ more → loop body fuel s = some out →
      loop body more s = some out := by
  intro fuel
  induction fuel with
  | zero => intro more s out _ h; simp [loop] at h
  | succ fuel ih =>
      intro more s out hle h
      obtain ⟨more, rfl⟩ : ∃ k, more = k + 1 := ⟨more - 1, by omega⟩
      by_cases hgo : (body s).2 = true
      · rw [loop, if_pos hgo] at h ⊢
        exact ih more _ out (by omega) h
      · rw [loop, if_neg hgo] at h ⊢
        exact h

/-- **A property no turn breaks at keeps the loop running for ever.** -/
theorem loop_never {I : σ → Prop} (hgo : ∀ s, I s → (body s).2 = true ∧ I (body s).1) :
    ∀ (fuel : Nat) (s : σ), I s → loop body fuel s = none := by
  intro fuel
  induction fuel with
  | zero => intro s _; rfl
  | succ fuel ih =>
      intro s hI
      rw [loop, if_pos (hgo s hI).1]
      exact ih _ (hgo s hI).2

end

end Loop
