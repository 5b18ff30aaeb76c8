/-
Row resolution is stable and faithful.

The pointer last returned is the slot the cache calls its current one (`cur_returned`), and
that slot holds the row of some facts (`SlotTold`).  When a call finds its own widths and
display there, that row was named from a display equal to its own, so it is the row of the
call's facts too; otherwise the call fills the other slot and the last one stays as it was.
-/
import Mathlib.Data.List.Induction
import ReacPw.BoxRow
import ReacPw.Proofs.Autodetect

namespace ReacPw

variable {P F K : Type} [DecidableEq F] (A : BoxFactsApi P F K)

/-- The display text determines the name and the token. -/
def DisplayTells : Prop :=
  ∀ fam said i o fam' said' i' o' names names',
    A.boxName fam said i o = some names → A.boxName fam' said' i' o' = some names' →
      names.display = names'.display → names.name = names'.name ∧ names.token = names'.token

/-- Nothing declared, the identity page awaited, or no box width. -/
def RowFacts.nameless (f : RowFacts P) : Prop :=
  f.declaredIn = 0 ∧ f.declaredOut = 0 ∨ (f.haveHw A = false ∧ f.waitOver = false) ∨
    f.names A = none

/-- The row agrees with the facts in widths and display. -/
def RowFacts.Agrees (f : RowFacts P) (row : BoxRow) : Prop :=
  ∃ names, f.names A = some names ∧ row.inCh = f.declaredIn ∧ row.outCh = f.declaredOut ∧
    row.display = names.display

/-- The row is the facts': their widths, and the name, token and display they give. -/
def RowFacts.Tells (f : RowFacts P) (row : BoxRow) : Prop :=
  ∃ names, f.names A = some names ∧ row = f.row names

/-! ### One call -/

/-- What a call can do. -/
inductive Resolved (r : BoxRowCache) (catalogue : Option K) (f : RowFacts P) :
    BoxRowCache × Option RowSlot → Prop
  | nothing (hnone : f.nameless A) : Resolved r catalogue f (r, none)
  /-- The row last returned is the one. -/
  | again (hsome : ¬f.nameless A) {p : RowSlot} (hcur : r.rows.cur = some p)
      (hagrees : f.Agrees A (r.rows.row p)) : Resolved r catalogue f (r, some p)
  /-- A new row, in the slot beside. -/
  | built (hsome : ¬f.nameless A) {names : BoxNames} (hnames : f.names A = some names)
      (hother : ∀ p, r.rows.cur = some p → ¬f.Agrees A (r.rows.row p)) :
      Resolved r catalogue f
        ({ rows := r.rows.put (f.row names) r.rows.next
           defect := A.catalogueDefect catalogue f.declaredIn f.declaredOut names.display
           unknownFamily := decide (A.familyOf f.id = A.unknownFamily) && (f.said A).isNone },
          some r.rows.next)

omit [DecidableEq F] in
theorem same_iff {f : RowFacts P} {names : BoxNames} (hnames : f.names A = some names)
    (row : BoxRow) : f.same names row = true ↔ f.Agrees A row := by
  simp only [RowFacts.same, Bool.and_eq_true, beq_iff_eq, RowFacts.Agrees, hnames,
    Option.some.injEq, exists_eq_left', and_assoc]

theorem boxRowResolve_resolved (r : BoxRowCache) (catalogue : Option K) (f : RowFacts P) :
    Resolved A r catalogue f (boxRowResolve A r catalogue f) := by
  unfold boxRowResolve
  split
  · rename_i hnothing
    exact .nothing (Or.inl hnothing)
  · rename_i hdeclared
    split
    · rename_i hwait
      exact .nothing (Or.inr (Or.inl (by simpa using hwait)))
    · rename_i hover
      cases hnames : f.names A with
      | none => exact .nothing (Or.inr (Or.inr hnames))
      | some names =>
          have hsome : ¬f.nameless A := by
            rintro (hnothing | hwait | hnone)
            · exact hdeclared hnothing
            · exact hover (by simp [hwait.1, hwait.2])
            · rw [hnames] at hnone
              exact Option.some_ne_none _ hnone
          dsimp only
          split
          · rename_i p hp
            obtain ⟨hcur, hsame⟩ := Option.filter_eq_some_iff.mp hp
            exact .again hsome hcur ((same_iff A hnames _).mp hsame)
          · rename_i hnone
            refine .built hsome hnames ?_
            intro p hcur hagrees
            have hsame := (same_iff A hnames (r.rows.row p)).mpr hagrees
            rw [hcur, Option.filter_some, if_pos hsame] at hnone
            exact Option.some_ne_none _ hnone

/-! ### What the slot last returned holds -/

/-- The slot last returned holds the row of some facts. -/
def SlotTold (r : BoxRowCache) : Prop :=
  ∀ p, r.rows.cur = some p → ∃ f : RowFacts P, f.Tells A (r.rows.row p)

omit [DecidableEq F] in
theorem slotTold_init : SlotTold A reacBoxRowsInit := by
  intro p hcur
  cases hcur

theorem SlotTold.resolve {r : BoxRowCache} (h : SlotTold A r) (catalogue : Option K)
    (f : RowFacts P) : SlotTold A (boxRowResolve A r catalogue f).1 := by
  generalize hdone : boxRowResolve A r catalogue f = done
  have hdid := hdone ▸ boxRowResolve_resolved A r catalogue f
  cases hdid with
  | nothing => exact h
  | again => exact h
  | built hsome hnames hother =>
      intro p hcur
      have hp : r.rows.next = p := by simpa using hcur
      subst hp
      exact ⟨f, _, hnames, row_put _ _ _⟩

theorem slotTold_run (run : List (BoxRowCall P K)) :
    SlotTold A ((boxRowMachine A).after reacBoxRowsInit run) :=
  (boxRowMachine A).invariant (fun _ c h => h.resolve A c.catalogue c.facts) run _
    (slotTold_init A)

omit [DecidableEq F] in
/-- **A row that agrees with the facts tells them**, whatever facts it was built from. -/
theorem Agrees.tells (hdisplay : DisplayTells A) {f g : RowFacts P} {row : BoxRow}
    (hagrees : f.Agrees A row) (htold : g.Tells A row) : f.Tells A row := by
  obtain ⟨names, hnames, hin, hout, hshown⟩ := hagrees
  obtain ⟨old, hold, rfl⟩ := htold
  obtain ⟨hname, htoken⟩ := hdisplay _ _ _ _ _ _ _ _ old names hold hnames hshown
  refine ⟨names, hnames, ?_⟩
  simp only [RowFacts.row] at hin hout hshown ⊢
  rw [hname, htoken, hshown, hin, hout]

/-! ### The pointer last returned -/

/-- The pointer the calls so far returned last, when one returned any. -/
def lastReturned (returned : List (Option RowSlot)) : Option RowSlot :=
  (returned.filterMap id).getLast?

theorem lastReturned_concat (returned : List (Option RowSlot)) (p : Option RowSlot) :
    lastReturned (returned ++ [p]) = p.or (lastReturned returned) := by
  unfold lastReturned
  cases p with
  | none => simp
  | some slot => simp

/-- The slot a call returns is the current one after it, and one that returns none leaves
it. -/
theorem boxRowResolve_cur (r : BoxRowCache) (catalogue : Option K) (f : RowFacts P) :
    (boxRowResolve A r catalogue f).1.rows.cur =
      (boxRowResolve A r catalogue f).2.or r.rows.cur := by
  generalize hdone : boxRowResolve A r catalogue f = done
  have hdid := hdone ▸ boxRowResolve_resolved A r catalogue f
  cases hdid with
  | nothing => rfl
  | again _ hcur _ => exact hcur
  | built => exact put_cur _ _ _

theorem cur_returned (run : List (BoxRowCall P K)) :
    ((boxRowMachine A).after reacBoxRowsInit run).rows.cur =
      lastReturned ((boxRowMachine A).outputs reacBoxRowsInit run) := by
  induction run using List.reverseRecOn with
  | nil => rfl
  | append_singleton run c ih =>
      rw [StepMachine.after_concat, StepMachine.outputs_append,
        show (boxRowMachine A).outputs ((boxRowMachine A).after reacBoxRowsInit run) [c] =
          [(boxRowResolve A ((boxRowMachine A).after reacBoxRowsInit run) c.catalogue c.facts).2]
          from rfl,
        lastReturned_concat, ← ih]
      exact boxRowResolve_cur A _ _ _

/-! ### The contract -/

/-- What a call owes, from a given cache, after calls that returned `last` last. -/
structure RowContract (r : BoxRowCache) (last : Option RowSlot) (catalogue : Option K)
    (f : RowFacts P) : Prop where
  /-- What is returned is the row of this call's facts. -/
  faithful : ∀ p, (boxRowResolve A r catalogue f).2 = some p →
    f.Tells A ((boxRowResolve A r catalogue f).1.rows.row p)
  /-- The same facts return the same pointer. -/
  stable : ∀ catalogue',
    (boxRowResolve A (boxRowResolve A r catalogue f).1 catalogue' f).2 =
      (boxRowResolve A r catalogue f).2
  /-- Other widths or another display than the row last returned has: another pointer, and
  that row stays what it was. -/
  apart : ∀ p ∈ last, ¬f.Agrees A (r.rows.row p) →
    (boxRowResolve A r catalogue f).2 ≠ some p ∧
      (boxRowResolve A r catalogue f).1.rows.row p = r.rows.row p
  /-- None is returned just when there is no name to give, and changes nothing. -/
  none_iff : (boxRowResolve A r catalogue f).2 = none ↔ f.nameless A
  none_keeps : (boxRowResolve A r catalogue f).2 = none → (boxRowResolve A r catalogue f).1 = r
  /-- No row before the hardware block, unless the wait is over. -/
  waits : (boxRowResolve A r catalogue f).2 ≠ none → f.haveHw A = true ∨ f.waitOver = true

omit [DecidableEq F] in
theorem not_nameless_waits {f : RowFacts P} (h : ¬f.nameless A) :
    f.haveHw A = true ∨ f.waitOver = true := by
  by_contra hnot
  simp only [not_or, Bool.not_eq_true] at hnot
  exact h (Or.inr (Or.inl hnot))

/-- The slot beside keeps its row when this one is filled. -/
theorem row_put_next (r : BoxRows) (row : BoxRow) {last : RowSlot} (hcur : r.cur = some last) :
    r.next ≠ last ∧ (r.put row r.next).row last = r.row last := by
  rw [next_of_cur hcur]
  cases last with
  | first => exact ⟨nofun, rfl⟩
  | second => exact ⟨nofun, rfl⟩

/-- A call that returned a slot finds it again. -/
theorem boxRowResolve_finds {r : BoxRowCache} {p : RowSlot} {f : RowFacts P}
    (hcur : r.rows.cur = some p) (hagrees : f.Agrees A (r.rows.row p)) (hsome : ¬f.nameless A)
    (catalogue : Option K) : (boxRowResolve A r catalogue f).2 = some p := by
  generalize hdone : boxRowResolve A r catalogue f = done
  have hdid := hdone ▸ boxRowResolve_resolved A r catalogue f
  cases hdid with
  | nothing hnone => exact absurd hnone hsome
  | again _ hq _ => exact hq.symm.trans hcur
  | built _ _ hother => exact absurd hagrees (hother p hcur)

theorem SlotTold.contract {r : BoxRowCache} (h : SlotTold A r) (hdisplay : DisplayTells A)
    (catalogue : Option K) (f : RowFacts P) : RowContract A r r.rows.cur catalogue f := by
  generalize hdone : boxRowResolve A r catalogue f = done
  have hdid := hdone ▸ boxRowResolve_resolved A r catalogue f
  cases hdid with
  | nothing hnone =>
      have hstable : ∀ catalogue', (boxRowResolve A r catalogue' f).2 = none := by
        intro catalogue'
        generalize hagain : boxRowResolve A r catalogue' f = again
        have hdid := hagain ▸ boxRowResolve_resolved A r catalogue' f
        cases hdid with
        | nothing => rfl
        | again hsome => exact absurd hnone hsome
        | built hsome => exact absurd hnone hsome
      exact
        { faithful := by rw [hdone]; exact fun p hp => absurd hp.symm (Option.some_ne_none p)
          stable := by rw [hdone]; exact hstable
          apart := by rw [hdone]; exact fun last _ _ => ⟨(Option.some_ne_none last).symm, rfl⟩
          none_iff := by rw [hdone]; exact ⟨fun _ => hnone, fun _ => rfl⟩
          none_keeps := by rw [hdone]; exact fun _ => rfl
          waits := by rw [hdone]; exact fun hne => absurd rfl hne }
  | again hsome hcur hagrees =>
      rename_i p
      refine
        { faithful := ?_, stable := ?_, apart := ?_
          none_iff := by rw [hdone]; exact ⟨nofun, fun hnone => absurd hnone hsome⟩
          none_keeps := by rw [hdone]; exact nofun
          waits := fun _ => not_nameless_waits A hsome }
      · rw [hdone]
        rintro q hq
        obtain rfl : p = q := by simpa using hq
        obtain ⟨g, htold⟩ := h p hcur
        exact Agrees.tells A hdisplay hagrees htold
      · rw [hdone]
        exact boxRowResolve_finds A hcur hagrees hsome
      · rw [hdone]
        intro last hlast hapart
        obtain rfl : p = last := Option.some.inj (hcur.symm.trans hlast)
        exact absurd hagrees hapart
  | built hsome hnames hother =>
      refine
        { faithful := ?_, stable := ?_, apart := ?_
          none_iff := by rw [hdone]; exact ⟨nofun, fun hnone => absurd hnone hsome⟩
          none_keeps := by rw [hdone]; exact nofun
          waits := fun _ => not_nameless_waits A hsome }
      · rw [hdone]
        rintro q hq
        obtain rfl : r.rows.next = q := by simpa using hq
        exact ⟨_, hnames, row_put _ _ _⟩
      · rw [hdone]
        refine boxRowResolve_finds A (put_cur _ _ _) ?_ hsome
        rw [row_put]
        exact ⟨_, hnames, rfl, rfl, rfl⟩
      · rw [hdone]
        intro last hlast _
        obtain ⟨hne, hkept⟩ := row_put_next r.rows (f.row _) hlast
        exact ⟨fun heq => hne (Option.some.inj heq), hkept⟩

/-- **Row resolution is stable and faithful.**  After any run of calls, the next one keeps
the whole contract toward the pointer they returned last, when a display text belongs to one
name and token. -/
theorem row_resolution_contract (hdisplay : DisplayTells A) (run : List (BoxRowCall P K))
    (catalogue : Option K) (f : RowFacts P) :
    RowContract A ((boxRowMachine A).after reacBoxRowsInit run)
      (lastReturned ((boxRowMachine A).outputs reacBoxRowsInit run)) catalogue f := by
  rw [← cur_returned]
  exact (slotTold_run A run).contract A hdisplay catalogue f

/-- A namer by the widths, which displays them. -/
def widthsApi : BoxFactsApi Unit Unit Unit where
  hasReacVersion _ := true
  modelName _ := none
  familyOf _ := ()
  unknownFamily := ()
  boxName _ _ i o :=
    if i < 0 ∨ 40 < i ∨ o < 0 ∨ 40 < o then none
    else
      let text := txt "REAC-" ++ (toString i).toList ++ txt "x" ++ (toString o).toList
      some ⟨text, text, text⟩
  catalogueDefect _ _ _ _ := 0

omit [DecidableEq F] in
theorem widthsApi_tells : DisplayTells widthsApi := by
  intro fam said i o fam' said' i' o' names names' h h' hshown
  simp only [widthsApi] at h h'
  split at h
  · cases h
  · split at h'
    · cases h'
    · simp only [Option.some.injEq] at h h'
      subst h h'
      exact ⟨hshown, hshown⟩

/-- A box grew and shrank back: the third row is not where the second one is, which stays
the 40-wide one for whoever still holds its pointer. -/
theorem row_resolution_contract_widths :
    let calls : List (BoxRowCall Unit Unit) :=
      [⟨none, ⟨16, 8, some (), false⟩⟩, ⟨none, ⟨40, 0, none, true⟩⟩]
    let before := (boxRowMachine widthsApi).after reacBoxRowsInit calls
    let last := lastReturned ((boxRowMachine widthsApi).outputs reacBoxRowsInit calls)
    let done := boxRowResolve widthsApi before none ⟨16, 8, some (), false⟩
    last = some .second ∧ (before.rows.row .second).inCh = 40 ∧ done.2 = some .first ∧
      done.1.rows.row .second = before.rows.row .second ∧
      RowContract widthsApi before last none ⟨16, 8, some (), false⟩ :=
  ⟨by decide, by decide, by decide, by decide,
    row_resolution_contract widthsApi widthsApi_tells _ _ _⟩

end ReacPw
