/-
Marks are taken back.

The record is the first interfaces that were served, as many as it has room for
(`RecordTold`): what is served beyond that is marked all the same and never remembered.
The exit clears what is in the record and still carries the mark, so of all that was
served only what came too late can keep it.
-/
import Mathlib.Data.List.Nodup
import ReacPw.ServedMark

namespace ReacPw

/-- After a run from an empty record. -/
abbrev servedAfter (w : Links) (run : List MarkCall) : (Links × ServedMarks) × List Text :=
  servedMachine.after ((w, {}), []) run

/-- The aliases as the exit leaves them, and the record. -/
abbrev servedExit (w : Links) (run : List MarkCall) : Links × ServedMarks :=
  reacServedUnmarkAll (servedAfter w run).1.1 (servedAfter w run).1.2

/-- An alias that is the host's, or a VLAN the host made without one. -/
def Hosts (w : Links) (name : Text) : Prop :=
  w.ifalias name ≠ [] ∧ reacAliasPrefix.isPrefixOf (w.ifalias name) = false ∨
    w.ifalias name = [] ∧ w.kind name = txt "vlan"

/-- What is the host's stays as it is. -/
def Spares (w later : Links) : Prop := ∀ name, Hosts w name → later.ifalias name = w.ifalias name

/-- What the marks of a run owe the host. -/
structure MarksTakenBack (w : Links) (run : List MarkCall) : Prop where
  cleared : ∀ name ∈ (servedAfter w run).2, (servedExit w run).1.ifalias name ≠ reacServedAlias
  spared : ∀ before ifname after, run = before ++ .mark ifname :: after →
    Spares (servedAfter w before).1.1 (servedAfter w (before ++ [.mark ifname])).1.1
  sparedAtExit : Spares (servedAfter w run).1.1 (servedExit w run).1
  emptied : (servedExit w run).2 = {}

/-! ### Writes -/

theorem write_ifalias (w : Links) (name ifalias other : Text) :
    (w.write name ifalias).ifalias other = if other = name then ifalias else w.ifalias other := by
  simp [Links.write, Function.update_apply]

theorem Spares.refl (w : Links) : Spares w w := fun _ _ => rfl

/-- A write where nothing is the host's spares the host. -/
theorem Spares.write {w : Links} {name : Text} (h : ¬Hosts w name) (ifalias : Text) :
    Spares w (w.write name ifalias) := by
  intro other hother
  rw [write_ifalias]
  split
  · rename_i hsame
    exact absurd (hsame ▸ hother) h
  · rfl

/-- The mark is not the host's. -/
theorem not_hosts_served {w : Links} {name : Text} (h : w.ifalias name = reacServedAlias) :
    ¬Hosts w name := by
  rintro (⟨_, hother⟩ | ⟨hnone, _⟩)
  · rw [h] at hother
    exact absurd hother (by decide)
  · rw [h] at hnone
    exact absurd hnone (by decide)

/-! ### The exit -/

theorem unmark_ifalias (w : Links) (name other : Text) :
    (unmark w name).ifalias other =
      if other = name ∧ w.ifalias name = reacServedAlias then [] else w.ifalias other := by
  unfold unmark
  by_cases hours : w.ifalias name = reacServedAlias
  · rw [if_pos hours, write_ifalias]
    simp [hours]
  · rw [if_neg hours, if_neg fun h => hours h.2]

/-- **The exit clears just what is in the record and still carries the mark.** -/
theorem unmarkAll_ifalias (names : List Text) (name : Text) :
    ∀ w : Links, (names.foldl unmark w).ifalias name =
      if name ∈ names ∧ w.ifalias name = reacServedAlias then [] else w.ifalias name := by
  induction names with
  | nil => intro w; simp
  | cons first rest ih =>
      intro w
      rw [List.foldl_cons, ih, unmark_ifalias]
      by_cases hfirst : name = first
      · subst hfirst
        by_cases hours : w.ifalias name = reacServedAlias
        · simp [hours]
        · simp [hours]
      · simp [hfirst]

theorem unmarkAll_spares (names : List Text) (w : Links) : Spares w (names.foldl unmark w) := by
  intro name hhost
  rw [unmarkAll_ifalias]
  exact if_neg fun h => not_hosts_served h.2 hhost

/-! ### One call -/

/-- What a mark does. -/
inductive Marked (w : Links) (m : ServedMarks) (ifname : Text) :
    (Links × ServedMarks) × Option ServedVerdict → Prop
  | mark (hfree : w.ifalias ifname = [] ∧ w.kind ifname ≠ txt "vlan") :
      Marked w m ifname ((w.write ifname reacServedAlias, remember m ifname), some .mark)
  /-- An earlier run left the mark. -/
  | found (hours : w.ifalias ifname = reacServedAlias) :
      Marked w m ifname ((w, remember m ifname), some .ours)
  | left (v : ServedVerdict) (hmark : v ≠ .mark)
      (hother : v = .ours → w.ifalias ifname ≠ reacServedAlias) :
      Marked w m ifname ((w, m), some v)

theorem reacServedMark_marked (w : Links) (m : ServedMarks) (ifname : LinkName) :
    Marked w m ifname.text (reacServedMark w m ifname.text) := by
  unfold reacServedMark
  rw [if_neg ifname.nonempty]
  dsimp only
  cases hv : reacServedDecide (w.kind ifname.text) (w.ifalias ifname.text) with
  | mark =>
      refine .mark ?_
      unfold reacServedDecide at hv
      split at hv
      · split at hv
        · cases hv
        · cases hv
      · rename_i hnone
        split at hv
        · cases hv
        · rename_i hkind
          exact ⟨not_not.mp hnone, hkind⟩
  | ours =>
      dsimp only
      split
      · rename_i hours
        exact .found hours
      · rename_i hours
        exact .left .ours nofun fun _ => hours
  | leaveVlan => exact .left .leaveVlan nofun nofun
  | leaveHost => exact .left .leaveHost nofun nofun

theorem reacServedMark_spares (w : Links) (m : ServedMarks) (ifname : LinkName) :
    Spares w (reacServedMark w m ifname.text).1.1 := by
  generalize hdone : reacServedMark w m ifname.text = done
  have hdid := hdone ▸ reacServedMark_marked w m ifname
  cases hdid with
  | mark hfree =>
      refine Spares.write ?_ _
      rintro (⟨hsome, _⟩ | ⟨_, hvlan⟩)
      · exact hsome hfree.1
      · exact hfree.2 hvlan
  | found => exact Spares.refl w
  | left => exact Spares.refl w

/-! ### The record -/

/-- The record is the first that were served, each once. -/
structure RecordTold (s : (Links × ServedMarks) × List Text) : Prop where
  record : s.1.2.name = s.2.take reacServedMax
  nodup : s.2.Nodup

/-- An interface that is served is remembered while there is room. -/
theorem remember_served {m : ServedMarks} {served : List Text}
    (hrecord : m.name = served.take reacServedMax) (ifname : LinkName) :
    (remember m ifname.text).name =
      (if ifname.text ∉ served then served ++ [ifname.text] else served).take reacServedMax := by
  have hclipped : clipped ifnamsiz ifname.text = ifname.text :=
    List.take_of_length_le (Nat.le_sub_one_of_lt ifname.fits)
  unfold remember
  simp only [List.contains_iff_mem]
  rw [hrecord, hclipped, List.length_take]
  by_cases hnew : ifname.text ∉ served
  · have hout : ifname.text ∉ served.take reacServedMax := fun h => hnew (List.mem_of_mem_take h)
    rw [if_neg hout, if_pos hnew]
    by_cases hfull : reacServedMax ≤ served.length
    · rw [if_pos (by omega), hrecord, List.take_append_of_le_length hfull]
    · rw [if_neg (by omega), List.take_of_length_le (by omega),
        List.take_of_length_le (by simp; omega)]
  · rw [if_neg hnew]
    split
    · exact hrecord
    · rename_i hout
      -- it was served too late to be remembered, so there is no room now
      have hfull : reacServedMax ≤ served.length := by
        by_contra hroom
        rw [List.take_of_length_le (by omega)] at hout
        exact hnew hout
      rw [if_pos (by omega), hrecord]

theorem recordTold_start (w : Links) : RecordTold ((w, {}), []) := ⟨rfl, List.nodup_nil⟩

theorem nodup_note {served : List Text} (h : served.Nodup) (name : Text) :
    (if name ∉ served then served ++ [name] else served).Nodup := by
  split
  · rename_i hnew
    exact List.nodup_append.mpr ⟨h, List.nodup_singleton name, by
      intro a ha b hb hab
      rw [List.mem_singleton.mp hb] at hab
      exact hnew (hab ▸ ha)⟩
  · exact h

theorem RecordTold.step {s : (Links × ServedMarks) × List Text} (h : RecordTold s)
    (call : MarkCall) : RecordTold (servedMachine.step s call).1 := by
  obtain ⟨⟨w, m⟩, served⟩ := s
  cases call with
  | host name kind ifalias => exact ⟨h.record, h.nodup⟩
  | mark ifname =>
      have hnew : (!served.contains ifname.text) = true ↔ ifname.text ∉ served := by simp
      change RecordTold ((reacServedMark w m ifname.text).1,
        noteServed served (w, m) (.mark ifname) (reacServedMark w m ifname.text).2)
      generalize hdone : reacServedMark w m ifname.text = done
      have hdid := hdone ▸ reacServedMark_marked w m ifname
      cases hdid with
      | mark hfree =>
          simp only [noteServed, true_or, true_and, hnew]
          exact ⟨remember_served h.record ifname, nodup_note h.nodup _⟩
      | found hours =>
          simp only [noteServed, hours, and_self, or_true, true_and, hnew]
          exact ⟨remember_served h.record ifname, nodup_note h.nodup _⟩
      | left v hmark hother =>
          have hnot : ¬((v = .mark ∨ v = .ours ∧ w.ifalias ifname.text = reacServedAlias) ∧
              (!served.contains ifname.text) = true) := by
            rintro ⟨hv | ⟨hv, hours⟩, _⟩
            · exact hmark hv
            · exact hother hv hours
          simp only [noteServed, if_neg hnot]
          exact h

theorem recordTold_run (w : Links) (run : List MarkCall) : RecordTold (servedAfter w run) :=
  servedMachine.invariant (fun _ call h => h.step call) run _ (recordTold_start w)

/-! ### The run -/

/-- **Marks are taken back**, except on what was served past the record's room and still
carries the mark at the exit. -/
theorem marks_taken_back_iff (w : Links) (run : List MarkCall) :
    MarksTakenBack w run ↔
      ∀ name ∈ (servedAfter w run).2.drop reacServedMax,
        (servedAfter w run).1.1.ifalias name ≠ reacServedAlias := by
  have htold := recordTold_run w run
  have hexit : ∀ name, (servedExit w run).1.ifalias name =
      if name ∈ (servedAfter w run).2.take reacServedMax ∧
          (servedAfter w run).1.1.ifalias name = reacServedAlias then []
      else (servedAfter w run).1.1.ifalias name := by
    intro name
    rw [← htold.record]
    exact unmarkAll_ifalias _ name _
  constructor
  · intro hlaw name hlate hours
    have hout : name ∉ (servedAfter w run).2.take reacServedMax := fun hin =>
      List.disjoint_take_drop htold.nodup (Nat.le_refl _) hin hlate
    have hcleared := hlaw.cleared name (List.mem_of_mem_drop hlate)
    rw [hexit, if_neg fun h => hout h.1] at hcleared
    exact hcleared hours
  · intro hlate
    refine
      { cleared := ?_, spared := ?_
        sparedAtExit := unmarkAll_spares _ _
        emptied := rfl }
    · intro name hserved
      rw [hexit]
      split
      · decide
      · rename_i hkept
        rw [← List.take_append_drop reacServedMax (servedAfter w run).2] at hserved
        rcases List.mem_append.mp hserved with hin | hout
        · exact fun hours => hkept ⟨hin, hours⟩
        · exact hlate name hout
    · intro before ifname after _
      rw [show servedAfter w (before ++ [.mark ifname]) =
        (servedMachine.step (servedAfter w before) (.mark ifname)).1 from
          servedMachine.after_concat _ _ _]
      exact reacServedMark_spares _ _ ifname

/-! ### One interface too many -/

/-- Physical ports without an alias. -/
def barePorts : Links := { kind := fun _ => [], ifalias := fun _ => [] }

def portName (i : Nat) : LinkName where
  text := ['p', Char.ofNat (65 + i)]
  nonempty := List.cons_ne_nil _ _
  fits := by simp [ifnamsiz]

/-- The thirty-third port keeps the mark. -/
theorem mark_left_behind :
    ¬MarksTakenBack barePorts ((List.range 33).map fun i => .mark (portName i)) := by
  intro hlaw
  exact hlaw.cleared (portName 32).text (by decide +kernel) (by decide +kernel)

end ReacPw
