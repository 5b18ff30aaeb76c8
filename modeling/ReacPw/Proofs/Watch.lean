/-
How long a refused door stands.

A door goes up on a REFUSED verdict and waits out a dwell before it comes down.
The table is asked on verdict edges only, so an edge that falls inside the dwell
is answered with standing and is not asked about again: the door outlives its
refusal for as long as the verdict then stays put.

That is the only way it does.  Over polls whose clock never goes back, those
inside the dwell come first, and they leave the door up with the verdict of the
last of them.  From there the first poll decides: it finds REFUSED standing, or it
brings an edge, or the door is stuck.  The induction is on the polls outside the
dwell, and what carries it is that a door still up has REFUSED standing.
-/
import ReacPw.Watch
import Mathlib.Data.List.TakeWhile

namespace ReacPw

variable (staleNs : Nat)

/-- A segment served as a refused door. -/
def Listener.refusedDoor (L : Listener) : Prop :=
  L.opened = true ∧ L.cfg.doorOnly = true ∧ L.cfg.doorVacant = false

/-! ### One poll on a refused door -/

/-- **What one poll does to a refused door.**  Inside the dwell it stands.  Outside, an
edge away from REFUSED takes it down and everything else leaves it. -/
theorem hearingYield_door {L : Listener} (hdoor : L.refusedDoor) (sn : Sniffer) (p : WatchPoll) :
    hearingYield staleNs (L, sn) p =
      if p.fresh = sn.verdict ∨ p.fresh = .refused ∨ inDwell staleNs p.now sn.openedNs = true
      then ((L, { sn with verdict := p.fresh }), .stand)
      else ((p.served, { sn with verdict := p.fresh }), .unrefuse) := by
  obtain ⟨hopen, hd, hv⟩ := hdoor
  have hstep : hearingYield staleNs (L, sn) p =
      ((if hearingYieldAct staleNs L sn p.now p.fresh = .stand then L else p.served,
        { sn with verdict := p.fresh }), hearingYieldAct staleNs L sn p.now p.fresh) := by
    simp [hearingYield, hopen, hd]
  have hact : hearingYieldAct staleNs L sn p.now p.fresh =
      if p.fresh = sn.verdict ∨ p.fresh = .refused ∨ inDwell staleNs p.now sn.openedNs = true
      then .stand else .unrefuse := by
    by_cases hsame : p.fresh = sn.verdict
    · simp [hearingYieldAct, hsame]
    · by_cases hr : p.fresh = .refused
      · simp [hearingYieldAct, reacWatchDecide, watchIn, hd, hv, hr]
      · simp [hearingYieldAct, reacWatchDecide, watchIn, hd, hv, hr, hsame]
  rw [hstep, hact]
  by_cases hstand : p.fresh = sn.verdict ∨ p.fresh = .refused ∨
      inDwell staleNs p.now sn.openedNs = true
  · rw [if_pos hstand, if_pos hstand]
    rfl
  · rw [if_neg hstand, if_neg hstand]
    rfl

/-! ### A run of polls -/

/-- The refusal ended: some poll dropped the door and served the segment again. -/
def fell (acts : List WatchAct) : Prop := .unrefuse ∈ acts

/-- Every poll past the dwell at which the hunt does not say REFUSED finds the door
down by its end. -/
def DoorFallsInTime (s : Listener × Sniffer) (run : List WatchPoll) : Prop :=
  ∀ pre p post, run = pre ++ p :: post →
    inDwell staleNs p.now s.2.openedNs = false → p.fresh ≠ .refused →
    fell ((watchMachine staleNs).outputs s (pre ++ [p]))

/-- The verdict a run of polls leaves standing. -/
def lastVerdict (v : HuntVerdict) (run : List WatchPoll) : HuntVerdict :=
  (run.getLast?.map WatchPoll.fresh).getD v

/-- The polls inside the dwell, and those after it. -/
def dwellPolls (openedNs : Nat) (run : List WatchPoll) : List WatchPoll :=
  run.takeWhile fun p => inDwell staleNs p.now openedNs

def pollsAfterDwell (openedNs : Nat) (run : List WatchPoll) : List WatchPoll :=
  run.dropWhile fun p => inDwell staleNs p.now openedNs

/-- The dwell ends with REFUSED standing, or the first poll after it brings an edge. -/
def AskedAfterDwell (openedNs : Nat) (run : List WatchPoll) : Prop :=
  lastVerdict .refused (dwellPolls staleNs openedNs run) = .refused ∨
  ∀ p ∈ (pollsAfterDwell staleNs openedNs run).head?,
    p.fresh ≠ lastVerdict .refused (dwellPolls staleNs openedNs run)

instance (openedNs : Nat) (run : List WatchPoll) :
    Decidable (AskedAfterDwell staleNs openedNs run) :=
  inferInstanceAs (Decidable (_ ∨ _))

theorem lastVerdict_cons (v : HuntVerdict) (p : WatchPoll) (rest : List WatchPoll) :
    lastVerdict v (p :: rest) = lastVerdict p.fresh rest := by
  unfold lastVerdict
  cases rest with
  | nil => rfl
  | cons q more => rw [List.getLast?_cons_cons, List.getLast?_cons, Option.map_some]; rfl

/-- A door still up goes through the polls of its dwell standing. -/
theorem dwell_stands {L : Listener} (hdoor : L.refusedDoor) :
    ∀ (run : List WatchPoll) (sn : Sniffer),
      (∀ p ∈ run, inDwell staleNs p.now sn.openedNs = true) →
      (watchMachine staleNs).after (L, sn) run =
        (L, { sn with verdict := lastVerdict sn.verdict run }) ∧
      ¬ fell ((watchMachine staleNs).outputs (L, sn) run) := by
  intro run
  induction run with
  | nil =>
      intro sn _
      exact ⟨rfl, List.not_mem_nil⟩
  | cons p rest ih =>
      intro sn hin
      have hp : inDwell staleNs p.now sn.openedNs = true := hin p (by simp)
      have hstep : (watchMachine staleNs).step (L, sn) p =
          ((L, { sn with verdict := p.fresh }), .stand) := by
        show hearingYield staleNs (L, sn) p = _
        rw [hearingYield_door staleNs hdoor, if_pos (Or.inr (Or.inr hp))]
      obtain ⟨hafter, hup⟩ := ih { sn with verdict := p.fresh }
        (fun q hq => hin q (List.mem_cons_of_mem _ hq))
      refine ⟨?_, ?_⟩
      · rw [StepMachine.after_cons, hstep, hafter, lastVerdict_cons]
      · show WatchAct.unrefuse ∉ _ :: _
        rw [hstep]
        exact List.not_mem_cons_of_ne_of_not_mem WatchAct.noConfusion hup

/-- A poll that finds anything but REFUSED finds the door down, or takes it down. -/
def FallsOnRefusalsEnd (s : Listener × Sniffer) (run : List WatchPoll) : Prop :=
  ∀ pre p post, run = pre ++ p :: post → p.fresh ≠ .refused →
    fell ((watchMachine staleNs).outputs s (pre ++ [p]))

/-- The first poll takes the door down: every later one finds it down. -/
theorem falls_of_first {L : Listener} (hdoor : L.refusedDoor) {sn : Sniffer} {p : WatchPoll}
    (rest : List WatchPoll) (hout : inDwell staleNs p.now sn.openedNs = false)
    (hedge : p.fresh ≠ sn.verdict) (hr : p.fresh ≠ .refused) :
    FallsOnRefusalsEnd staleNs (L, sn) (p :: rest) := by
  have hact : ((watchMachine staleNs).step (L, sn) p).2 = .unrefuse := by
    show (hearingYield staleNs (L, sn) p).2 = _
    rw [hearingYield_door staleNs hdoor, if_neg (by simp [hedge, hr, hout])]
  intro pre q post hrun _
  cases pre with
  | nil =>
      obtain ⟨rfl, -⟩ := List.cons_eq_cons.mp hrun
      exact List.mem_cons.mpr (Or.inl hact.symm)
  | cons first more =>
      obtain ⟨rfl, -⟩ := List.cons_eq_cons.mp hrun
      exact List.mem_cons.mpr (Or.inl hact.symm)

/-- The first poll leaves the door up, and asks nothing of it: the rest is asked for. -/
theorem falls_of_rest {L : Listener} (hdoor : L.refusedDoor) {sn : Sniffer} {p : WatchPoll}
    {rest : List WatchPoll} (hr : p.fresh = .refused)
    (hrest : FallsOnRefusalsEnd staleNs (L, { sn with verdict := .refused }) rest) :
    FallsOnRefusalsEnd staleNs (L, sn) (p :: rest) := by
  have hstep : (watchMachine staleNs).step (L, sn) p =
      ((L, { sn with verdict := .refused }), .stand) := by
    show hearingYield staleNs (L, sn) p = _
    rw [hearingYield_door staleNs hdoor, if_pos (Or.inr (Or.inl hr)), hr]
  intro pre q post hrun hq
  cases pre with
  | nil =>
      obtain ⟨rfl, -⟩ := List.cons_eq_cons.mp hrun
      exact absurd hr hq
  | cons first more =>
      obtain ⟨rfl, rfl⟩ := List.cons_eq_cons.mp hrun
      have hfell := hrest more q post rfl hq
      show WatchAct.unrefuse ∈ _ :: _
      rw [hstep]
      exact List.mem_cons_of_mem _ hfell

/-- With REFUSED standing, a door past its dwell comes down as soon as it should. -/
theorem falls_of_refused {L : Listener} (hdoor : L.refusedDoor) :
    ∀ (run : List WatchPoll) (sn : Sniffer), sn.verdict = .refused →
      (∀ p ∈ run, inDwell staleNs p.now sn.openedNs = false) →
      FallsOnRefusalsEnd staleNs (L, sn) run := by
  intro run
  induction run with
  | nil =>
      intro sn _ _ pre p post hrun
      simp at hrun
  | cons p rest ih =>
      intro sn hv hout
      by_cases hr : p.fresh = .refused
      · exact falls_of_rest staleNs hdoor hr
          (ih { sn with verdict := .refused } rfl
            (fun q hq => hout q (List.mem_cons_of_mem _ hq)))
      · exact falls_of_first staleNs hdoor rest (hout p (by simp)) (by rw [hv]; exact hr) hr

/-- Past the dwell, the door comes down in time exactly when REFUSED stands or the first
poll brings an edge. -/
theorem falls_past_dwell_iff {L : Listener} (hdoor : L.refusedDoor) (run : List WatchPoll)
    (sn : Sniffer) (hout : ∀ p ∈ run, inDwell staleNs p.now sn.openedNs = false) :
    FallsOnRefusalsEnd staleNs (L, sn) run ↔
      sn.verdict = .refused ∨ ∀ p ∈ run.head?, p.fresh ≠ sn.verdict := by
  constructor
  · intro hfalls
    by_cases hv : sn.verdict = .refused
    · exact Or.inl hv
    refine Or.inr ?_
    intro p hp hsame
    obtain ⟨rest, rfl⟩ : ∃ rest, run = p :: rest := List.head?_eq_some_iff.mp hp
    have hfell := hfalls [] p rest rfl (by rw [hsame]; exact hv)
    have hstand : ((watchMachine staleNs).step (L, sn) p).2 = .stand := by
      show (hearingYield staleNs (L, sn) p).2 = _
      rw [hearingYield_door staleNs hdoor, if_pos (Or.inl hsame)]
    have hmem : WatchAct.unrefuse ∈ [((watchMachine staleNs).step (L, sn) p).2] := hfell
    rw [hstand] at hmem
    exact absurd hmem (by decide)
  · rintro (hv | hedge)
    · exact falls_of_refused staleNs hdoor run sn hv hout
    · cases run with
      | nil =>
          intro pre p post hrun
          simp at hrun
      | cons p rest =>
          have hp : p.fresh ≠ sn.verdict := hedge p (by simp)
          by_cases hr : p.fresh = .refused
          · exact falls_of_rest staleNs hdoor hr
              (falls_of_refused staleNs hdoor rest _ rfl
                (fun q hq => hout q (List.mem_cons_of_mem _ hq)))
          · exact falls_of_first staleNs hdoor rest (hout p (by simp)) hp hr

/-! ### The dwell comes first -/

theorem inDwell_false_of_le {now later openedNs : Nat} (hle : now ≤ later)
    (hout : inDwell staleNs now openedNs = false) : inDwell staleNs later openedNs = false := by
  simp only [inDwell, Bool.or_eq_false_iff, decide_eq_false_iff_not] at hout ⊢
  omega

/-- Under a clock that never goes back, no poll after the dwell is inside it again. -/
theorem pollsAfterDwell_out (openedNs : Nat) :
    ∀ (run : List WatchPoll) (t : Nat), StepMachine.Clocked WatchPoll.now t run →
      ∀ p ∈ pollsAfterDwell staleNs openedNs run, inDwell staleNs p.now openedNs = false := by
  intro run
  induction run with
  | nil =>
      intro t _ p hp
      exact absurd hp List.not_mem_nil
  | cons q rest ih =>
      intro t hclock p hp
      obtain ⟨-, hrest⟩ := StepMachine.clocked_cons hclock
      cases hq : inDwell staleNs q.now openedNs with
      | true =>
          have hdrop : pollsAfterDwell staleNs openedNs (q :: rest) =
              pollsAfterDwell staleNs openedNs rest := by
            simp [pollsAfterDwell, hq]
          exact ih q.now hrest p (hdrop ▸ hp)
      | false =>
          have hdrop : pollsAfterDwell staleNs openedNs (q :: rest) = q :: rest := by
            simp [pollsAfterDwell, hq]
          rw [hdrop] at hp
          have hle : q.now ≤ p.now := by
            rcases List.mem_cons.mp hp with rfl | hmem
            · exact Nat.le_refl _
            · exact (List.pairwise_cons.mp hrest).1 p.now (List.mem_map_of_mem hmem)
          exact inDwell_false_of_le staleNs hle hq

/-- The polls inside the dwell aside, the door is asked about by the polls after it. -/
theorem doorFallsInTime_iff_past {L : Listener} (hdoor : L.refusedDoor) {sn : Sniffer}
    {run : List WatchPoll} (hclock : StepMachine.Clocked WatchPoll.now 0 run) :
    DoorFallsInTime staleNs (L, sn) run ↔
      FallsOnRefusalsEnd staleNs
        (L, { sn with
          verdict := lastVerdict sn.verdict (dwellPolls staleNs sn.openedNs run) })
        (pollsAfterDwell staleNs sn.openedNs run) := by
  have hsplit : dwellPolls staleNs sn.openedNs run ++ pollsAfterDwell staleNs sn.openedNs run =
      run := List.takeWhile_append_dropWhile
  have hin : ∀ p ∈ dwellPolls staleNs sn.openedNs run,
      inDwell staleNs p.now sn.openedNs = true := by
    intro p hp
    have hwhile := List.mem_takeWhile_imp hp
    exact hwhile
  obtain ⟨hafter, hup⟩ := dwell_stands staleNs hdoor _ sn hin
  have houts : ∀ more : List WatchPoll,
      fell ((watchMachine staleNs).outputs (L, sn)
        (dwellPolls staleNs sn.openedNs run ++ more)) ↔
      fell ((watchMachine staleNs).outputs
        (L, { sn with
          verdict := lastVerdict sn.verdict (dwellPolls staleNs sn.openedNs run) }) more) := by
    intro more
    rw [StepMachine.outputs_append, hafter]
    exact List.mem_append.trans (or_iff_right hup)
  constructor
  · intro hfalls pre p post hpast hr
    have hrun : run = (dwellPolls staleNs sn.openedNs run ++ pre) ++ p :: post := by
      rw [List.append_assoc, ← hpast, hsplit]
    have hout : inDwell staleNs p.now sn.openedNs = false :=
      pollsAfterDwell_out staleNs sn.openedNs run 0 hclock p (by rw [hpast]; simp)
    have hfell := hfalls _ p post hrun hout hr
    rw [List.append_assoc] at hfell
    exact (houts _).mp hfell
  · intro hfalls pre p post hrun hout hr
    rw [← hsplit] at hrun
    -- a poll past the dwell is not among the dwell's
    obtain ⟨more, rfl, hpast⟩ : ∃ more, pre = dwellPolls staleNs sn.openedNs run ++ more ∧
        pollsAfterDwell staleNs sn.openedNs run = more ++ p :: post := by
      rcases List.append_eq_append_iff.mp hrun with ⟨more, hpre, hpast⟩ | ⟨more, hdw, hpost⟩
      · exact ⟨more, hpre, hpast⟩
      · cases more with
        | nil =>
            rw [List.append_nil] at hdw
            exact ⟨[], by rw [hdw, List.append_nil], hpost.symm⟩
        | cons q rest =>
            obtain ⟨rfl, -⟩ := List.cons_eq_cons.mp hpost
            have hmem : p ∈ dwellPolls staleNs sn.openedNs run := by rw [hdw]; simp
            exact absurd (hin p hmem) (by rw [hout]; decide)
    rw [List.append_assoc]
    exact (houts _).mpr (hfalls more p post hpast hr)

/-- **When a refused door outlives its refusal.**  It comes down in time over a run of
polls exactly when the dwell ends with REFUSED standing, or the first poll after it
brings an edge. -/
theorem refused_door_falls_in_time_iff {L : Listener} (hdoor : L.refusedDoor) {sn : Sniffer}
    (hserved : sn.verdict = .refused) {run : List WatchPoll}
    (hclock : StepMachine.Clocked WatchPoll.now 0 run) :
    DoorFallsInTime staleNs (L, sn) run ↔ AskedAfterDwell staleNs sn.openedNs run := by
  rw [doorFallsInTime_iff_past staleNs hdoor hclock, hserved]
  exact falls_past_dwell_iff staleNs hdoor _
    { sn with verdict := lastVerdict .refused (dwellPolls staleNs sn.openedNs run) }
    (pollsAfterDwell_out staleNs sn.openedNs run 0 hclock)

/-! ### Two doors -/

/-- A segment pinned master and refused, as its serve leaves it. -/
def refusedDoorOf (source : String) : Listener :=
  { Listener.zeroed with
    opened := true
    cfg := { ListenerCfg.zeroed with
      source := some source, live := true, txIf := some source, rolePinned := true,
      doorOnly := true, wireHeard := true } }

def refusedAt (openedNs : Nat) : Sniffer :=
  { verdict := .refused, openedNs := openedNs, watched := false }

def watchPoll (now : Nat) (fresh : HuntVerdict) : WatchPoll :=
  { now := now, fresh := fresh, served := .zeroed }

/-- A rival heard until the dwell is over: the door comes down on the edge. -/
theorem refused_door_falls_after_dwell :
    DoorFallsInTime 5000000000 (refusedDoorOf "enp1s0", refusedAt 1000000000)
      [watchPoll 2000000000 .refused, watchPoll 7000000000 .refused,
        watchPoll 9000000000 .master] :=
  (refused_door_falls_in_time_iff 5000000000 ⟨rfl, rfl, rfl⟩ rfl (by decide)).mpr (by decide)

/-- The rival leaves inside the dwell and the verdict stays put: the door stands on. -/
theorem refused_door_outlives_refusal :
    ¬ DoorFallsInTime 5000000000 (refusedDoorOf "enp1s0", refusedAt 1000000000)
      [watchPoll 2000000000 .master, watchPoll 7000000000 .master,
        watchPoll 60000000000 .master] := by
  intro hfalls
  have hfell := hfalls [watchPoll 2000000000 .master, watchPoll 7000000000 .master]
    (watchPoll 60000000000 .master) [] rfl (by decide) (by decide)
  exact absurd hfell (by unfold fell; decide)

end ReacPw
