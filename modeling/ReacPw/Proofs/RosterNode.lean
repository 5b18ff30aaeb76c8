/-
The roster node over whole runs of ticks.

One tick is four moves: forget a node the server took away, build one where none
is, rebuild one a group left, and publish the delta.  Each keeps the node and the
published rows in step; after the third no roster is shorter than what the node
carries, so the delta handed to publish holds sets only.
-/
import ReacPw.Proofs.Roster

namespace ReacPw

/-- The node carries the published rows, and no node has none published. -/
structure RosterInv (s : RosterWorld) : Prop where
  carries : ∀ m ∈ s.node, Carries s.roster.pub m
  bare : s.node = none → s.roster.pub = []
  few : s.roster.pub.length ≤ reacRosterMax
  want : WantInv s.roster.want

theorem rosterStart_inv : RosterInv .start where
  carries m hm := by cases hm
  bare _ := rfl
  few := Nat.zero_le _
  want := ⟨List.Pairwise.nil, Nat.zero_le _⟩

theorem rosterNodeLost_inv {s : RosterWorld} (h : RosterInv s) (t : RosterTick) :
    RosterInv (rosterNodeLost s t) := by
  unfold rosterNodeLost
  split
  · exact ⟨by simp, fun _ => rfl, Nat.zero_le _, h.want⟩
  · exact h

/-- A node built where none was carries nothing, and nothing was published. -/
theorem rosterNodeWanted_inv {s : RosterWorld} (h : RosterInv s) (t : RosterTick) :
    RosterInv (rosterNodeWanted s t) := by
  unfold rosterNodeWanted
  split
  · exact h
  rename_i hnode
  have hpub : s.roster.pub = [] := h.bare (by simpa using hnode)
  split
  · exact ⟨h.carries, h.bare, h.few, h.want⟩
  · refine ⟨fun m hm => ?_, fun _ => hpub, h.few, h.want⟩
    have hm : (if t.newOk then some rosterCreateProps else none) = some m := hm
    show Carries s.roster.pub m
    rw [hpub]
    by_cases hok : t.newOk = true
    · rw [if_pos hok] at hm
      cases hm
      exact carries_fresh
    · rw [if_neg hok] at hm
      cases hm

theorem rosterCollect_inv {s : RosterWorld} (h : RosterInv s) (found : List RosterFound) :
    RosterInv { s with roster := rosterCollect s.roster found } := by
  obtain ⟨hwant, hpub⟩ := rosterCollect_want s.roster found
  refine ⟨?_, ?_, ?_, hwant⟩
  · show ∀ m ∈ s.node, Carries (rosterCollect s.roster found).pub m
    rw [hpub]
    exact h.carries
  · show s.node = none → (rosterCollect s.roster found).pub = []
    rw [hpub]
    exact h.bare
  · show (rosterCollect s.roster found).pub.length ≤ reacRosterMax
    rw [hpub]
    exact h.few

/-- After the rebuild the roster is no shorter than what the node carries. -/
theorem rosterNodeRebuilt_inv {s : RosterWorld} (h : RosterInv s) (t : RosterTick) :
    RosterInv (rosterNodeRebuilt s t) ∧
      (rosterNodeRebuilt s t).roster.pub.length ≤ (rosterNodeRebuilt s t).roster.want.length := by
  unfold rosterNodeRebuilt
  split
  · refine ⟨⟨fun m hm => ?_, fun _ => rfl, Nat.zero_le _, h.want⟩, Nat.zero_le _⟩
    have hm : (if t.rebuildOk then some rosterCreateProps else none) = some m := hm
    by_cases hok : t.rebuildOk = true
    · rw [if_pos hok] at hm
      cases hm
      exact carries_fresh
    · rw [if_neg hok] at hm
      cases hm
  · rename_i hshrank
    refine ⟨h, ?_⟩
    have : ¬ s.roster.want.length < s.roster.pub.length := by
      simpa [reacRosterShrank] using hshrank
    omega

/-- What a tick's report promises of the world it leaves. -/
structure Reported (s : RosterWorld) (r : RosterReport) : Prop where
  settled : r.settled = true → ∃ m, s.node = some m ∧ Carries s.roster.want m
  fits : r.unfit = false
  handed : ∀ kv ∈ r.handed, kv.length ≤ reacRosterKvMax ∧ ∀ e ∈ kv, e.remove = false

theorem reported_nothing (s : RosterWorld) : Reported s {} :=
  ⟨fun h => absurd h (by decide), rfl, by simp⟩

theorem rosterMoved_sets {r : Roster} (hlen : r.pub.length ≤ r.want.length) :
    ∀ e ∈ rosterMoved r, e.remove = false := by
  intro e he
  rcases (mem_rosterMoved hlen).mp he with ⟨-, rfl⟩ | ⟨i, w, f, -, -, rfl⟩ <;> rfl

/-- An empty delta means the node carries what is wanted already. -/
theorem carries_of_nothing_moved {r : Roster} {m : PropMap String String}
    (h : Carries r.pub m) (hlen : r.pub.length ≤ r.want.length) (hnone : rosterMoved r = []) :
    Carries r.want m := by
  have hno : ∀ e, e ∉ rosterMoved r := by
    intro e he
    rw [hnone] at he
    cases he
  have hsame : r.want.length = r.pub.length := by
    by_contra hne
    exact hno _ ((mem_rosterMoved hlen).mpr (Or.inl ⟨hne, rfl⟩))
  have hempty : r.want = [] ↔ r.pub = [] := by
    rw [← List.length_eq_zero_iff, ← List.length_eq_zero_iff, hsame]
  refine ⟨?_, ?_, h.other⟩
  · rw [h.count, hsame]
    by_cases hw : r.want = []
    · rw [if_pos hw, if_pos (hempty.mp hw)]
    · rw [if_neg hw, if_neg (fun hp => hw (hempty.mpr hp))]
  · intro i f
    rw [h.field]
    cases hw : r.want[i]? with
    | none =>
        have hp : r.pub[i]? = none := by
          rw [List.getElem?_eq_none_iff] at hw ⊢
          omega
        rw [hp]
    | some w =>
        by_contra hne
        exact hno _ ((mem_rosterMoved hlen).mpr (Or.inr ⟨i, w, f, hw, hne, rfl⟩))

theorem rosterPublish_inv {s : RosterWorld} {node : PropMap String String} (h : RosterInv s)
    (hnode : s.node = some node) (hlen : s.roster.pub.length ≤ s.roster.want.length)
    (t : RosterTick) :
    RosterInv (rosterPublish s node t).1 ∧
      Reported (rosterPublish s node t).1 (rosterPublish s node t).2 := by
  have hcarries : Carries s.roster.pub node := h.carries node hnode
  have hfit := rosterMoved_length s.roster h.want.few h.few
  have hdelta : reacRosterDelta s.roster reacRosterKvMax = some (rosterMoved s.roster) :=
    if_neg (Nat.not_lt.mpr hfit)
  have hsets := rosterMoved_sets hlen
  unfold rosterPublish
  rw [hdelta]
  split
  · rename_i hd
    cases hd
  · rename_i hd
    have hnone : rosterMoved s.roster = [] := Option.some.inj hd
    exact ⟨h, fun _ => ⟨node, hnode, carries_of_nothing_moved hcarries hlen hnone⟩, rfl, by simp⟩
  · rename_i kv hne hd
    have hkv : rosterMoved s.roster = kv := Option.some.inj hd
    have hne : rosterMoved s.roster ≠ [] := by
      rw [hkv]
      exact hne
    have hhanded : ∀ kv' ∈ some kv, kv'.length ≤ reacRosterKvMax ∧ ∀ e ∈ kv', e.remove = false := by
      intro kv' hkv'
      cases hkv'
      rw [← hkv]
      exact ⟨hfit, hsets⟩
    split
    · exact ⟨h, fun hs => (by cases hs), rfl, hhanded⟩
    · rename_i node' hpub
      rw [← hkv] at hpub
      have hnew := hcarries.publish hlen hne hpub
      refine ⟨⟨fun m hm => ?_, fun hn => (by cases hn), h.want.few, h.want⟩,
        fun _ => ⟨node', rfl, hnew⟩, rfl, hhanded⟩
      cases hm
      exact hnew

/-- **One tick keeps the node in step with the published rows**, and tells the truth
about what it did. -/
theorem onRosterTimer_inv {s : RosterWorld} (h : RosterInv s) (t : RosterTick) :
    RosterInv (onRosterTimer s t).1 ∧ Reported (onRosterTimer s t).1 (onRosterTimer s t).2 := by
  have hwanted := rosterNodeWanted_inv (rosterNodeLost_inv h t) t
  unfold onRosterTimer
  generalize rosterNodeWanted (rosterNodeLost s t) t = s₁ at hwanted ⊢
  by_cases hnone : s₁.node.isNone = true
  · rw [if_pos hnone]
    exact ⟨hwanted, reported_nothing _⟩
  rw [if_neg hnone]
  obtain ⟨hrebuilt, hlen⟩ := rosterNodeRebuilt_inv (rosterCollect_inv hwanted t.found) t
  generalize rosterNodeRebuilt { s₁ with roster := rosterCollect s₁.roster t.found } t = s₂
    at hrebuilt hlen ⊢
  cases hnode : s₂.node with
  | none =>
      simp only [hnode]
      exact ⟨hrebuilt, reported_nothing _⟩
  | some node =>
      simp only [hnode]
      exact rosterPublish_inv hrebuilt hnode hlen t

/-! ### Runs -/

def rosterMachine : StepMachine RosterWorld RosterTick RosterReport := ⟨onRosterTimer⟩

/-- **The node always carries the last committed roster, unless it is empty.**  After any
run, a tick that committed or found nothing to publish leaves a node whose roster keys
are exactly the wanted rows, if and only if there is a row; the rows are in strict byte
order of their names; and a delta handed to publish fits and removes nothing. -/
theorem roster_node_exact (run : List RosterTick) (t : RosterTick) :
    let s := (onRosterTimer (rosterMachine.after .start run) t).1
    let r := (onRosterTimer (rosterMachine.after .start run) t).2
    (r.settled = true →
        ∃ m, s.node = some m ∧ (RendersRows s.roster.want m ↔ s.roster.want ≠ [])) ∧
      (s.roster.want.Pairwise fun a b => a.name.text < b.name.text) ∧
      r.unfit = false ∧
      ∀ kv ∈ r.handed, kv.length ≤ reacRosterKvMax ∧ ∀ e ∈ kv, e.remove = false := by
  have h := rosterMachine.invariant (I := RosterInv) (fun s t hs => (onRosterTimer_inv hs t).1)
    run .start rosterStart_inv
  obtain ⟨hinv, hrep⟩ := onRosterTimer_inv h t
  refine ⟨fun hs => ?_, hinv.want.sorted, hrep.fits, hrep.handed⟩
  obtain ⟨m, hm, hcarries⟩ := hrep.settled hs
  exact ⟨m, hm, hcarries.renders_iff⟩

/-- A tick of a graph where everything works. -/
def goodTick (found : List RosterFound) : RosterTick :=
  { onGraph := true, newOk := true, found := found, rebuildOk := true, allocOk := true }

def probingSegment : RosterFound :=
  { name := ⟨"enp1s0", by decide⟩, state := .probing, model := "", role := "master", source := ""
    in_ := 0, out := 0, said := "" }

/-- A daemon with a segment has it on its node after the first tick. -/
theorem roster_node_exact_one_segment :
    ∃ m, (onRosterTimer .start (goodTick [probingSegment])).1.node = some m ∧
      RendersRows (onRosterTimer .start (goodTick [probingSegment])).1.roster.want m := by
  obtain ⟨m, hm, hrenders⟩ := (roster_node_exact [] (goodTick [probingSegment])).1 (by decide)
  exact ⟨m, hm, hrenders.mpr (by decide)⟩

/-- On a daemon with no segment the first tick builds the node, finds nothing to publish,
and leaves it without a count. -/
theorem empty_roster_uncounted :
    (onRosterTimer .start (goodTick [])).2.settled = true ∧
    (onRosterTimer .start (goodTick [])).1.roster.want = [] ∧
    ∃ m, (onRosterTimer .start (goodTick [])).1.node = some m ∧ m rosterCountKey = none ∧
      ¬ RendersRows [] m := by
  refine ⟨by decide, rfl, rosterCreateProps, rfl, createProps_count, fun h => ?_⟩
  exact carries_fresh.renders_iff.mp h rfl

end ReacPw
