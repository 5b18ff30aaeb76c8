/-
Every engine is on a segment, or is about to be closed.

The interface table and the listeners move apart for a while: an interface that is gone has its
drop queued, and its listener is closed when the drop is carried out.  So a served interface is
a segment, with its link or inside its hold, or its drop is the last word queued about it.  The
world's own moves keep that because a segment is left with a drop and in no other way, and the
daemon's because whoever takes a segment back has closed its listener first.

A serve that is carried out opens a listener on the wire it was queued for, and nothing looks
whether the wire is still a segment.  An act that takes a wire back while the serve of it stays
queued therefore leaves an engine on a wire that is only listened to, and no drop follows when
its link goes.  A run is guarded at these.
-/
import ReacPw.Proofs.Listening
import ReacPw.Proofs.Placed

namespace ReacPw

/-- A segment, with its link or inside its hold. -/
def IfState.isSegment : IfState → Bool
  | .segment | .hold => true
  | .absent | .down | .linked => false

section
variable {σ : Type*} {n : Nat} (S : IfScan σ)

/-- The table holds the interface as a segment, or its drop is the last word about it. -/
def HeldOrDropped (s : σ) (name : String) : Prop :=
  (S.state s name).isSegment = true ∨ lastQueued S s name = some .drop

/-- Every listener is on an interface of its own, and every such interface is held. -/
structure OnSegments (h : Hearing σ n) : Prop where
  placed : Placed h
  held : ∀ name, ServedOn h name → HeldOrDropped S h.scan name

/-- Whatever is to be served is a segment. -/
def ServesSegments (s : σ) : Prop :=
  ∀ name, lastQueued S s name = some .serve → (S.state s name).isSegment = true

/-- No serve has been queued. -/
def Unasked (s s' : σ) : Prop :=
  ∀ name, lastQueued S s' name = some .serve → lastQueued S s name = some .serve

/-- The act takes no interface out of its segment while the serve of it stays queued. -/
def KeepsServes (speed : String → Nat) (h : Hearing σ n) (act : HearAct n) : Prop :=
  ∀ name, lastQueued S h.scan name = some .serve →
    lastQueued S (hearStep S speed h act).scan name = some .serve →
      (S.state (hearStep S speed h act).scan name).isSegment = true

variable {S}

/-! ### The table's own moves -/

/-- **A segment is left with a drop**, and no step of an interface's own says serve. -/
theorem IfTold.leaves {st st' : IfState} {verbs : List IfVerb} (htold : IfTold st verbs st') :
    .serve ∉ verbs ∧ (st.isSegment = true → st'.isSegment = true ∨ .drop ∈ verbs) := by
  induction htold with
  | andThen _ _ ihfirst ihrest =>
      refine ⟨fun hmem => ?_, fun hseg => ?_⟩
      · rcases List.mem_append.mp hmem with hmem | hmem
        · exact ihfirst.1 hmem
        · exact ihrest.1 hmem
      · rcases ihfirst.2 hseg with hseg' | hdrop
        · exact (ihrest.2 hseg').imp_right (List.mem_append_right _)
        · exact Or.inr (List.mem_append_left _ hdrop)
  | still st => exact ⟨List.not_mem_nil, Or.inl⟩
  | linked hout => exact ⟨by decide, fun hseg => by rcases hout with rfl | rfl <;> cases hseg⟩
  | dropped hin hout => exact ⟨by decide, fun _ => Or.inr (List.mem_singleton.mpr rfl)⟩
  | held => exact ⟨by decide, fun _ => Or.inl rfl⟩
  | kept => exact ⟨by decide, fun _ => Or.inl rfl⟩
  | _ => exact ⟨by decide, fun hseg => absurd hseg Bool.false_ne_true⟩

theorem mem_verbsOf {name : String} {events : List IfEvent} {verb : IfVerb} :
    verb ∈ verbsOf name events ↔ ⟨verb, name⟩ ∈ events := by
  unfold verbsOf
  rw [List.mem_map]
  constructor
  · rintro ⟨e, he, rfl⟩
    obtain ⟨hmem, hname⟩ := List.mem_filter.mp he
    obtain rfl := beq_iff_eq.mp hname
    exact hmem
  · exact fun hmem => ⟨_, List.mem_filter.mpr ⟨hmem, beq_self_eq_true name⟩, rfl⟩

/-- What is queued last about an interface says serve or drop. -/
theorem lastQueued_verb {s : σ} {name : String} {verb : IfVerb}
    (hlast : lastQueued S s name = some verb) :
    ⟨verb, name⟩ ∈ S.events s ∧ (verb = .serve ∨ verb = .drop) := by
  obtain ⟨e, he, rfl⟩ := Option.map_eq_some_iff.mp hlast
  obtain ⟨hmem, habout⟩ := List.mem_filter.mp (List.mem_of_getLast? he)
  obtain ⟨rfl, hverb⟩ := about_self habout
  exact ⟨hmem, hverb⟩

/-- Words that say no serve leave the last word as it was, or are a drop. -/
theorem lastQueued_told {s s' : σ} {extra : List IfEvent} {name : String}
    (hevents : S.events s' = S.events s ++ extra) (hserve : .serve ∉ verbsOf name extra) :
    lastQueued S s' name = some .drop ∨
      (.drop ∉ verbsOf name extra ∧ lastQueued S s' name = lastQueued S s name) := by
  have hdrops : ∀ e ∈ extra, e.about name = true → e = ⟨.drop, name⟩ := by
    intro e he habout
    obtain ⟨hname, hverb⟩ := about_self habout
    obtain ⟨verb, k⟩ := e
    obtain rfl : k = name := hname
    rcases hverb with rfl | rfl
    · exact absurd (mem_verbsOf.mpr he) hserve
    · rfl
  cases hlast : (extra.filter (IfEvent.about name)).getLast? with
  | none =>
      have hnone : ∀ e ∈ extra, e.about name = false := by
        rw [List.getLast?_eq_none_iff, List.filter_eq_nil_iff] at hlast
        exact fun e he => by simpa using hlast e he
      refine Or.inr ⟨fun hdrop => ?_, lastQueued_append S s s' extra name hevents hnone⟩
      have habout := hnone _ (mem_verbsOf.mp hdrop)
      simp [IfEvent.about] at habout
  | some e =>
      obtain ⟨hmem, habout⟩ := List.mem_filter.mp (List.mem_of_getLast? hlast)
      refine Or.inl ?_
      unfold lastQueued
      rw [hevents, List.filter_append, List.getLast?_append, hlast, hdrops e hmem habout]
      rfl

theorem told_heldOrDropped {s s' : σ} (htold : S.Told s s') {name : String}
    (hheld : HeldOrDropped S s name) : HeldOrDropped S s' name := by
  obtain ⟨extra, hevents, hsteps⟩ := htold
  obtain ⟨hserve, hleaves⟩ := (hsteps name).leaves
  rcases lastQueued_told hevents hserve with hdrop | ⟨hnone, hsame⟩
  · exact Or.inr hdrop
  · rcases hheld with hseg | hdrop
    · exact Or.inl ((hleaves hseg).resolve_right hnone)
    · exact Or.inr (hsame.trans hdrop)

theorem told_unasked {s s' : σ} (htold : S.Told s s') : Unasked S s s' := by
  obtain ⟨extra, hevents, hsteps⟩ := htold
  intro name hlast
  rcases lastQueued_told hevents (hsteps name).leaves.1 with hdrop | ⟨-, hsame⟩
  · exact absurd (hdrop.symm.trans hlast) (by decide)
  · exact hsame.symm.trans hlast

/-! ### What the daemon does to a table -/

theorem Unasked.refl (s : σ) : Unasked S s s := fun _ hlast => hlast

theorem Unasked.trans {s s' s'' : σ} (hfirst : Unasked S s s') (hrest : Unasked S s' s'') :
    Unasked S s s'' :=
  fun name hlast => hfirst name (hrest name hlast)

/-- The table says of the interface what it said. -/
def SameAt (S : IfScan σ) (s s' : σ) (name : String) : Prop :=
  S.state s' name = S.state s name ∧ lastQueued S s' name = lastQueued S s name

theorem SameAt.held {s s' : σ} {name : String} (hsame : SameAt S s s' name)
    (hheld : HeldOrDropped S s name) : HeldOrDropped S s' name := by
  unfold HeldOrDropped
  rw [hsame.1, hsame.2]
  exact hheld

theorem SameAt.trans {s s' s'' : σ} {name : String} (hfirst : SameAt S s s' name)
    (hrest : SameAt S s' s'' name) : SameAt S s s'' name :=
  ⟨hrest.1.trans hfirst.1, hrest.2.trans hfirst.2⟩

/-- Listeners that stay where they are, or close. -/
theorem OnSegments.stay {h h' : Hearing σ n} (hinv : OnSegments S h)
    (hen : h'.enabled = h.enabled) (hscan : h'.scan = h.scan)
    (hput : ∀ j, StaysPut (h.listeners j) (h'.listeners j)) : OnSegments S h' where
  placed := hinv.placed.stay hen hput
  held name hon := by
    obtain ⟨j, hj⟩ := hon
    rw [hscan]
    exact hinv.held name ⟨j, (hput j).serves hj⟩

theorem OnSegments.setSlot {h : Hearing σ n} (hinv : OnSegments S h) {i : Fin n} {L : Listener}
    (hput : StaysPut (h.listeners i) L) : OnSegments S (h.setSlot i L) where
  placed := hinv.placed.setSlot hput
  held name hon := by
    obtain ⟨j, hj⟩ := hon
    by_cases hji : j = i
    · subst hji
      rw [setSlot_same] at hj
      exact hinv.held name ⟨j, hput.serves hj⟩
    · rw [setSlot_ne _ _ hji] at hj
      exact hinv.held name ⟨j, hj⟩

theorem OnSegments.drop {h : Hearing σ n} (hinv : OnSegments S h) (name : String) :
    OnSegments S (hearingDrop h name) :=
  hinv.stay (hearingDrop_enabled h name) (hearingDrop_scan h name) fun j =>
    staysPut_kept (hearingDrop_slot h name j)

/-- A drop of an interface leaves nobody on it. -/
theorem not_served_dropped {h : Hearing σ n} (hp : Placed h) (name : String) :
    ¬ ServedOn (hearingDrop h name) name := by
  rintro ⟨j, hj⟩
  rw [hearingDrop_exact hp name j] at hj
  split at hj
  · exact absurd hj Bool.false_ne_true
  · rename_i hnot
    exact hnot hj

/-- The world has moved the table. -/
theorem OnSegments.told {h : Hearing σ n} (hinv : OnSegments S h) {scan : σ}
    (htold : S.Told h.scan scan) : OnSegments S { h with scan := scan } where
  placed := hinv.placed.scan scan
  held name hon := told_heldOrDropped htold (hinv.held name hon)

section
variable (hlawful : S.Lawful)
include hlawful

/-- A failed serve queues nothing about a segment. -/
theorem serveFailed_last (s : σ) (name k : String) (now : Nat) :
    lastQueued S (S.serveFailed s name now) k = lastQueued S s k := by
  obtain ⟨-, -, hsame | hlisten⟩ := hlawful.serveFailed s name now
  · exact lastQueued_append S _ _ [] k (by rw [hsame, List.append_nil]) (by simp)
  · refine lastQueued_append S _ _ _ k hlisten fun e he => ?_
    obtain rfl := List.mem_singleton.mp he
    exact about_listen name k

theorem serveFailed_other (s : σ) {name k : String} (now : Nat) (hk : k ≠ name) :
    SameAt S s (S.serveFailed s name now) k :=
  ⟨(hlawful.serveFailed s name now).2.1 k hk, serveFailed_last hlawful s name k now⟩

theorem serveFailed_unasked (s : σ) (name : String) (now : Nat) :
    Unasked S s (S.serveFailed s name now) := by
  intro k hlast
  rwa [serveFailed_last hlawful] at hlast

/-- A wire nobody is on is taken back. -/
theorem OnSegments.serveFailed {h : Hearing σ n} (hinv : OnSegments S h) {name : String}
    (now : Nat) (hfree : ¬ ServedOn h name) : OnSegments S (h.serveFailed S name now) where
  placed := hinv.placed.scan _
  held k hon := by
    by_cases hk : k = name
    · exact absurd (hk ▸ hon) hfree
    · exact (serveFailed_other hlawful h.scan now hk).held (hinv.held k hon)

theorem OnSegments.rehear {h : Hearing σ n} (hinv : OnSegments S h) (name : String) (now : Nat) :
    OnSegments S (hearingRehear S h name now) :=
  (hinv.drop name).serveFailed hlawful now (not_served_dropped hinv.placed name)

theorem rehear_unasked (h : Hearing σ n) (name : String) (now : Nat) :
    Unasked S h.scan (hearingRehear S h name now).scan := by
  show Unasked S h.scan (S.serveFailed (hearingDrop h name).scan name now)
  rw [hearingDrop_scan]
  exact serveFailed_unasked hlawful h.scan name now

/-- The segments that yield are closed before they are taken back, and the others are left. -/
theorem linkBudgetYield_segments (now : Nat) :
    ∀ (names : List String) (h : Hearing σ n), OnSegments S h →
      OnSegments S (linkBudgetYield S h names now) ∧
      Unasked S h.scan (linkBudgetYield S h names now).scan ∧
      ∀ k, k ∉ names → SameAt S h.scan (linkBudgetYield S h names now).scan k := by
  intro names
  induction names with
  | nil => exact fun h hinv => ⟨hinv, Unasked.refl _, fun _ _ => ⟨rfl, rfl⟩⟩
  | cons name rest ih =>
      intro h hinv
      obtain ⟨hrest, hunasked, hothers⟩ := ih _ (hinv.rehear hlawful name now)
      refine ⟨hrest, (rehear_unasked hlawful h name now).trans hunasked, fun k hk => ?_⟩
      rw [List.mem_cons, not_or] at hk
      have hfirst : SameAt S h.scan (hearingRehear S h name now).scan k := by
        show SameAt S h.scan (S.serveFailed (hearingDrop h name).scan name now) k
        rw [hearingDrop_scan]
        exact serveFailed_other hlawful h.scan now hk.1
      exact hfirst.trans (hothers k hk.2)

end

/-! ### Opening a slot -/

/-- A slot's own interface is not among those that yield to it. -/
theorem slotYielders_others (speed : String → Nat) {h : Hearing σ n} {i : Fin n}
    (a : SlotAnswers n) {name : String} (hsource : (h.listeners i).cfg.source = some name) :
    name ∉ slotYielders speed h i a := by
  unfold slotYielders
  dsimp only
  split
  · exact List.not_mem_nil
  · unfold budgetYielders
    dsimp only
    split
    · intro hmem
      obtain ⟨j, hj, hname⟩ := List.mem_filterMap.mp hmem
      unfold budgetHolders at hj
      split at hj
      · have hother := (List.mem_filter.mp hj).2
        rw [hsource, hname] at hother
        simp at hother
      · exact absurd hj List.not_mem_nil
    · exact List.not_mem_nil

section
variable (speed : String → Nat) (hlawful : S.Lawful)
include hlawful

/-- **An open's admission** leaves every listener on a segment, and its own wire as it was. -/
theorem slotAdmitted_segments {h : Hearing σ n} (hinv : OnSegments S h) (i : Fin n)
    (a : SlotAnswers n) :
    OnSegments S (slotAdmitted S speed h i a).1 ∧
      Unasked S h.scan (slotAdmitted S speed h i a).1.scan ∧
      ∀ name, (h.listeners i).cfg.source = some name →
        SameAt S h.scan (slotAdmitted S speed h i a).1.scan name := by
  obtain ⟨hyielded, hunasked, hothers⟩ :=
    linkBudgetYield_segments hlawful a.now (slotYielders speed h i a) h hinv
  exact ⟨hyielded, hunasked, fun name hsource =>
    hothers name (slotYielders_others speed a hsource)⟩

/-- **A serve** of a wire that is held opens on a wire that is held. -/
theorem hearingServe_segments {h : Hearing σ n} (hinv : OnSegments S h) {name : String}
    {cfg : ListenerCfg} (a : SlotAnswers n) (hsource : cfg.source = some name)
    (hheld : HeldOrDropped S h.scan name) :
    OnSegments S (hearingServe S speed h name cfg a) ∧
      Unasked S h.scan (hearingServe S speed h name cfg a).scan := by
  have hplaced := hinv.placed.serve S speed hsource a
  unfold hearingServe at hplaced ⊢
  split at hplaced
  · rename_i hfound
    rw [if_pos hfound]
    exact ⟨hinv, Unasked.refl _⟩
  · rename_i hnone
    rw [if_neg hnone]
    have hfree : ¬ ServedOn h name := by
      rwa [hearingListener_servedOn hinv.placed.enabled] at hnone
    cases hslot : freeSlot h with
    | none => exact ⟨hinv.serveFailed hlawful a.now hfree, serveFailed_unasked hlawful _ _ _⟩
    | some i =>
        rw [hslot] at hplaced
        dsimp only at hplaced ⊢
        have hbare : OnSegments S (h.setSlot i { Listener.zeroed with cfg := cfg }) :=
          hinv.setSlot (staysPut_closed rfl)
        obtain ⟨hadmitted, hunasked, hown⟩ := slotAdmitted_segments speed hlawful hbare i a
        replace hown := hown name (by rw [setSlot_same]; exact hsource)
        have hothers := slotAdmitted_slot S speed
          (h.setSlot i { Listener.zeroed with cfg := cfg }) i a
        generalize slotAdmitted S speed (h.setSlot i { Listener.zeroed with cfg := cfg }) i a = r
          at hplaced hadmitted hunasked hown hothers ⊢
        split
        · rename_i hserved
          rw [if_pos hserved] at hplaced
          refine ⟨⟨hplaced, fun k hon => ?_⟩, hunasked⟩
          obtain ⟨j, hj⟩ := hon
          by_cases hji : j = i
          · subst hji
            rw [setSlot_same] at hj
            rw [serves_name (listenerServe_serves hsource hserved) hj]
            exact hown.held hheld
          · rw [setSlot_ne _ _ hji] at hj
            exact hadmitted.held k ⟨j, hj⟩
        · rename_i hdown
          rw [listenerServe_down (by simpa using hdown)]
          have hclosed : OnSegments S (r.1.setSlot i .zeroed) :=
            hadmitted.setSlot (staysPut_closed rfl)
          refine ⟨hclosed.serveFailed hlawful a.now fun hon => ?_,
            hunasked.trans (serveFailed_unasked hlawful _ _ _)⟩
          obtain ⟨j, hj⟩ := hon
          by_cases hji : j = i
          · subst hji
            rw [setSlot_same] at hj
            exact absurd hj Bool.false_ne_true
          · rw [setSlot_ne _ _ hji] at hj
            have hwas := (staysPut_kept (hothers j)).serves hj
            rw [setSlot_ne _ _ hji] at hwas
            exact hfree ⟨j, hwas⟩

/-- A segment is dropped and served again at once. -/
theorem hearingReserve_segments {h : Hearing σ n} (hinv : OnSegments S h) {name : String}
    (hunt : Hunt) (s : ServeArgs n) (hon : ServedOn h name) :
    OnSegments S (hearingReserve S speed h name hunt s) ∧
      Unasked S h.scan (hearingReserve S speed h name hunt s).scan := by
  have hheld := hinv.held name hon
  rw [← hearingDrop_scan h name] at hheld
  have hserve := hearingServe_segments speed hlawful (hinv.drop name) s.answers
    (serveCfg_source name s.conf (some hunt) s.forcedRate) hheld
  rw [hearingDrop_scan] at hserve
  exact hserve

/-- **A re-open in place** is on the wire the listener was on. -/
theorem slotReopen_segments {h : Hearing σ n} (hinv : OnSegments S h) {i : Fin n}
    {change : ListenerCfg → ListenerCfg} (hchange : ∀ c, (change c).source = c.source)
    (hopened : (h.listeners i).opened = true) (a : SlotAnswers n) :
    OnSegments S (slotReopen S speed h i change a) ∧
      Unasked S h.scan (slotReopen S speed h i change a).scan := by
  have hplaced := hinv.placed.reopen S speed hchange hopened a
  obtain ⟨name, hserves⟩ := hinv.placed.sourced i hopened
  have hsource : ((h.setSlot i (listenerReopening (h.listeners i) change)).listeners i).cfg.source =
      some name := by
    rw [setSlot_same]
    show (change (if _ then _ else _ : Listener).cfg).source = some name
    rw [hchange, if_pos hopened]
    exact (serves_iff.mp hserves).2
  have hclosing : OnSegments S (h.setSlot i (listenerReopening (h.listeners i) change)) :=
    hinv.setSlot (staysPut_closed rfl)
  obtain ⟨hadmitted, hunasked, hown⟩ := slotAdmitted_segments speed hlawful hclosing i a
  replace hown := hown name hsource
  unfold slotReopen at hplaced ⊢
  dsimp only at hplaced ⊢
  generalize slotAdmitted S speed (h.setSlot i (listenerReopening (h.listeners i) change)) i a = r
    at hplaced hadmitted hunasked hown ⊢
  refine ⟨⟨hplaced, fun k hon => ?_⟩, hunasked⟩
  obtain ⟨j, hj⟩ := hon
  by_cases hji : j = i
  · subst hji
    rw [setSlot_same] at hj
    have hup := listenerReopen_serves hchange (serves_iff.mp hj).1 hserves
    rw [serves_name hup hj]
    exact hown.held (hinv.held name ⟨j, hserves⟩)
  · rw [setSlot_ne _ _ hji] at hj
    exact hadmitted.held k ⟨j, hj⟩

/-! ### One act -/

theorem slotTick_segments {h : Hearing σ n} (hinv : OnSegments S h) (i : Fin n)
    (ifaceLost : Bool) (a : SlotAnswers n) :
    OnSegments S (slotTick S speed h i ifaceLost a) ∧
      Unasked S h.scan (slotTick S speed h i ifaceLost a).scan := by
  unfold slotTick
  cases hopened : (h.listeners i).opened with
  | false =>
      rw [slotAsked_closed hopened]
      exact ⟨hinv, Unasked.refl _⟩
  | true =>
      cases slotAsked h i ifaceLost a with
      | reclassify role =>
          exact ⟨hinv.rehear hlawful _ a.now, rehear_unasked hlawful h _ a.now⟩
      | reopenRole role =>
          refine slotReopen_segments speed hlawful hinv ?_ hopened a
          exact fun _ => rfl
      | reopenRate hz =>
          refine slotReopen_segments speed hlawful hinv ?_ hopened a
          exact fun _ => rfl
      | _ => exact ⟨hinv, Unasked.refl _⟩

omit hlawful in
/-- A word that is popped said nothing new. -/
theorem popped_unasked {s s' : σ} {e : IfEvent} (hevents : S.events s = e :: S.events s') :
    Unasked S s s' := by
  intro k hlast
  rw [lastQueued_pop S hevents k, hlast]
  split <;> rfl

/-- **Popping an event**: a serve opens on a segment, and a drop closes. -/
theorem hearingApply_segments {h : Hearing σ n} (hinv : OnSegments S h)
    (hserves : ServesSegments S h.scan) (hunt : Option Hunt) (s : ServeArgs n) :
    OnSegments S (hearingApply S speed h hunt s) ∧
      Unasked S h.scan (hearingApply S speed h hunt s).scan := by
  unfold hearingApply
  cases hnext : S.next h.scan with
  | none => exact ⟨hinv, Unasked.refl _⟩
  | some popped =>
      obtain ⟨e, scan⟩ := popped
      obtain ⟨hevents, hstate⟩ := hlawful.next_some h.scan e scan hnext
      have hunasked := popped_unasked hevents
      -- what is held stays held unless it is the drop that is popped
      have hheld : ∀ k, (e.verb = .drop → e.name ≠ k) → HeldOrDropped S h.scan k →
          HeldOrDropped S scan k := by
        intro k hdrop hk
        rcases hk with hseg | hlast
        · exact Or.inl ((congrArg IfState.isSegment (hstate k)).trans hseg)
        · rw [lastQueued_pop S hevents k] at hlast
          split at hlast
          · rename_i habout
            obtain ⟨hname, hverb⟩ := about_self habout
            have hserve := hverb.resolve_right fun h => hdrop h hname
            refine Or.inr ?_
            cases hrest : lastQueued S scan k with
            | some verb =>
                rw [hrest] at hlast
                exact hlast
            | none =>
                rw [hrest, hserve] at hlast
                exact absurd hlast (by decide)
          · exact Or.inr hlast
      have hpopped : (e.verb ≠ .drop) → OnSegments S { h with scan := scan } := fun hverb =>
        ⟨hinv.placed.scan scan, fun k hon =>
          hheld k (fun hdrop => absurd hdrop hverb) (hinv.held k hon)⟩
      dsimp only
      cases hverb : e.verb with
      | serve =>
          have hpopped := hpopped (by rw [hverb]; decide)
          dsimp only
          split
          · exact ⟨hpopped, hunasked⟩
          · have hserve : HeldOrDropped S scan e.name := by
              have habout : e.about e.name = true := by simp [IfEvent.about, hverb]
              have hpop := lastQueued_pop S hevents e.name
              rw [if_pos habout, hverb] at hpop
              cases hrest : lastQueued S scan e.name with
              | none =>
                  rw [hrest] at hpop
                  exact Or.inl ((congrArg _ (hstate e.name)).trans (hserves e.name hpop))
              | some verb =>
                  rw [hrest] at hpop
                  rcases (lastQueued_verb hrest).2 with rfl | rfl
                  · exact Or.inl ((congrArg _ (hstate e.name)).trans (hserves e.name hpop))
                  · exact Or.inr hrest
            obtain ⟨hinv', hunasked'⟩ := hearingServe_segments speed hlawful hpopped s.answers
              (serveCfg_source e.name s.conf hunt s.forcedRate) hserve
            exact ⟨hinv', hunasked.trans hunasked'⟩
      | drop =>
          have hplaced : Placed { h with scan := scan } := hinv.placed.scan scan
          dsimp only
          refine ⟨⟨hplaced.drop e.name, fun k hon => ?_⟩, ?_⟩
          · have hk : e.name ≠ k := fun heq => not_served_dropped hplaced e.name (heq ▸ hon)
            obtain ⟨j, hj⟩ := hon
            have hwas := (staysPut_kept (hearingDrop_slot _ e.name j)).serves hj
            rw [hearingDrop_scan]
            exact hheld k (fun _ => hk) (hinv.held k ⟨j, hwas⟩)
          · rw [hearingDrop_scan]
            exact hunasked
      | _ => exact ⟨hpopped (by rw [hverb]; decide), hunasked⟩

/-- What is heard is a segment from now on. -/
theorem heard_segments {h : Hearing σ n} (hinv : OnSegments S h)
    (hserves : ServesSegments S h.scan) (name : String) (now : Nat) :
    OnSegments S { h with scan := S.heard h.scan name now } ∧
      ServesSegments S (S.heard h.scan name now) := by
  rcases hlawful.heard h.scan name now with ⟨hevents, hstate⟩ | ⟨-, hseg, hothers, hevents⟩
  · have hsame : ∀ k, SameAt S h.scan (S.heard h.scan name now) k := fun k =>
      ⟨hstate k, lastQueued_append S _ _ [] k (by rw [hevents, List.append_nil]) (by simp)⟩
    refine ⟨⟨hinv.placed.scan _, fun k hon => (hsame k).held (hinv.held k hon)⟩,
      fun k hlast => ?_⟩
    rw [(hsame k).1]
    exact hserves k ((hsame k).2.symm.trans hlast)
  · have hname : (S.state (S.heard h.scan name now) name).isSegment = true := by rw [hseg]; rfl
    have hsame : ∀ k, k ≠ name → SameAt S h.scan (S.heard h.scan name now) k := fun k hk =>
      ⟨hothers k hk, lastQueued_append S _ _ _ k hevents fun e he => by
        obtain rfl := List.mem_singleton.mp he
        have hne : (name == k) = false := beq_eq_false_iff_ne.mpr (Ne.symm hk)
        rw [IfEvent.about, hne, Bool.false_and]⟩
    refine ⟨⟨hinv.placed.scan _, fun k hon => ?_⟩, fun k hlast => ?_⟩
    · by_cases hk : k = name
      · exact Or.inl (hk ▸ hname)
      · exact (hsame k hk).held (hinv.held k hon)
    · by_cases hk : k = name
      · exact hk ▸ hname
      · rw [(hsame k hk).1]
        exact hserves k ((hsame k hk).2.symm.trans hlast)

variable (hvoiced : S.Voiced)
include hvoiced

/-- Every act but a hunt's leaves the engines on segments, and asks for no serve. -/
theorem hearStep_unasked (h : Hearing σ n) (act : HearAct n)
    (hhunt : ∀ name now, act ≠ .hunt name now) (hinv : OnSegments S h)
    (hserves : ServesSegments S h.scan) :
    OnSegments S (hearStep S speed h act) ∧ Unasked S h.scan (hearStep S speed h act).scan := by
  have htold : ∀ scan, S.Told h.scan scan →
      OnSegments S { h with scan := scan } ∧ Unasked S h.scan scan := fun scan hscan =>
    ⟨hinv.told hscan, told_unasked hscan⟩
  have hslot : ∀ i L, StaysPut (h.listeners i) L →
      OnSegments S (h.setSlot i L) ∧ Unasked S h.scan (h.setSlot i L).scan := fun i L hput =>
    ⟨hinv.setSlot hput, Unasked.refl _⟩
  have hrehear : ∀ name now, OnSegments S (hearingRehear S h name now) ∧
      Unasked S h.scan (hearingRehear S h name now).scan := fun name now =>
    ⟨hinv.rehear hlawful name now, rehear_unasked hlawful h name now⟩
  cases act with
  | slotTick i ifaceLost a => exact slotTick_segments speed hlawful hinv i ifaceLost a
  | ifaceGone i now =>
      dsimp only [hearStep]
      split
      · exact htold _ (hvoiced.gone _ _ now)
      · exact ⟨hinv, Unasked.refl _⟩
  | hunt name now => exact absurd rfl (hhunt name now)
  | join i hunt s =>
      dsimp only [hearStep]
      cases hsource : (h.listeners i).cfg.source with
      | none => exact ⟨hinv, Unasked.refl _⟩
      | some name =>
          dsimp only
          split
          · rename_i happlies
            simp only [joinApplies, Bool.and_eq_true] at happlies
            exact hearingReserve_segments speed hlawful hinv hunt s
              ⟨i, serves_iff.mpr ⟨happlies.1.1.1.1, hsource⟩⟩
          · exact ⟨hinv, Unasked.refl _⟩
  | reevaluate i now =>
      dsimp only [hearStep]
      split
      · exact ⟨hinv, Unasked.refl _⟩
      · split
        · exact hrehear _ now
        · exact ⟨hinv, Unasked.refl _⟩
  | rehearEmpty i now obs =>
      dsimp only [hearStep]
      split
      · exact hrehear _ now
      · rename_i hkeeps
        obtain ⟨hopened, hcfg⟩ := rehearEmptyMaster_stays (by simpa using hkeeps)
        refine hslot i _ fun hup => ?_
        rw [hopened] at hup
        exact ⟨hup, by rw [hcfg]⟩
  | yield v now =>
      dsimp only [hearStep]
      cases hfound : hearingListener h v.name with
      | none => exact ⟨hinv, Unasked.refl _⟩
      | some i =>
          dsimp only
          split
          · exact ⟨hinv, Unasked.refl _⟩
          · exact hearingReserve_segments speed hlawful hinv v.hunt v.serve
              ⟨i, (hearingListener_some hfound).2⟩
  | scanTick now => exact htold _ (hvoiced.tick _ now)
  | apply hunt s => exact hearingApply_segments speed hlawful hinv hserves hunt s
  | trunk name =>
      refine ⟨hinv.drop name, ?_⟩
      show Unasked S h.scan (hearingDrop h name).scan
      rw [hearingDrop_scan]
      exact Unasked.refl _
  | write i w =>
      dsimp only [hearStep]
      split
      · obtain ⟨hopened, hcfg⟩ := listenerWrite_shape (h.listeners i) w
        refine hslot i _ fun hup => ?_
        rw [hopened] at hup
        exact ⟨hup, by rw [hcfg]⟩
      · exact ⟨hinv, Unasked.refl _⟩
  | drain bytes now => exact htold _ (hvoiced.drain _ bytes now)
  | confEdit ignored => exact ⟨hinv.stay rfl rfl fun _ => StaysPut.refl _, Unasked.refl _⟩

/-- **One act leaves every engine on a segment**, and every serve with its segment. -/
theorem hearStep_segments (h : Hearing σ n) (act : HearAct n)
    (hinv : OnSegments S h ∧ ServesSegments S h.scan) (hkeeps : KeepsServes S speed h act) :
    OnSegments S (hearStep S speed h act) ∧ ServesSegments S (hearStep S speed h act).scan := by
  by_cases hhunt : ∃ name now, act = .hunt name now
  · obtain ⟨name, now, rfl⟩ := hhunt
    show OnSegments S (if _ then _ else h) ∧ ServesSegments S (if _ then _ else h).scan
    split
    · exact heard_segments hlawful hinv.1 hinv.2 name now
    · exact hinv
  · obtain ⟨hright, hunasked⟩ := hearStep_unasked speed hlawful hvoiced h act
      (fun name now heq => hhunt ⟨name, now, heq⟩) hinv.1 hinv.2
    exact ⟨hright, fun name hlast => hkeeps name (hunasked name hlast) hlast⟩

/-! ### A whole run -/

omit hlawful hvoiced in
/-- The first dump asks for no serve. -/
theorem dumped_servesSegments {s : σ} (hdumped : S.Dumped s) : ServesSegments S s := by
  intro name hlast
  exact absurd (mem_verbsOf.mpr (lastQueued_verb hlast).1) (hdumped name).leaves.1

omit hlawful hvoiced in
/-- Nothing is open. -/
theorem onSegments_start {h : Hearing σ n} (hen : h.enabled = true)
    (hclosed : ∀ i, (h.listeners i).opened = false) : OnSegments S h where
  placed := placed_of_closed hen hclosed
  held name hon := by
    obtain ⟨j, hj⟩ := hon
    rw [serves, hclosed j] at hj
    exact absurd hj Bool.false_ne_true

/-- **Every engine is on a segment**, or its drop is queued: whatever is opened after a run is on
an interface of its own, and the table holds that as a segment or has said that it is to be
dropped. -/
theorem engines_on_segments (h : Hearing σ n) (hen : h.enabled = true)
    (hclosed : ∀ i, (h.listeners i).opened = false) (hdumped : S.Dumped h.scan)
    (run : List (HearAct n))
    (hkeeps : (hearMachine S speed).Guarded (KeepsServes S speed) h run) (i : Fin n)
    (hopened : (((hearMachine S speed).after h run).listeners i).opened = true) :
    let h' := (hearMachine S speed).after h run
    ∃ name, serves (h'.listeners i) name = true ∧
      (∀ j, serves (h'.listeners j) name = true → j = i) ∧
      (S.state h'.scan name = .segment ∨ S.state h'.scan name = .hold ∨
        lastQueued S h'.scan name = some .drop) := by
  obtain ⟨hinv, -⟩ := (hearMachine S speed).invariant_guarded
    (I := fun h => OnSegments S h ∧ ServesSegments S h.scan)
    (hearStep_segments speed hlawful hvoiced) run h
    ⟨onSegments_start hen hclosed, dumped_servesSegments hdumped⟩ hkeeps
  dsimp only
  generalize (hearMachine S speed).after h run = h' at hinv hopened ⊢
  obtain ⟨name, hserves⟩ := hinv.placed.sourced i hopened
  refine ⟨name, hserves, fun j hj => hinv.placed.distinct j i name hj hserves, ?_⟩
  rcases hinv.held name ⟨i, hserves⟩ with hseg | hdrop
  · cases hstate : S.state h'.scan name with
    | segment => exact Or.inl rfl
    | hold => exact Or.inr (Or.inl rfl)
    | _ =>
        rw [hstate] at hseg
        exact absurd hseg Bool.false_ne_true
  · exact Or.inr (Or.inr hdrop)

end

end

/-! ### An interface that goes away -/

/-- An act that finds or leaves the queue empty has no serve to lose. -/
theorem keepsServes_of_quiet {σ : Type*} {n : Nat} {S : IfScan σ} {speed : String → Nat}
    {h : Hearing σ n} {act : HearAct n}
    (hquiet : S.events h.scan = [] ∨ S.events (hearStep S speed h act).scan = []) :
    KeepsServes S speed h act := by
  have hnone : ∀ s name, S.events s = [] → lastQueued S s name ≠ some .serve := by
    intro s name hempty hlast
    have hmem := (lastQueued_verb hlast).1
    rw [hempty] at hmem
    exact absurd hmem List.not_mem_nil
  intro name hlast hlast'
  rcases hquiet with hempty | hempty
  · exact absurd hlast (hnone _ name hempty)
  · exact absurd hlast' (hnone _ name hempty)

/-- The interface is listened to, heard and served, and its receiver finds it gone. -/
def goneRun : List (HearAct 1) := (unplugRun.take 4).map (·.act)

theorem engines_on_segments_gone :
    let h := (hearMachine scanTable (fun _ => 0)).after firstDump.table goneRun
    (h.listeners (Fin.last 0)).opened = true ∧ scanTable.state h.scan "enp1s0" = .absent ∧
      lastQueued scanTable h.scan "enp1s0" = some .drop := by
  have hkeeps : (hearMachine scanTable (fun _ => 0)).Guarded
      (KeepsServes scanTable (fun _ => 0)) firstDump.table goneRun :=
    ⟨keepsServes_of_quiet (Or.inr (by decide)), keepsServes_of_quiet (Or.inl (by decide)),
      keepsServes_of_quiet (Or.inr (by decide)), keepsServes_of_quiet (Or.inl (by decide)), trivial⟩
  have hopened : (((hearMachine scanTable (fun _ => 0)).after firstDump.table goneRun).listeners
      (Fin.last 0)).opened = true := by decide
  obtain ⟨name, hserves, -, hheld⟩ := engines_on_segments (fun _ => 0) scanTable_lawful
    scanTable_voiced firstDump.table rfl (fun _ => rfl) firstDump_dumped goneRun hkeeps
    (Fin.last 0) hopened
  have hname : name = "enp1s0" :=
    Option.some.inj ((serves_iff.mp hserves).2.symm.trans (by decide))
  rw [hname] at hheld
  exact ⟨hopened, by decide, (hheld.resolve_left (by decide)).resolve_left (by decide)⟩

/-- A small table whose interface comes back when the kernel is read. -/
def replugTable : IfScan ScanTable :=
  { scanTable with
    drain := fun t _ _ =>
      if t.state "enp1s0" = .absent then t.move "enp1s0" .linked .listen else t }

def followHunt : Hunt := { boxHunt with verdict := .slave, role := .slave }

def followServe : ServeArgs 1 := { boxServe with conf := segmentCfg "enp1s0" .slave }

/-- It comes back, and is heard, before its drop is carried out, and what still follows there
is given up for following nobody. -/
def replugRun : List (HearAct 1) :=
  [.apply none boxServe, .hunt "enp1s0" 0, .apply (some followHunt) followServe,
    .ifaceGone (Fin.last 0) 0, .drain [] 0, .hunt "enp1s0" 0, .reevaluate (Fin.last 0) 0,
    .apply none boxServe, .apply none boxServe, .apply (some followHunt) followServe,
    .apply none boxServe, .ifaceGone (Fin.last 0) 0, .apply none boxServe]

/-- The serve that was queued opens on a wire that is only listened to; the wire goes, nothing is
queued, and the engine is left. -/
example :
    let h := (hearMachine replugTable (fun _ => 0)).after firstDump.table replugRun
    (h.listeners (Fin.last 0)).opened = true ∧ replugTable.state h.scan "enp1s0" = .absent ∧
      h.scan.queue = [] := by
  decide

end ReacPw
