/-
Where the hearing's listeners are.

In every run of the hearing an opened listener is on an interface of its own: it has
one, and no other opened listener is on it.  A serve looks for the interface before it
takes a slot, and nothing else puts an opened listener on an interface it was not on.
-/
import ReacPw.Proofs.Stranded

namespace ReacPw

variable {σ : Type*} {n : Nat}

/-- Every opened listener is on an interface of its own. -/
structure Placed (h : Hearing σ n) : Prop where
  enabled : h.enabled = true
  sourced : ∀ i, (h.listeners i).opened = true → ∃ name, serves (h.listeners i) name = true
  distinct : ∀ i j name, serves (h.listeners i) name = true →
    serves (h.listeners j) name = true → i = j

theorem serves_iff {L : Listener} {name : String} :
    serves L name = true ↔ L.opened = true ∧ L.cfg.source = some name := by
  simp [serves]

/-- An opened listener was opened before, and on the same interface. -/
def StaysPut (L L' : Listener) : Prop :=
  L'.opened = true → L.opened = true ∧ L'.cfg.source = L.cfg.source

theorem StaysPut.refl (L : Listener) : StaysPut L L := fun hopened => ⟨hopened, rfl⟩

theorem staysPut_closed {L L' : Listener} (hclosed : L'.opened = false) : StaysPut L L' := by
  intro hopened
  rw [hclosed] at hopened
  exact absurd hopened Bool.false_ne_true

theorem StaysPut.serves {L L' : Listener} (hput : StaysPut L L') {name : String}
    (hserves : ReacPw.serves L' name = true) : ReacPw.serves L name = true := by
  obtain ⟨hopened, hsource⟩ := serves_iff.mp hserves
  obtain ⟨hopened', hsame⟩ := hput hopened
  exact serves_iff.mpr ⟨hopened', hsame.symm.trans hsource⟩

/-- A table whose listeners stay where they are, or close. -/
theorem Placed.stay {h h' : Hearing σ n} (hp : Placed h) (hen : h'.enabled = h.enabled)
    (hput : ∀ j, StaysPut (h.listeners j) (h'.listeners j)) : Placed h' where
  enabled := hen.trans hp.enabled
  sourced := by
    intro i hopened
    obtain ⟨hopened', hsame⟩ := hput i hopened
    obtain ⟨name, hserves⟩ := hp.sourced i hopened'
    exact ⟨name, serves_iff.mpr ⟨hopened, hsame.trans (serves_iff.mp hserves).2⟩⟩
  distinct := by
    intro i j name hi hj
    exact hp.distinct i j name ((hput i).serves hi) ((hput j).serves hj)

theorem Placed.setSlot {h : Hearing σ n} (hp : Placed h) {i : Fin n} {L : Listener}
    (hput : StaysPut (h.listeners i) L) : Placed (h.setSlot i L) := by
  refine hp.stay rfl fun j => ?_
  by_cases hj : j = i
  · subst hj
    rw [setSlot_same]
    exact hput
  · rw [setSlot_ne _ _ hj]
    exact StaysPut.refl _

theorem staysPut_kept {h h' : Hearing σ n} {names : List String} {j : Fin n}
    (hkept : KeptOrDropped h h' names j) : StaysPut (h.listeners j) (h'.listeners j) := by
  rcases hkept with heq | ⟨-, hdropped⟩
  · rw [heq]
    exact StaysPut.refl _
  · exact staysPut_closed (by rw [hdropped]; rfl)

theorem Placed.drop {h : Hearing σ n} (hp : Placed h) (name : String) :
    Placed (hearingDrop h name) :=
  hp.stay (hearingDrop_enabled h name) fun j => staysPut_kept (hearingDrop_slot h name j)

/-- A drop of an interface closes the slot that is on it, and no other. -/
theorem hearingDrop_exact {h : Hearing σ n} (hp : Placed h) (name : String) (j : Fin n) :
    (hearingDrop h name).listeners j =
      if serves (h.listeners j) name then listenerDropped (h.listeners j)
      else h.listeners j := by
  unfold hearingDrop
  cases hfound : hearingListener h name with
  | none => rw [if_neg (by simp [hearingListener_none hp.enabled hfound j])]
  | some i =>
      have hi := (hearingListener_some hfound).2
      dsimp only
      by_cases hj : j = i
      · subst hj
        rw [setSlot_same, if_pos hi]
      · rw [setSlot_ne _ _ hj]
        by_cases hserves : serves (h.listeners j) name = true
        · exact absurd (hp.distinct j i name hserves hi) hj
        · rw [if_neg hserves]

/-- The interface table moves under the listeners. -/
theorem Placed.scan {h : Hearing σ n} (hp : Placed h) (s : σ) : Placed { h with scan := s } :=
  hp.stay rfl fun _ => StaysPut.refl _

variable (S : IfScan σ) (speed : String → Nat)

theorem Placed.rehear {h : Hearing σ n} (hp : Placed h) (name : String) (now : Nat) :
    Placed (hearingRehear S h name now) :=
  (hp.drop name).scan _

theorem Placed.admitted {h : Hearing σ n} (hp : Placed h) (i : Fin n) (a : SlotAnswers n) :
    Placed (slotAdmitted S speed h i a).1 :=
  hp.stay (slotAdmitted_enabled S speed h i a) fun j =>
    staysPut_kept (slotAdmitted_slot S speed h i a j)

/-- A free slot takes an interface that no opened listener is on. -/
theorem Placed.place {h : Hearing σ n} (hp : Placed h) {i : Fin n} {L : Listener} {name : String}
    (hserves : serves L name = true) (hfree : ∀ j, j ≠ i → serves (h.listeners j) name = false) :
    Placed (h.setSlot i L) where
  enabled := hp.enabled
  sourced := by
    intro j hopened
    by_cases hj : j = i
    · subst hj
      exact ⟨name, by rw [setSlot_same]; exact hserves⟩
    · rw [setSlot_ne _ _ hj] at hopened ⊢
      exact hp.sourced j hopened
  distinct := by
    have hother : ∀ j k, j ≠ i → serves (h.listeners j) k = true → serves L k = true → False := by
      intro j k hj hk hL
      have hname : k = name :=
        Option.some.inj ((serves_iff.mp hL).2.symm.trans (serves_iff.mp hserves).2)
      rw [hname, hfree j hj] at hk
      exact absurd hk Bool.false_ne_true
    intro j k name' hj hk
    by_cases hji : j = i
    · by_cases hki : k = i
      · rw [hji, hki]
      · rw [hji, setSlot_same] at hj
        rw [setSlot_ne _ _ hki] at hk
        exact (hother k name' hki hk hj).elim
    · rw [setSlot_ne _ _ hji] at hj
      by_cases hki : k = i
      · rw [hki, setSlot_same] at hk
        exact (hother j name' hji hj hk).elim
      · rw [setSlot_ne _ _ hki] at hk
        exact hp.distinct j k name' hj hk

theorem listenerServe_down {cfg : ListenerCfg} {fits : Bool} {a : OpenAnswers}
    (hdown : (listenerServe cfg fits a).2 = false) : (listenerServe cfg fits a).1 = .zeroed := by
  rcases listenerServe_cases cfg fits a with hzeroed | ⟨M, feeds, -, hres⟩
  · rw [hzeroed]
  · rw [hres] at hdown
    exact absurd hdown (by simp)

/-- **A serve keeps every listener on an interface of its own.** -/
theorem Placed.serve {h : Hearing σ n} (hp : Placed h) {name : String} {cfg : ListenerCfg}
    (hsource : cfg.source = some name) (a : SlotAnswers n) :
    Placed (hearingServe S speed h name cfg a) := by
  unfold hearingServe
  split
  · exact hp
  · rename_i hnone
    have hfree : ∀ j, serves (h.listeners j) name = false :=
      hearingListener_none hp.enabled (by simpa using hnone)
    cases hslot : freeSlot h with
    | none => exact hp.scan _
    | some i =>
        dsimp only
        have hclosed : Placed (h.setSlot i { Listener.zeroed with cfg := cfg }) :=
          hp.setSlot (staysPut_closed rfl)
        have hadmitted := hclosed.admitted S speed i a
        have hothers := slotAdmitted_slot S speed
          (h.setSlot i { Listener.zeroed with cfg := cfg }) i a
        generalize slotAdmitted S speed (h.setSlot i { Listener.zeroed with cfg := cfg }) i a = r
          at hadmitted hothers ⊢
        split
        · rename_i hserved
          refine hadmitted.place (listenerServe_serves hsource hserved) fun j hj => ?_
          have hput := staysPut_kept (hothers j)
          rw [setSlot_ne _ _ hj] at hput
          cases hon : serves (r.1.listeners j) name with
          | false => rfl
          | true => exact absurd (hput.serves hon) (by rw [hfree j]; exact Bool.false_ne_true)
        · rename_i hdown
          rw [listenerServe_down (by simpa using hdown)]
          exact (hadmitted.setSlot (staysPut_closed rfl)).scan _

theorem Placed.reserve {h : Hearing σ n} (hp : Placed h) (name : String) (hunt : Hunt)
    (s : ServeArgs n) : Placed (hearingReserve S speed h name hunt s) :=
  (hp.drop name).serve S speed (serveCfg_source name s.conf (some hunt) s.forcedRate) s.answers

/-- A re-open in place opens the slot on the interface it was on. -/
theorem Placed.reopen {h : Hearing σ n} (hp : Placed h) {i : Fin n}
    {change : ListenerCfg → ListenerCfg} (hchange : ∀ c, (change c).source = c.source)
    (hopened : (h.listeners i).opened = true) (a : SlotAnswers n) :
    Placed (slotReopen S speed h i change a) := by
  have hclosing : Placed (h.setSlot i (listenerReopening (h.listeners i) change)) :=
    hp.setSlot (staysPut_closed rfl)
  have hadmitted := hclosing.admitted S speed i a
  have hothers := slotAdmitted_slot S speed
    (h.setSlot i (listenerReopening (h.listeners i) change)) i a
  unfold slotReopen
  dsimp only
  generalize slotAdmitted S speed (h.setSlot i (listenerReopening (h.listeners i) change)) i a = r
    at hadmitted hothers ⊢
  cases hup : (listenerReopen (h.listeners i) change r.2 a.open_).opened with
  | false => exact hadmitted.setSlot (staysPut_closed hup)
  | true =>
      obtain ⟨name, hserves⟩ := hp.sourced i hopened
      refine hadmitted.place (listenerReopen_serves hchange hup hserves) fun j hj => ?_
      have hput := staysPut_kept (hothers j)
      rw [setSlot_ne _ _ hj] at hput
      cases hon : serves (r.1.listeners j) name with
      | false => rfl
      | true => exact absurd (hp.distinct j i name (hput.serves hon) hserves) hj

/-! ### Every act -/

/-- A tick asks for a re-open of an opened listener only. -/
theorem slotAsked_closed {h : Hearing σ n} {i : Fin n} (hclosed : (h.listeners i).opened = false)
    (ifaceLost : Bool) (a : SlotAnswers n) : slotAsked h i ifaceLost a = .skipped := by
  unfold slotAsked rateReopenTick
  rw [hclosed]
  rfl

theorem slotTick_placed {h : Hearing σ n} (hp : Placed h) (i : Fin n) (ifaceLost : Bool)
    (a : SlotAnswers n) : Placed (slotTick S speed h i ifaceLost a) := by
  unfold slotTick
  cases hopened : (h.listeners i).opened with
  | false =>
      rw [slotAsked_closed hopened]
      exact hp
  | true =>
      cases slotAsked h i ifaceLost a with
      | reclassify role => exact hp.rehear S _ a.now
      | reopenRole role =>
          refine hp.reopen S speed ?_ hopened a
          exact fun _ => rfl
      | reopenRate hz =>
          refine hp.reopen S speed ?_ hopened a
          exact fun _ => rfl
      | _ => exact hp

theorem hearingApply_placed {h : Hearing σ n} (hp : Placed h) (hunt : Option Hunt)
    (s : ServeArgs n) : Placed (hearingApply S speed h hunt s) := by
  unfold hearingApply
  cases S.next h.scan with
  | none => exact hp
  | some popped =>
      obtain ⟨e, scan⟩ := popped
      have hpopped : Placed { h with scan := scan } := hp.scan scan
      dsimp only
      cases e.verb with
      | serve =>
          dsimp only
          split
          · exact hpopped
          · exact hpopped.serve S speed (serveCfg_source e.name s.conf hunt s.forcedRate) s.answers
      | drop => exact hpopped.drop e.name
      | _ => exact hpopped

/-- **Every act keeps every listener on an interface of its own.** -/
theorem hearStep_placed (h : Hearing σ n) (act : HearAct n) (hp : Placed h) :
    Placed (hearStep S speed h act) := by
  cases act with
  | slotTick i ifaceLost a => exact slotTick_placed S speed hp i ifaceLost a
  | ifaceGone i now =>
      show Placed (if _ then _ else h)
      split
      · exact hp.scan _
      · exact hp
  | hunt name now =>
      show Placed (if _ then _ else h)
      split
      · exact hp.scan _
      · exact hp
  | join i hunt s =>
      dsimp only [hearStep]
      split
      · exact hp
      · split
        · exact hp.reserve S speed _ hunt s
        · exact hp
  | reevaluate i now =>
      dsimp only [hearStep]
      split
      · exact hp
      · split
        · exact hp.rehear S _ now
        · exact hp
  | rehearEmpty i now obs =>
      dsimp only [hearStep]
      split
      · exact hp.rehear S _ now
      · rename_i hkeeps
        obtain ⟨hopened, hcfg⟩ := rehearEmptyMaster_stays (by simpa using hkeeps)
        refine hp.setSlot fun hup => ?_
        rw [hopened] at hup
        exact ⟨hup, by rw [hcfg]⟩
  | yield v now =>
      dsimp only [hearStep]
      split
      · exact hp
      · split
        · exact hp
        · exact hp.reserve S speed _ v.hunt v.serve
  | scanTick now => exact hp.scan _
  | apply hunt s => exact hearingApply_placed S speed hp hunt s
  | trunk name => exact hp.drop name
  | write i w =>
      dsimp only [hearStep]
      split
      · obtain ⟨hopened, hcfg⟩ := listenerWrite_shape (h.listeners i) w
        refine hp.setSlot fun hup => ?_
        rw [hopened] at hup
        exact ⟨hup, by rw [hcfg]⟩
      · exact hp
  | drain bytes now => exact hp.scan _
  | confEdit ignored => exact hp.stay rfl fun _ => StaysPut.refl _

/-- A hearing with nothing open. -/
theorem placed_of_closed {h : Hearing σ n} (hen : h.enabled = true)
    (hclosed : ∀ i, (h.listeners i).opened = false) : Placed h where
  enabled := hen
  sourced := by
    intro i hopened
    rw [hclosed i] at hopened
    exact absurd hopened Bool.false_ne_true
  distinct := by
    intro i j name hi
    rw [serves, hclosed i] at hi
    exact absurd hi Bool.false_ne_true

/-- **In every run of the hearing** each opened listener is on an interface of its own. -/
theorem hearing_placed {h : Hearing σ n} (hen : h.enabled = true)
    (hclosed : ∀ i, (h.listeners i).opened = false) (run : List (HearAct n)) :
    Placed ((hearMachine S speed).after h run) :=
  (hearMachine S speed).invariant (hearStep_placed S speed) run h (placed_of_closed hen hclosed)

end ReacPw
