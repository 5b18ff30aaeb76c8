/-
Whose quiet the empty-master rule judges.

The rule's watch lives in the listener and its record is about one engine: what
the box-frame count was, when it last moved, whether the master has been past
PROBING.  A serve zeroes the slot, watch and all.  A re-open in place replaces the
engine and leaves the watch.

The engine's life is ghost state: whether a poll has seen it past PROBING, and
since when it has courted with no box frame.  What carries the induction is that
an open watch and a polled engine agree.  They can disagree only on the first
poll of an engine opened in place, and that poll is harmless exactly when it
overwrites the old record (`NotAnotherEngines`).
-/
import ReacPw.Lib.Run
import ReacPw.Segment

namespace ReacPw

/-! ### One listener's opens and polls -/

/-- What happens to one slot of the hearing, each with its time. -/
inductive EngineEvent where
  | serve (now : Nat) (cfg : ListenerCfg) (fits : Bool) (a : OpenAnswers)
  | reopenRate (now hz : Nat) (fits : Bool) (a : OpenAnswers)
  | reopenRole (now : Nat) (role : ReacRole) (fits : Bool) (a : OpenAnswers)
  /-- Dropped by something else: the link, a yield, a change of role. -/
  | drop (now : Nat)
  | poll (now : Nat) (obs : Option EngineObs)
  deriving DecidableEq, Repr

def EngineEvent.time : EngineEvent → Nat
  | .serve now _ _ _ => now
  | .reopenRate now _ _ _ => now
  | .reopenRole now _ _ _ => now
  | .drop now => now
  | .poll now _ => now

/-- One event, and whether the empty-master rule dropped the listener on it. -/
def engineStep (L : Listener) : EngineEvent → Listener × Bool
  | .serve _ cfg fits a => (if L.opened then L else (listenerServe cfg fits a).1, false)
  | .reopenRate _ hz fits a => (if L.opened then listenerReopenAtRate L hz fits a else L, false)
  | .reopenRole _ role fits a =>
      (if L.opened then listenerReopenAtRole L role fits a else L, false)
  | .drop _ => (if L.opened then listenerDropped L else L, false)
  | .poll now obs => rehearEmptyMaster L now obs

/-- The engine that is running now, since the open that brought it up. -/
structure EngineLife where
  /-- Some poll has shown it past PROBING. -/
  pastSeen : Bool
  /-- Its open, or the poll that last saw its box-frame count move. -/
  courtingSince : Nat
  /-- Its box-frame count at the last poll; a new pacer has counted none. -/
  rxSeen : UInt64
  polled : Bool
  deriving DecidableEq, Repr

def EngineLife.opened (now : Nat) : EngineLife :=
  { pastSeen := false, courtingSince := now, rxSeen := 0, polled := false }

/-- A poll shows the engine to its life. -/
def EngineLife.shown (life : EngineLife) (now : Nat) (o : EngineObs) : EngineLife :=
  { pastSeen := life.pastSeen || o.pastProbing
    courtingSince := if o.rxBoxFrames = life.rxSeen then life.courtingSince else now
    rxSeen := o.rxBoxFrames
    polled := true }

/-- An open starts a life, a poll of an open pacer is shown to it. -/
def noteEngine (life : EngineLife) (L : Listener) (e : EngineEvent) (_dropped : Bool) :
    EngineLife :=
  match e with
  | .serve now _ _ _ => if L.opened then life else .opened now
  | .reopenRate now _ _ _ => if L.opened then .opened now else life
  | .reopenRole now _ _ _ => if L.opened then .opened now else life
  | .drop _ => life
  | .poll _ none => life
  | .poll now (some o) => life.shown now o

/-- One slot, with the life of its engine beside it. -/
def engineMachine : StepMachine (Listener × EngineLife) EngineEvent Bool :=
  StepMachine.withHistory { step := engineStep } noteEngine

/-- The drop is the running engine's own: it was past PROBING and is no longer, or it
has courted for the quiet time with no box frame. -/
def DropIsOwn (life : EngineLife) (now : Nat) (o : EngineObs) : Prop :=
  o.pastProbing = false ∧
    (life.pastSeen = true ∨ (life.shown now o).courtingSince + reacEmptyMasterQuietNs ≤ now)

/-- On a poll that drops the listener, the drop is the running engine's own. -/
def DropsOwnEngine (s : Listener × EngineLife) : EngineEvent → Prop
  | .poll now obs => (rehearEmptyMaster s.1 now obs).2 = true →
      ∃ o, obs = some o ∧ DropIsOwn s.2 now o
  | _ => True

/-- A first poll that finds the watch of an engine before this one overwrites it: the
new engine is past PROBING, or the old one was not and the count has moved. -/
def NotAnotherEngines (s : Listener × EngineLife) : EngineEvent → Prop
  | .poll _ (some o) =>
      emptyMasterApplies s.1 = true → s.1.emptyOpen = true → s.2.polled = false →
        o.pastProbing = true ∨
          (s.1.empty.wasPast = false ∧ o.rxBoxFrames ≠ s.1.empty.rxLast)
  | _ => True

instance (s : Listener × EngineLife) (e : EngineEvent) : Decidable (NotAnotherEngines s e) := by
  cases e with
  | poll now obs => cases obs <;> (unfold NotAnotherEngines; infer_instance)
  | _ => exact instDecidableTrue

/-! ### The watch and the engine -/

/-- An open watch over a polled engine is about that engine. -/
structure WatchIsOwn (t : Nat) (s : Listener × EngineLife) : Prop where
  since : s.2.courtingSince ≤ t
  past : s.1.emptyOpen = true → s.2.polled = true → s.1.empty.wasPast = true →
    s.2.pastSeen = true
  count : s.1.emptyOpen = true → s.2.polled = true → s.1.empty.rxLast = s.2.rxSeen
  moved : s.1.emptyOpen = true → s.2.polled = true →
    s.2.pastSeen = true ∨ s.2.courtingSince ≤ s.1.empty.movedNs

/-- The watch of an engine that no poll has seen says nothing about it. -/
theorem watchIsOwn_unpolled {t : Nat} {s : Listener × EngineLife} (hsince : s.2.courtingSince ≤ t)
    (hunpolled : s.2.polled = false) : WatchIsOwn t s where
  since := hsince
  past _ hp := absurd hp (by rw [hunpolled]; decide)
  count _ hp := absurd hp (by rw [hunpolled]; decide)
  moved _ hp := absurd hp (by rw [hunpolled]; decide)

theorem watchIsOwn_closed {t : Nat} {s : Listener × EngineLife} (hsince : s.2.courtingSince ≤ t)
    (hclosed : s.1.emptyOpen = false) : WatchIsOwn t s where
  since := hsince
  past ho := absurd ho (by rw [hclosed]; decide)
  count ho := absurd ho (by rw [hclosed]; decide)
  moved ho := absurd ho (by rw [hclosed]; decide)

/-- One step of an open watch over its own engine, or over one it is about to be
overwritten for: the record stays the engine's, and a drop is the engine's own. -/
theorem emptyMasterStep_isOwn {t now : Nat} {L : Listener} {life : EngineLife} {o : EngineObs}
    (hown : WatchIsOwn t (L, life)) (htime : t ≤ now) (hopen : L.emptyOpen = true)
    (hfirst : life.polled = false → o.pastProbing = true ∨
      (L.empty.wasPast = false ∧ o.rxBoxFrames ≠ L.empty.rxLast)) :
    WatchIsOwn now
      ({ L with empty := (reacEmptyMasterStep L.empty now o.rxBoxFrames o.pastProbing).1 },
        life.shown now o) ∧
    ((reacEmptyMasterStep L.empty now o.rxBoxFrames o.pastProbing).2 = true →
      DropIsOwn life now o) := by
  have hsince : (life.shown now o).courtingSince ≤ now := by
    have hle : life.courtingSince ≤ t := hown.since
    show (if o.rxBoxFrames = life.rxSeen then life.courtingSince else now) ≤ now
    split <;> omega
  rcases reacEmptyMasterStep_cases L.empty now o.rxBoxFrames o.pastProbing with
    ⟨hpast, hstep⟩ | ⟨hpast, hstep, hdrop⟩
  · -- past PROBING: the record is written afresh, and nothing is dropped
    rw [hstep]
    have hseen : (life.shown now o).pastSeen = true := by
      show (life.pastSeen || o.pastProbing) = true
      rw [hpast, Bool.or_true]
    exact ⟨⟨hsince, fun _ _ _ => hseen, fun _ _ => rfl, fun _ _ => Or.inl hseen⟩,
      fun h => absurd h Bool.false_ne_true⟩
  have hseen : (life.shown now o).pastSeen = life.pastSeen := by
    show (life.pastSeen || o.pastProbing) = life.pastSeen
    rw [hpast, Bool.or_false]
  cases hpolled : life.polled with
  | true =>
      have hpastOwn : L.empty.wasPast = true → life.pastSeen = true := hown.past hopen hpolled
      have hcount : L.empty.rxLast = life.rxSeen := hown.count hopen hpolled
      have hmoved : life.pastSeen = true ∨ (life.shown now o).courtingSince ≤
          (if o.rxBoxFrames = L.empty.rxLast then L.empty.movedNs else now) := by
        rcases hown.moved hopen hpolled with h | h
        · exact Or.inl h
        · refine Or.inr ?_
          show (if o.rxBoxFrames = life.rxSeen then life.courtingSince else now) ≤ _
          rw [hcount]
          split
          · exact h
          · exact Nat.le_refl _
      refine ⟨⟨hsince, ?_, ?_, ?_⟩, ?_⟩
      · intro _ _ h
        rw [hseen]
        exact hpastOwn (by rw [hstep] at h; exact h)
      · intro _ _
        rw [hstep]
        rfl
      · intro _ _
        rw [hseen, hstep]
        exact hmoved
      · intro h
        refine ⟨hpast, ?_⟩
        rcases hdrop.mp h with hwas | hquiet
        · exact Or.inl (hpastOwn hwas)
        · rcases hmoved with hs | hle
          · exact Or.inl hs
          · have hpos : 0 < reacEmptyMasterQuietNs := by decide
            exact Or.inr (by omega)
  | false =>
      -- the record of the engine before this one is overwritten on the spot
      obtain h | ⟨hwas, hmove⟩ := hfirst hpolled
      · exact absurd h (by rw [hpast]; decide)
      rw [if_neg hmove] at hdrop hstep
      refine ⟨⟨hsince, ?_, ?_, ?_⟩, ?_⟩
      · intro _ _ h
        rw [hstep] at h
        exact absurd h (by rw [hwas]; decide)
      · intro _ _
        rw [hstep]
        rfl
      · intro _ _
        rw [hstep]
        exact Or.inr hsince
      · intro h
        have hquiet := hdrop.mp h
        have hpos : 0 < reacEmptyMasterQuietNs := by decide
        rw [hwas] at hquiet
        exact absurd hquiet (by simp; omega)

/-- One poll keeps the watch about its engine, and a drop is the engine's own. -/
theorem poll_isOwn {t now : Nat} {L : Listener} {life : EngineLife} {obs : Option EngineObs}
    (hown : WatchIsOwn t (L, life)) (htime : t ≤ now)
    (hfirst : NotAnotherEngines (L, life) (.poll now obs)) :
    WatchIsOwn now ((rehearEmptyMaster L now obs).1,
      noteEngine life L (.poll now obs) (rehearEmptyMaster L now obs).2) ∧
    DropsOwnEngine (L, life) (.poll now obs) := by
  have hsince : (noteEngine life L (.poll now obs) (rehearEmptyMaster L now obs).2).courtingSince
      ≤ now := by
    have hle : life.courtingSince ≤ t := hown.since
    cases obs with
    | none => exact Nat.le_trans hle htime
    | some o =>
        show (if o.rxBoxFrames = life.rxSeen then life.courtingSince else now) ≤ now
        split <;> omega
  rcases rehearEmptyMaster_cases L now obs with
    ⟨-, hres⟩ | ⟨rfl, hres⟩ | ⟨o, rfl, -, hres⟩ | ⟨o, rfl, happlies, hopen, hdrop, hleft⟩
  · rw [hres]
    exact ⟨watchIsOwn_closed (by rw [hres] at hsince; exact hsince) rfl,
      fun h => absurd h (by rw [hres]; exact Bool.false_ne_true)⟩
  · rw [hres]
    exact ⟨⟨Nat.le_trans hown.since htime, hown.past, hown.count, hown.moved⟩,
      fun h => absurd h (by rw [hres]; exact Bool.false_ne_true)⟩
  · rw [hres]
    refine ⟨⟨by rw [hres] at hsince; exact hsince, fun _ _ h => absurd h Bool.false_ne_true,
      fun _ _ => rfl, fun _ _ => Or.inr ?_⟩, fun h => absurd h (by rw [hres]; exact Bool.false_ne_true)⟩
    rw [hres] at hsince
    exact hsince
  · obtain ⟨hstep, hjust⟩ := emptyMasterStep_isOwn hown htime hopen
      (fun hunpolled => hfirst happlies hopen hunpolled)
    refine ⟨?_, fun h => ⟨o, rfl, hjust (hdrop ▸ h)⟩⟩
    rcases hleft with hleft | hleft
    · rw [hleft]
      exact hstep
    · exact watchIsOwn_closed hsince hleft

/-- Every event keeps the watch about the engine it was polled for. -/
theorem engineStep_isOwn (t : Nat) (s : Listener × EngineLife) (e : EngineEvent)
    (hown : WatchIsOwn t s) (htime : t ≤ e.time) (hfirst : NotAnotherEngines s e) :
    WatchIsOwn e.time (engineMachine.step s e).1 := by
  obtain ⟨L, life⟩ := s
  have hkept : ∀ {now : Nat}, t ≤ now → WatchIsOwn now (L, life) := fun hle =>
    ⟨Nat.le_trans hown.since hle, hown.past, hown.count, hown.moved⟩
  have hnew : ∀ (now : Nat) (M : Listener), WatchIsOwn now (M, EngineLife.opened now) :=
    fun now M => watchIsOwn_unpolled (Nat.le_refl now) rfl
  cases e with
  | serve now cfg fits a =>
      show WatchIsOwn now (if L.opened then L else _, if L.opened then life else _)
      split
      · exact hkept htime
      · exact hnew now _
  | reopenRate now hz fits a =>
      show WatchIsOwn now (if L.opened then _ else L, if L.opened then _ else life)
      split
      · exact hnew now _
      · exact hkept htime
  | reopenRole now role fits a =>
      show WatchIsOwn now (if L.opened then _ else L, if L.opened then _ else life)
      split
      · exact hnew now _
      · exact hkept htime
  | drop now =>
      show WatchIsOwn now (if L.opened then listenerDropped L else L, life)
      split
      · exact ⟨(hkept htime).since, hown.past, hown.count, hown.moved⟩
      · exact hkept htime
  | poll now obs => exact (poll_isOwn hown htime hfirst).1

/-- **A drop by the empty-master rule is the running engine's own**, in every run whose
first polls of an engine overwrite another engine's watch. -/
theorem empty_master_drops_own_engine (life₀ : EngineLife) (run : List EngineEvent)
    (e : EngineEvent)
    (hclock : StepMachine.Clocked EngineEvent.time life₀.courtingSince (run ++ [e]))
    (hfirst : engineMachine.Guarded NotAnotherEngines (.zeroed, life₀) (run ++ [e])) :
    DropsOwnEngine (engineMachine.after (.zeroed, life₀) run) e := by
  obtain ⟨hrun, hlast⟩ := StepMachine.clocked_concat_le run _ e hclock
  obtain ⟨hguard, hnow⟩ := (StepMachine.guarded_concat _ _ _ _ _).mp hfirst
  have hstart : WatchIsOwn life₀.courtingSince (Listener.zeroed, life₀) :=
    watchIsOwn_closed (Nat.le_refl _) rfl
  have hown := engineMachine.invariant_clocked engineStep_isOwn run _ _ hstart hrun hguard
  cases e with
  | poll now obs => exact (poll_isOwn hown hlast hnow).2
  | _ => exact True.intro

/-! ### A rate change on an enrolled segment -/

/-- A box that enrolled and left: the watch that saw it drops the listener. -/
theorem empty_master_drops_own_engine_enrolled :
    DropsOwnEngine
      (engineMachine.after (.zeroed, .opened 0)
        [.serve 1000000000 (segmentCfg "enp1s0" .master) true (opensAt 96000),
          .poll 1200000000 (some ⟨0, false⟩), .poll 3000000000 (some ⟨40, true⟩)])
      (.poll 20000000000 (some ⟨90, false⟩)) :=
  empty_master_drops_own_engine (.opened 0) _ _ (by decide) (by decide)

/-- The same box, and a rate change while it is enrolled: the new engine is dropped on
its first poll for what the old one was. -/
theorem rate_change_undone_by_old_watch :
    ¬ DropsOwnEngine
      (engineMachine.after (.zeroed, .opened 0)
        [.serve 1000000000 (segmentCfg "enp1s0" .master) true (opensAt 96000),
          .poll 1200000000 (some ⟨0, false⟩), .poll 3000000000 (some ⟨40, true⟩),
          .reopenRate 10000000000 48000 true (opensAt 48000)])
      (.poll 10000000000 (some ⟨0, false⟩)) := by
  intro hown
  obtain ⟨o, ho, -, hseen | hquiet⟩ := hown (by decide)
  · exact absurd hseen (by decide)
  · obtain rfl := Option.some.inj ho
    exact absurd hquiet (by decide)

end ReacPw
