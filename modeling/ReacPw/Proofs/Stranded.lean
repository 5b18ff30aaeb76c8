/-
No segment is stranded, in the runs that drop none without a word.

An interface in SEGMENT is *answered* when an event about it is queued, a serve
last, or when none is and it has an opened listener or is switched off.  Every act
of the daemon but four keeps the segments answered, and for one reason: whatever
closes a listener either tells the interface table, which takes the interface out
of SEGMENT, or serves it again at once, and a serve that does not come up tells the
table itself.

The four are an in-place re-open that does not come up, a trunk's verdict on a
segment that is served, the conf switching a segment on again after its serve was
passed over, and a link that comes back inside its hold to a listener closed in it.
A run is guarded at these.
-/
import ReacPw.HearingPoll

namespace ReacPw

section
variable {σ : Type*} {n : Nat} (S : IfScan σ)

/-- The verb of the last event queued about an interface's segment. -/
def lastQueued (s : σ) (name : String) : Option IfVerb :=
  ((S.events s).filter (IfEvent.about name)).getLast?.map (·.verb)

/-- An opened listener is on the interface. -/
def ServedOn (h : Hearing σ n) (name : String) : Prop :=
  ∃ i, serves (h.listeners i) name = true

/-- The segment is being seen to. -/
def Answered (h : Hearing σ n) (name : String) : Prop :=
  lastQueued S h.scan name = some .serve ∨
    (lastQueued S h.scan name = none ∧ (ServedOn h name ∨ h.ignored name = true))

/-- The hearing runs and every segment is answered. -/
structure SegmentsAnswered (h : Hearing σ n) : Prop where
  enabled : h.enabled = true
  answered : ∀ name, S.state h.scan name = .segment → Answered S h name

/-- The interface has its listener, or a serve or drop of it is queued, or it is switched
off. -/
def NotStranded (h : Hearing σ n) (name : String) : Prop :=
  (hearingListener h name).isSome = true ∨ (∃ e ∈ S.events h.scan, e.about name = true) ∨
    h.ignored name = true

instance (h : Hearing σ n) (name : String) : Decidable (NotStranded S h name) :=
  inferInstanceAs (Decidable (_ ∨ _ ∨ _))

/-- Every interface in SEGMENT. -/
def NoSegmentStranded (h : Hearing σ n) : Prop :=
  ∀ name, S.state h.scan name = .segment → NotStranded S h name

/-! ### The queue -/

theorem lastQueued_append (s s' : σ) (extra : List IfEvent) (name : String)
    (hevents : S.events s' = S.events s ++ extra)
    (hextra : ∀ e ∈ extra, e.about name = false) : lastQueued S s' name = lastQueued S s name := by
  have hnone : extra.filter (IfEvent.about name) = [] := by
    rw [List.filter_eq_nil_iff]
    intro e he
    rw [hextra e he]
    exact Bool.false_ne_true
  unfold lastQueued
  rw [hevents, List.filter_append, hnone, List.append_nil]

theorem about_listen (name k : String) : IfEvent.about k ⟨.listen, name⟩ = false := by
  simp [IfEvent.about]

theorem about_self {name : String} {e : IfEvent} (habout : e.about name = true) :
    e.name = name ∧ (e.verb = .serve ∨ e.verb = .drop) := by
  simpa [IfEvent.about] using habout

/-- A serve queued now is the last word about its interface. -/
theorem lastQueued_serve (s s' : σ) (name : String)
    (hevents : S.events s' = S.events s ++ [⟨.serve, name⟩]) :
    lastQueued S s' name = some .serve := by
  have habout : IfEvent.about name ⟨.serve, name⟩ = true := by simp [IfEvent.about]
  unfold lastQueued
  rw [hevents, List.filter_append, List.filter_cons_of_pos habout, List.filter_nil,
    List.getLast?_concat]
  rfl

theorem lastQueued_mem {s : σ} {name : String} {verb : IfVerb}
    (hlast : lastQueued S s name = some verb) : ∃ e ∈ S.events s, e.about name = true := by
  obtain ⟨e, he, -⟩ := Option.map_eq_some_iff.mp hlast
  have hmem := List.mem_of_getLast? he
  exact ⟨e, (List.mem_filter.mp hmem).1, (List.mem_filter.mp hmem).2⟩

/-- An event popped was the last word only if no other is about its interface. -/
theorem lastQueued_pop {s s' : σ} {e : IfEvent} (hevents : S.events s = e :: S.events s')
    (name : String) :
    lastQueued S s name =
      if e.about name then some ((lastQueued S s' name).getD e.verb) else lastQueued S s' name := by
  unfold lastQueued
  rw [hevents]
  cases habout : e.about name with
  | false =>
      rw [List.filter_cons_of_neg (by simp [habout]), if_neg Bool.false_ne_true]
  | true =>
      rw [List.filter_cons_of_pos habout, if_pos rfl]
      cases hrest : (S.events s').filter (IfEvent.about name) with
      | nil => rfl
      | cons f more =>
          rw [List.getLast?_cons_cons]
          simp [List.getLast?_cons]

/-! ### What an act keeps of one interface -/

/-- If the interface is still a segment, nothing was queued about it or read of it. -/
def SaidNothing (h h' : Hearing σ n) (name : String) : Prop :=
  S.state h'.scan name = .segment →
    S.state h.scan name = .segment ∧ lastQueued S h'.scan name = lastQueued S h.scan name ∧
      h'.ignored name = h.ignored name

/-- And if it was served, it is. -/
def SegmentKept (h h' : Hearing σ n) (name : String) : Prop :=
  SaidNothing S h h' name ∧
    (S.state h'.scan name = .segment → ServedOn h name → ServedOn h' name)

/-- The interface asks for no listener now. -/
def Waived (h : Hearing σ n) (name : String) : Prop :=
  S.state h.scan name ≠ .segment ∨ lastQueued S h.scan name = some .serve ∨ h.ignored name = true

/-- A re-open in place of a segment that asks for its listener comes up. -/
def ReopenComesUp (speed : String → Nat) (h : Hearing σ n) (i : Fin n)
    (change : ListenerCfg → ListenerCfg) (a : SlotAnswers n) : Prop :=
  ∀ name ∈ (h.listeners i).cfg.source,
    Waived S h name ∨ ((slotReopen S speed h i change a).listeners i).opened = true

/-- The act strands nothing. -/
def StrandsNothing (speed : String → Nat) (h : Hearing σ n) : HearAct n → Prop
  | .slotTick i ifaceLost a =>
      match slotAsked h i ifaceLost a with
      | .reopenRole role => ReopenComesUp S speed h i (roleChange role) a
      | .reopenRate hz => ReopenComesUp S speed h i (rateChange hz) a
      | _ => True
  | .trunk name => Waived S h name ∨ hearingListener h name = none
  | .confEdit ignored => ∀ name, S.state h.scan name = .segment → h.ignored name = true →
      ignored name = false → lastQueued S h.scan name = some .serve ∨ ServedOn h name
  | .drain bytes now => ∀ name, S.state h.scan name = .hold →
      S.state (S.drain h.scan bytes now) name = .segment → Answered S h name
  | _ => True

variable {S}

theorem segmentKept_refl (h : Hearing σ n) (name : String) : SegmentKept S h h name :=
  ⟨fun hseg => ⟨hseg, rfl, rfl⟩, fun _ hon => hon⟩

theorem saidNothing_trans {h h' h'' : Hearing σ n} {name : String}
    (hfirst : SaidNothing S h h' name) (hrest : SaidNothing S h' h'' name) :
    SaidNothing S h h'' name := by
  intro hseg
  obtain ⟨hseg', hlast', hign'⟩ := hrest hseg
  obtain ⟨hseg'', hlast'', hign''⟩ := hfirst hseg'
  exact ⟨hseg'', hlast'.trans hlast'', hign'.trans hign''⟩

theorem segmentKept_trans {h h' h'' : Hearing σ n} {name : String}
    (hfirst : SegmentKept S h h' name) (hrest : SegmentKept S h' h'' name) :
    SegmentKept S h h'' name := by
  refine ⟨saidNothing_trans hfirst.1 hrest.1, fun hseg hon => ?_⟩
  exact hrest.2 hseg (hfirst.2 (hrest.1 hseg).1 hon)

/-- What is kept of a segment keeps it answered. -/
theorem answered_of_kept {h h' : Hearing σ n} {name : String} (hkept : SegmentKept S h h' name)
    (hans : S.state h.scan name = .segment → Answered S h name)
    (hseg : S.state h'.scan name = .segment) : Answered S h' name := by
  obtain ⟨hseg', hlast, hign⟩ := hkept.1 hseg
  unfold Answered
  rw [hlast, hign]
  rcases hans hseg' with hserve | ⟨hnone, hon⟩
  · exact Or.inl hserve
  · exact Or.inr ⟨hnone, hon.imp_left (hkept.2 hseg)⟩

/-- An interface that asked for no listener may lose it. -/
theorem answered_of_waived {h h' : Hearing σ n} {name : String}
    (hsaid : SaidNothing S h h' name) (hwaived : Waived S h name)
    (hans : S.state h.scan name = .segment → Answered S h name)
    (hseg : S.state h'.scan name = .segment) : Answered S h' name := by
  obtain ⟨hseg', hlast, hign⟩ := hsaid hseg
  unfold Answered
  rw [hlast, hign]
  rcases hwaived with hout | hserve | hignored
  · exact absurd hseg' hout
  · exact Or.inl hserve
  · rcases hans hseg' with hserve | ⟨hnone, -⟩
    · exact Or.inl hserve
    · exact Or.inr ⟨hnone, Or.inr hignored⟩

/-- A table whose every segment is kept has every segment answered. -/
theorem segmentsAnswered_kept {h h' : Hearing σ n} (hinv : SegmentsAnswered S h)
    (hen : h'.enabled = h.enabled) (hkept : ∀ k, SegmentKept S h h' k) : SegmentsAnswered S h' :=
  ⟨hen.trans hinv.enabled, fun k => answered_of_kept (hkept k) (hinv.answered k)⟩

/-- The queue says what it said. -/
theorem answered_scan {h : Hearing σ n} {scan : σ} {name : String}
    (hlast : lastQueued S scan name = lastQueued S h.scan name) (hans : Answered S h name) :
    Answered S { h with scan := scan } name := by
  rcases hans with hserve | ⟨hnone, hon⟩
  · exact Or.inl (hlast.trans hserve)
  · exact Or.inr ⟨hlast.trans hnone, hon⟩

/-- The world's own moves queue nothing about a segment and close nothing. -/
theorem moved_answered {h : Hearing σ n} {before : List IfState} {scan : σ}
    (hmoved : S.Moved before h.scan scan) (hinv : SegmentsAnswered S h)
    (hback : ∀ name, S.state h.scan name ∈ before → S.state scan name = .segment →
      S.state h.scan name = .segment ∨ Answered S h name) :
    SegmentsAnswered S { h with scan := scan } := by
  obtain ⟨extra, hevents, hseg⟩ := hmoved
  refine ⟨hinv.enabled, fun name hname => ?_⟩
  obtain ⟨hbefore, hextra⟩ := hseg name hname
  refine answered_scan (lastQueued_append S _ _ extra name hevents hextra) ?_
  rcases hback name hbefore hname with hsegment | hans
  · exact hinv.answered name hsegment
  · exact hans

theorem hearingListener_servedOn {h : Hearing σ n} (hen : h.enabled = true) (name : String) :
    (hearingListener h name).isSome = true ↔ ServedOn h name := by
  constructor
  · intro hsome
    obtain ⟨i, hi⟩ := Option.isSome_iff_exists.mp hsome
    exact ⟨i, (hearingListener_some hi).2⟩
  · rintro ⟨i, hi⟩
    cases hfound : hearingListener h name with
    | some j => rfl
    | none =>
        rw [hearingListener_none hen hfound i] at hi
        exact absurd hi Bool.false_ne_true

/-- An opened listener is on one interface. -/
theorem serves_name {L : Listener} {name k : String} (hname : serves L name = true)
    (hk : serves L k = true) : k = name := by
  unfold serves at hname hk
  simp only [Bool.and_eq_true, beq_iff_eq] at hname hk
  exact Option.some.inj (hk.2.symm.trans hname.2)

/-! ### The interface of a slot that is opened -/

/-- A serve that came up serves its interface. -/
theorem listenerServe_serves {cfg : ListenerCfg} {fits : Bool} {a : OpenAnswers} {name : String}
    (hsource : cfg.source = some name) (hserved : (listenerServe cfg fits a).2 = true) :
    serves (listenerServe cfg fits a).1 name = true := by
  rcases listenerServe_cases cfg fits a with hzeroed | ⟨M, feeds, hup, hres⟩
  · rw [hzeroed] at hserved
    exact absurd hserved Bool.false_ne_true
  · rw [hres]
    have hname : M.cfg.source = some name := (listenerUp_source hup).trans hsource
    simp [serves, hname]

/-- A re-open that came up is on the interface it was on. -/
theorem listenerReopen_serves {L : Listener} {change : ListenerCfg → ListenerCfg} {fits : Bool}
    {a : OpenAnswers} {name : String} (hchange : ∀ c, (change c).source = c.source)
    (hopened : (listenerReopen L change fits a).opened = true)
    (hserves : serves L name = true) : serves (listenerReopen L change fits a) name = true := by
  rcases listenerReopen_cases L change fits a with hclosed | ⟨M, hup, hres⟩
  · rw [hclosed] at hopened
    exact absurd hopened Bool.false_ne_true
  · have hname : M.cfg.source = some name := by
      rw [listenerUp_source hup]
      show (change (if L.opened then listenerClose L else L).cfg).source = some name
      rw [hchange]
      unfold serves at hserves
      simp only [Bool.and_eq_true, beq_iff_eq] at hserves
      rw [if_pos hserves.1]
      exact hserves.2
    rw [hres]
    simp [serves, hname]

/-- A slot that is closed when its open asks for admission is closed after. -/
theorem slotAdmitted_closed (speed : String → Nat) {h : Hearing σ n} {i : Fin n}
    (a : SlotAnswers n) (hclosed : (h.listeners i).opened = false) :
    ((slotAdmitted S speed h i a).1.listeners i).opened = false := by
  rcases slotAdmitted_slot S speed h i a i with hkept | ⟨-, hdropped⟩
  · rw [hkept, hclosed]
  · rw [hdropped]
    rfl

/-! ### Closing a slot, and saying so -/

theorem setSlot_saidNothing (h : Hearing σ n) (i : Fin n) (L : Listener) (name : String) :
    SaidNothing S h (h.setSlot i L) name :=
  fun hseg => ⟨hseg, rfl, rfl⟩

/-- Another listener in a slot keeps every interface the slot was not serving. -/
theorem setSlot_kept (h : Hearing σ n) (i : Fin n) (L : Listener) {name : String}
    (hslot : serves (h.listeners i) name = true → serves L name = true) :
    SegmentKept S h (h.setSlot i L) name := by
  refine ⟨setSlot_saidNothing h i L name, ?_⟩
  rintro - ⟨j, hj⟩
  by_cases hji : j = i
  · subst hji
    exact ⟨j, by rw [setSlot_same]; exact hslot hj⟩
  · exact ⟨j, by rw [setSlot_ne _ _ hji]; exact hj⟩

theorem setSlot_closed_kept (h : Hearing σ n) (i : Fin n) (L : Listener) (name : String)
    (hclosed : (h.listeners i).opened = false) : SegmentKept S h (h.setSlot i L) name := by
  refine setSlot_kept h i L fun hserves => ?_
  rw [serves, hclosed, Bool.false_and] at hserves
  exact absurd hserves Bool.false_ne_true

theorem hearingDrop_saidNothing (h : Hearing σ n) (name k : String) :
    SaidNothing S h (hearingDrop h name) k := by
  intro hseg
  rw [hearingDrop_scan] at hseg ⊢
  exact ⟨hseg, rfl, by rw [hearingDrop_ignored]⟩

/-- A drop touches one interface. -/
theorem hearingDrop_kept (h : Hearing σ n) {name k : String} (hk : k ≠ name) :
    SegmentKept S h (hearingDrop h name) k := by
  rcases hearingDrop_cases h name with ⟨-, hres⟩ | ⟨i, hserves, hres⟩
  · rw [hres]
    exact segmentKept_refl h k
  · rw [hres]
    exact setSlot_kept h i _ fun hk' => absurd (serves_name hserves hk') hk

/-- What follows a drop answers for the interface that was dropped. -/
theorem kept_of_dropped {h h' : Hearing σ n} {name : String}
    (hrest : ∀ k, SegmentKept S (hearingDrop h name) h' k)
    (hname : S.state h'.scan name = .segment → ServedOn h' name) (k : String) :
    SegmentKept S h h' k := by
  by_cases hk : k = name
  · subst hk
    refine ⟨saidNothing_trans (hearingDrop_saidNothing h k k) (hrest k).1, fun hseg _ => ?_⟩
    exact hname hseg
  · exact segmentKept_trans (hearingDrop_kept h hk) (hrest k)

variable (hlawful : S.Lawful)
include hlawful

/-- A failed serve is said of one interface, which is a segment no more. -/
theorem serveFailed_kept (h : Hearing σ n) (name : String) (now : Nat) (k : String) :
    SegmentKept S h (h.serveFailed S name now) k := by
  obtain ⟨hout, hothers, hevents⟩ := hlawful.serveFailed h.scan name now
  refine ⟨fun hseg => ?_, fun _ hon => hon⟩
  have hk : k ≠ name := by
    rintro rfl
    exact hout hseg
  have hseg' : S.state h.scan k = .segment := (hothers k hk).symm.trans hseg
  have hlast : lastQueued S (S.serveFailed h.scan name now) k = lastQueued S h.scan k := by
    rcases hevents with hsame | hlisten
    · exact lastQueued_append S _ _ [] k (by rw [hsame, List.append_nil]) (by simp)
    · refine lastQueued_append S _ _ _ k hlisten fun e he => ?_
      obtain rfl := List.mem_singleton.mp he
      exact about_listen name k
  exact ⟨hseg', hlast, rfl⟩

theorem serveFailed_out (h : Hearing σ n) (name : String) (now : Nat) :
    S.state (h.serveFailed S name now).scan name ≠ .segment :=
  (hlawful.serveFailed h.scan name now).1

theorem hearingRehear_kept (h : Hearing σ n) (name : String) (now : Nat) (k : String) :
    SegmentKept S h (hearingRehear S h name now) k :=
  kept_of_dropped (serveFailed_kept hlawful _ name now)
    (fun hseg => absurd hseg (serveFailed_out hlawful _ name now)) k

theorem linkBudgetYield_kept (now : Nat) (k : String) :
    ∀ (names : List String) (h : Hearing σ n),
      SegmentKept S h (linkBudgetYield S h names now) k := by
  intro names
  induction names with
  | nil => exact fun h => segmentKept_refl h k
  | cons name rest ih =>
      intro h
      exact segmentKept_trans (hearingRehear_kept hlawful h name now k) (ih _)

/-! ### Opening a slot -/

variable (speed : String → Nat)

theorem slotAdmitted_kept (h : Hearing σ n) (i : Fin n) (a : SlotAnswers n) (k : String) :
    SegmentKept S h (slotAdmitted S speed h i a).1 k :=
  linkBudgetYield_kept hlawful a.now k _ h

/-- **A serve leaves no segment behind**: it serves its interface, or says that it did not. -/
theorem hearingServe_kept (h : Hearing σ n) {name : String} {cfg : ListenerCfg}
    (a : SlotAnswers n) (hsource : cfg.source = some name) :
    (∀ k, SegmentKept S h (hearingServe S speed h name cfg a) k) ∧
    (S.state (hearingServe S speed h name cfg a).scan name = .segment →
      ServedOn (hearingServe S speed h name cfg a) name) := by
  unfold hearingServe
  split
  · -- a segment that is already served
    rename_i hfound
    obtain ⟨i, hi⟩ := Option.isSome_iff_exists.mp hfound
    exact ⟨segmentKept_refl h, fun _ => ⟨i, (hearingListener_some hi).2⟩⟩
  · cases hfree : freeSlot h with
    | none =>
        exact ⟨serveFailed_kept hlawful h name a.now,
          fun hseg => absurd hseg (serveFailed_out hlawful h name a.now)⟩
    | some i =>
        dsimp only
        have hbare : ∀ k, SegmentKept S h (h.setSlot i { Listener.zeroed with cfg := cfg }) k :=
          fun k => setSlot_closed_kept h i _ k (freeSlot_some hfree)
        have hclosed := slotAdmitted_closed (S := S) speed a
          (h := h.setSlot i { Listener.zeroed with cfg := cfg }) (i := i)
          (by rw [setSlot_same]; rfl)
        generalize hr : slotAdmitted S speed (h.setSlot i { Listener.zeroed with cfg := cfg }) i a
          = r at hclosed ⊢
        have hadmitted : ∀ k, SegmentKept S h r.1 k := fun k =>
          segmentKept_trans (hbare k) (hr ▸ slotAdmitted_kept hlawful speed _ i a k)
        have hslot : ∀ L k, SegmentKept S h (r.1.setSlot i L) k := fun L k =>
          segmentKept_trans (hadmitted k) (setSlot_closed_kept r.1 i L k hclosed)
        split
        · rename_i hserved
          refine ⟨hslot _, fun _ => ⟨i, ?_⟩⟩
          rw [setSlot_same]
          exact listenerServe_serves hsource hserved
        · refine ⟨fun k => segmentKept_trans (hslot _ k) (serveFailed_kept hlawful _ name a.now k),
            fun hseg => absurd hseg (serveFailed_out hlawful _ name a.now)⟩

theorem hearingReserve_kept (h : Hearing σ n) (name : String) (hunt : Hunt) (s : ServeArgs n)
    (k : String) : SegmentKept S h (hearingReserve S speed h name hunt s) k :=
  have hserve := hearingServe_kept hlawful speed (hearingDrop h name) s.answers
    (serveCfg_source name s.conf (some hunt) s.forcedRate)
  kept_of_dropped hserve.1 hserve.2 k

/-- A re-open in place says nothing of any interface, and keeps the one it is on when it
comes up. -/
theorem slotReopen_kept (h : Hearing σ n) (i : Fin n) {change : ListenerCfg → ListenerCfg}
    (a : SlotAnswers n) (hchange : ∀ c, (change c).source = c.source) (k : String) :
    SaidNothing S h (slotReopen S speed h i change a) k ∧
    ((serves (h.listeners i) k = true →
        ((slotReopen S speed h i change a).listeners i).opened = true) →
      SegmentKept S h (slotReopen S speed h i change a) k) := by
  unfold slotReopen
  dsimp only
  have hclosed := slotAdmitted_closed (S := S) speed a
    (h := h.setSlot i (listenerReopening (h.listeners i) change)) (i := i)
    (by rw [setSlot_same]; rfl)
  have hyields := slotAdmitted_kept hlawful speed
    (h.setSlot i (listenerReopening (h.listeners i) change)) i a k
  generalize slotAdmitted S speed (h.setSlot i (listenerReopening (h.listeners i) change)) i a = r
    at hclosed hyields ⊢
  have hsaid : SaidNothing S h
      (r.1.setSlot i (listenerReopen (h.listeners i) change r.2 a.open_)) k :=
    saidNothing_trans (setSlot_saidNothing h i _ k)
      (saidNothing_trans hyields.1 (setSlot_saidNothing r.1 i _ k))
  refine ⟨hsaid, fun hup => ⟨hsaid, fun hseg hon => ?_⟩⟩
  by_cases hslot : serves (h.listeners i) k = true
  · have hopened := hup hslot
    rw [setSlot_same] at hopened
    refine ⟨i, ?_⟩
    rw [setSlot_same]
    exact listenerReopen_serves hchange hopened hslot
  · -- the interface is on another slot, if on any
    have hbare : SegmentKept S h
        (h.setSlot i (listenerReopening (h.listeners i) change)) k :=
      setSlot_kept h i _ fun hserves => absurd hserves hslot
    have hdone := setSlot_closed_kept (S := S) r.1 i
      (listenerReopen (h.listeners i) change r.2 a.open_) k hclosed
    exact (segmentKept_trans hbare (segmentKept_trans hyields hdone)).2 hseg hon

/-! ### One act -/

theorem slotReopen_answered {h : Hearing σ n} {i : Fin n} {change : ListenerCfg → ListenerCfg}
    {a : SlotAnswers n} (hchange : ∀ c, (change c).source = c.source)
    (hup : ReopenComesUp S speed h i change a) (hinv : SegmentsAnswered S h) :
    SegmentsAnswered S (slotReopen S speed h i change a) := by
  refine ⟨?_, fun k hseg => ?_⟩
  · show (slotAdmitted S speed _ i a).1.enabled = true
    rw [slotAdmitted_enabled]
    exact hinv.enabled
  · obtain ⟨hsaid, hkept⟩ := slotReopen_kept hlawful speed h i a hchange k
    by_cases hslot : serves (h.listeners i) k = true
    · have hsource : k ∈ (h.listeners i).cfg.source := by
        unfold serves at hslot
        simp only [Bool.and_eq_true, beq_iff_eq] at hslot
        exact hslot.2
      rcases hup k hsource with hwaived | hopened
      · exact answered_of_waived hsaid hwaived (hinv.answered k) hseg
      · exact answered_of_kept (hkept fun _ => hopened) (hinv.answered k) hseg
    · exact answered_of_kept (hkept fun hserves => absurd hserves hslot) (hinv.answered k) hseg

theorem slotTick_answered {h : Hearing σ n} {i : Fin n} {ifaceLost : Bool} {a : SlotAnswers n}
    (hclean : StrandsNothing S speed h (.slotTick i ifaceLost a)) (hinv : SegmentsAnswered S h) :
    SegmentsAnswered S (slotTick S speed h i ifaceLost a) := by
  dsimp only [StrandsNothing] at hclean
  unfold slotTick
  cases hasked : slotAsked h i ifaceLost a with
  | reclassify role =>
      exact segmentsAnswered_kept hinv (hearingDrop_enabled h _)
        (hearingRehear_kept hlawful h _ a.now)
  | reopenRole role =>
      rw [hasked] at hclean
      exact slotReopen_answered hlawful speed (fun _ => rfl) hclean hinv
  | reopenRate hz =>
      rw [hasked] at hclean
      exact slotReopen_answered hlawful speed (fun _ => rfl) hclean hinv
  | _ => exact hinv

/-- What was heard is queued to be served. -/
theorem heard_answered {h : Hearing σ n} (name : String) (now : Nat)
    (hinv : SegmentsAnswered S h) :
    SegmentsAnswered S { h with scan := S.heard h.scan name now } := by
  refine ⟨hinv.enabled, fun k hseg => ?_⟩
  rcases hlawful.heard h.scan name now with ⟨hevents, hstate⟩ | ⟨-, -, hothers, hevents⟩
  · have hlast : lastQueued S (S.heard h.scan name now) k = lastQueued S h.scan k :=
      lastQueued_append S _ _ [] k (by rw [hevents, List.append_nil]) (by simp)
    exact answered_scan hlast (hinv.answered k ((hstate k).symm.trans hseg))
  · by_cases hk : k = name
    · subst hk
      exact Or.inl (lastQueued_serve S _ _ k hevents)
    · have hlast : lastQueued S (S.heard h.scan name now) k = lastQueued S h.scan k := by
        refine lastQueued_append S _ _ _ k hevents fun e he => ?_
        obtain rfl := List.mem_singleton.mp he
        have hne : (name == k) = false := beq_eq_false_iff_ne.mpr (Ne.symm hk)
        rw [IfEvent.about, hne, Bool.false_and]
      exact answered_scan hlast (hinv.answered k ((hothers k hk).symm.trans hseg))

/-- What a popped event leaves to be said of a segment. -/
theorem popped_answered {h : Hearing σ n} {e : IfEvent} {scan : σ}
    (hnext : S.next h.scan = some (e, scan)) (hinv : SegmentsAnswered S h) (k : String)
    (hseg : S.state scan k = .segment) :
    lastQueued S scan k = some .serve ∨
    (e.about k = false ∧ Answered S { h with scan := scan } k) ∨
    (e.name = k ∧ e.verb = .serve ∧ lastQueued S scan k = none) := by
  obtain ⟨hevents, hstate⟩ := hlawful.next_some h.scan e scan hnext
  have hans := hinv.answered k ((hstate k).symm.trans hseg)
  have hpop := lastQueued_pop S hevents k
  cases habout : e.about k with
  | false =>
      rw [habout, if_neg Bool.false_ne_true] at hpop
      exact Or.inr (Or.inl ⟨rfl, answered_scan hpop.symm hans⟩)
  | true =>
      rw [habout, if_pos rfl] at hpop
      rcases hans with hserve | ⟨hnone, -⟩
      · rw [hpop] at hserve
        cases hrest : lastQueued S scan k with
        | some verb =>
            rw [hrest] at hserve
            exact Or.inl hserve
        | none =>
            rw [hrest] at hserve
            exact Or.inr (Or.inr ⟨(about_self habout).1, Option.some.inj hserve, rfl⟩)
      · rw [hpop] at hnone
        exact absurd hnone (by simp)

/-- **Popping an event**: a serve is carried out, passed over for a segment that is
switched off, or says that it was not; a drop is never a segment's last word. -/
theorem hearingApply_answered {h : Hearing σ n} (hunt : Option Hunt) (s : ServeArgs n)
    (hinv : SegmentsAnswered S h) : SegmentsAnswered S (hearingApply S speed h hunt s) := by
  unfold hearingApply
  cases hnext : S.next h.scan with
  | none => exact hinv
  | some popped =>
      obtain ⟨e, scan⟩ := popped
      have hrest := popped_answered hlawful hnext hinv
      dsimp only
      cases hverb : e.verb with
      | serve =>
          dsimp only
          split
          · -- passed over
            rename_i hignored
            refine ⟨hinv.enabled, fun k hseg => ?_⟩
            rcases hrest k hseg with hserve | ⟨-, hans⟩ | ⟨hname, -, hnone⟩
            · exact Or.inl hserve
            · exact hans
            · exact Or.inr ⟨hnone, Or.inr (hname ▸ hignored)⟩
          · obtain ⟨hkept, hserved⟩ := hearingServe_kept hlawful speed { h with scan := scan }
              s.answers (serveCfg_source e.name s.conf hunt s.forcedRate)
            refine ⟨(hearingServe_enabled S speed _ _ _ _).trans hinv.enabled,
              fun k hseg => ?_⟩
            obtain ⟨hseg', hlast, -⟩ := (hkept k).1 hseg
            rcases hrest k hseg' with hserve | ⟨-, hans⟩ | ⟨rfl, -, hnone⟩
            · exact Or.inl (hlast.trans hserve)
            · exact answered_of_kept (hkept k) (fun _ => hans) hseg
            · exact Or.inr ⟨hlast.trans hnone, Or.inl (hserved hseg)⟩
      | drop =>
          refine ⟨(hearingDrop_enabled _ _).trans hinv.enabled, fun k hseg => ?_⟩
          obtain ⟨hseg', hlast, -⟩ :=
            hearingDrop_saidNothing (S := S) { h with scan := scan } e.name k hseg
          rcases hrest k hseg' with hserve | ⟨habout, hans⟩ | ⟨-, hserve, -⟩
          · exact Or.inl (hlast.trans hserve)
          · have hk : k ≠ e.name := by
              rintro rfl
              simp [IfEvent.about, hverb] at habout
            exact answered_of_kept (hearingDrop_kept _ hk) (fun _ => hans) hseg
          · rw [hverb] at hserve
            exact absurd hserve (by decide)
      | _ =>
          refine ⟨hinv.enabled, fun k hseg => ?_⟩
          rcases hrest k hseg with hserve | ⟨-, hans⟩ | ⟨-, hserve, -⟩
          · exact Or.inl hserve
          · exact hans
          · rw [hverb] at hserve
            exact absurd hserve (by decide)

theorem hearStep_answered (h : Hearing σ n) (act : HearAct n) (hinv : SegmentsAnswered S h)
    (hclean : StrandsNothing S speed h act) : SegmentsAnswered S (hearStep S speed h act) := by
  cases act with
  | slotTick i ifaceLost a => exact slotTick_answered hlawful speed hclean hinv
  | ifaceGone i now =>
      show SegmentsAnswered S (if _ then _ else h)
      split
      · refine moved_answered (hlawful.gone _ _ now) hinv fun name hbefore _ => Or.inl ?_
        exact List.mem_singleton.mp hbefore
      · exact hinv
  | hunt name now =>
      show SegmentsAnswered S (if _ then _ else h)
      split
      · exact heard_answered hlawful name now hinv
      · exact hinv
  | join i hunt s =>
      dsimp only [hearStep]
      split
      · exact hinv
      · split
        · exact segmentsAnswered_kept hinv (hearingReserve_enabled S speed h _ hunt s)
            (hearingReserve_kept hlawful speed h _ hunt s)
        · exact hinv
  | reevaluate i now =>
      dsimp only [hearStep]
      split
      · exact hinv
      · split
        · exact segmentsAnswered_kept hinv (hearingDrop_enabled h _)
            (hearingRehear_kept hlawful h _ now)
        · exact hinv
  | rehearEmpty i now obs =>
      dsimp only [hearStep]
      split
      · exact segmentsAnswered_kept hinv (hearingDrop_enabled h _)
          (hearingRehear_kept hlawful h _ now)
      · rename_i hkeeps
        refine segmentsAnswered_kept hinv rfl fun k => setSlot_kept h i _ fun hserves => ?_
        obtain ⟨hopened, hcfg⟩ := rehearEmptyMaster_stays (by simpa using hkeeps)
        rw [serves, hopened, hcfg]
        exact hserves
  | yield v now =>
      dsimp only [hearStep]
      split
      · exact hinv
      · split
        · exact hinv
        · exact segmentsAnswered_kept hinv (hearingReserve_enabled S speed h _ v.hunt v.serve)
            (hearingReserve_kept hlawful speed h _ v.hunt v.serve)
  | scanTick now =>
      refine moved_answered (hlawful.tick _ now) hinv fun name hbefore _ => Or.inl ?_
      exact List.mem_singleton.mp hbefore
  | apply hunt s => exact hearingApply_answered hlawful speed hunt s hinv
  | trunk name =>
      refine ⟨(hearingDrop_enabled h name).trans hinv.enabled, fun k hseg => ?_⟩
      by_cases hk : k = name
      · subst hk
        have hsaid := hearingDrop_saidNothing (S := S) h k k
        rcases hclean with hwaived | hnone
        · exact answered_of_waived hsaid hwaived (hinv.answered k) hseg
        · have hsame : hearingDrop h k = h := by
            unfold hearingDrop
            rw [hnone]
          have hseg' : S.state (hearingDrop h k).scan k = .segment := hseg
          show Answered S (hearingDrop h k) k
          rw [hsame] at hseg' ⊢
          exact hinv.answered k hseg'
      · exact answered_of_kept (hearingDrop_kept h hk) (hinv.answered k) hseg
  | write i w =>
      dsimp only [hearStep]
      split
      · refine segmentsAnswered_kept hinv rfl fun k => setSlot_kept h i _ fun hserves => ?_
        rw [serves, (listenerWrite_shape _ w).1, (listenerWrite_shape _ w).2]
        exact hserves
      · exact hinv
  | drain bytes now =>
      refine moved_answered (hlawful.drain _ bytes now) hinv fun name hbefore hseg => ?_
      rcases List.mem_cons.mp hbefore with hsegment | hhold
      · exact Or.inl hsegment
      · exact Or.inr (hclean name (List.mem_singleton.mp hhold) hseg)
  | confEdit ignored =>
      refine ⟨hinv.enabled, fun k hseg => ?_⟩
      rcases hinv.answered k hseg with hserve | ⟨hnone, hon | hignored⟩
      · exact Or.inl hserve
      · exact Or.inr ⟨hnone, Or.inl hon⟩
      · cases hnow : ignored k with
        | true => exact Or.inr ⟨hnone, Or.inr hnow⟩
        | false =>
            rcases hclean k hseg hignored hnow with hserve | hon
            · exact Or.inl hserve
            · exact Or.inr ⟨hnone, Or.inl hon⟩

/-! ### A whole run -/

/-- **No segment is stranded**, in any run that strands none. -/
theorem no_segment_stranded (h : Hearing σ n) (hen : h.enabled = true)
    (hstart : ∀ name, S.state h.scan name ≠ .segment) (run : List (HearAct n))
    (hclean : (hearMachine S speed).Guarded (StrandsNothing S speed) h run) :
    NoSegmentStranded S ((hearMachine S speed).after h run) := by
  have hinv := (hearMachine S speed).invariant_guarded (hearStep_answered hlawful speed) run h
    ⟨hen, fun k hk => absurd hk (hstart k)⟩ hclean
  intro name hseg
  rcases hinv.answered name hseg with hserve | ⟨-, hon | hignored⟩
  · exact Or.inr (Or.inl (lastQueued_mem S hserve))
  · exact Or.inl ((hearingListener_servedOn hinv.enabled name).mpr hon)
  · exact Or.inr (Or.inr hignored)

end

/-! ### One interface, served and re-opened -/

/-- A hearing with one slot and one interface with link. -/
def oneLinkedInterface : Hearing ScanTable 1 :=
  { enabled := true, listeners := fun _ => .zeroed
    scan := { ifs := [("enp1s0", .linked)], queue := [] }, ignored := fun _ => false }

def boxHunt : Hunt :=
  { verdict := .master, role := .master, boxRival := false, defersAsTap := false,
    heardAnything := true }

def slotAnswers (rate now : Nat) : SlotAnswers 1 :=
  { facts := fun _ => { heard := true, pastProbing := true, recognizedBox := true }
    open_ := opensAt rate, now := now }

/-- A turn on which nothing happens, its slot's opens coming up at that rate. -/
def quietTurn (rate now : Nat) : TimerTurn 1 :=
  { now := now, ifaceLost := fun _ => false, answers := fun _ => slotAnswers rate now
    hunts := [], rivals := fun _ => none, followsNobody := fun _ => false
    engines := fun _ => none, verdicts := [], events := [], trunks := [] }

/-- The turn on which the interface is heard and served. -/
def servingTurn : TimerTurn 1 :=
  { quietTurn 48000 1000000000 with
    hunts := ["enp1s0"]
    events := [(some boxHunt,
      { conf := segmentCfg "enp1s0" .master, forcedRate := 0
        answers := slotAnswers 48000 1000000000 })] }

/-- It is served at 48 kHz and re-opened in place at 96 kHz. -/
def rateChangedRun : List (HearAct 1) :=
  timerTurn servingTurn ++ [.write ⟨0, Nat.one_pos⟩ (.rate 96000 true)] ++
    timerTurn (quietTurn 96000 1200000000)

theorem oneLinkedInterface_start (name : String) :
    scanTable.state oneLinkedInterface.scan name ≠ .segment := by
  show (List.lookup name [("enp1s0", IfState.linked)]).getD .absent ≠ .segment
  rw [List.lookup_cons]
  split
  · decide
  · rw [List.lookup_nil]
    decide

theorem no_segment_stranded_rate :
    NoSegmentStranded scanTable
      ((hearMachine scanTable (fun _ => 0)).after oneLinkedInterface rateChangedRun) := by
  refine no_segment_stranded scanTable_lawful (fun _ => 0) oneLinkedInterface rfl
    oneLinkedInterface_start rateChangedRun ?_
  have hup : ReopenComesUp scanTable (fun _ => 0)
      ((hearMachine scanTable (fun _ => 0)).after oneLinkedInterface
        (timerTurn servingTurn ++ [.write ⟨0, Nat.one_pos⟩ (.rate 96000 true)])) 0
      (rateChange 96000)
      (slotAnswers 96000 1200000000) := fun _ _ => Or.inr (by decide)
  exact ⟨trivial, trivial, trivial, trivial, trivial, trivial, hup, trivial, trivial, trivial⟩

/-- A trunk's verdict closes the listener of a served interface, and the turns after it
find nothing to do. -/
def trunkRun : List (HearAct 1) :=
  timerTurn servingTurn ++ timerTurn { quietTurn 48000 1200000000 with trunks := ["enp1s0"] } ++
    timerTurn (quietTurn 48000 1400000000) ++ timerTurn (quietTurn 48000 9000000000)

theorem segment_stranded_by_trunk :
    ¬ NoSegmentStranded scanTable
      ((hearMachine scanTable (fun _ => 0)).after oneLinkedInterface trunkRun) := by
  intro hall
  exact absurd (hall "enp1s0" (by decide)) (by decide)

end ReacPw
