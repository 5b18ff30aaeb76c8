/-
The knock's sender is open for a knock and for nothing else, and its timer is armed at the
knock's next frame unless a frame was heard in a rest.

Four things share the wire's state: the socket's callback, the poll, the ladder's poll and
the timer.  The invariant is `HandsSound`: an open sender is on a knocking wire that nobody
pinned, and an armed timer is an open sender's.  So nothing goes out but from the timer's
callback, on such a wire (`hands_only_knock`).

The timer is armed again by everything that moves the knock's next frame, but for one.  A
frame heard after a silence ends the knock's rest at once, and only evidence is followed by
arming.  `hands_timely_iff` is exactly that.
-/
import ReacPw.KnockHands
import ReacPw.Proofs.KnockWire

namespace ReacPw

open Loop

section
variable {μ κ : Type*} (A : MasterApi μ) (K : LicenceApi κ) (isControl : Frame → Bool)

/-! ### What the wire's calls do to the knock -/

/-- A frame heard now is the first after a silence. -/
def AfterSilence (w : ReacKnockWire μ κ) (now : Nat) : Prop :=
  w.lastHeardNs = 0 ∨ K.listenNs ≤ now - w.lastHeardNs

/-- A resting knock is due when its rest is over. -/
def RestDue (w : ReacKnockWire μ κ) : Prop :=
  w.state = .knocking → w.resting = true → w.dueNs = w.nextNs

/-- What a frame that does not hush leaves of the knock. -/
structure Heeded (w w' : ReacKnockWire μ κ) (now : Nat) : Prop where
  state : w'.state = w.state
  resting : w'.resting = w.resting
  heard : w.state = .trunk ∨ w'.lastHeardNs = now
  cut : w.state = .knocking → w.resting = true → AfterSilence K w now →
    w'.nextNs = now ∧ w'.dueNs = now
  whole : ¬ (w.state = .knocking ∧ w.resting = true ∧ AfterSilence K w now) →
    w'.nextNs = w.nextNs ∧ w'.dueNs = w.dueNs

theorem heardSilence_heeded (w : ReacKnockWire μ κ) (now : Nat) :
    Heeded K w (heardSilence K w now) now := by
  unfold heardSilence
  by_cases hafter : w.lastHeardNs = 0 ∨ K.listenNs ≤ now - w.lastHeardNs
  · by_cases hrest : w.state = .knocking ∧ w.resting = true
    · simp only [hafter, if_true, hrest, and_self]
      exact ⟨hrest.1.symm, hrest.2.symm, Or.inr rfl, fun _ _ _ => ⟨rfl, rfl⟩,
        fun hno => absurd ⟨hrest.1, hrest.2, hafter⟩ hno⟩
    · simp only [hafter, if_true, hrest, if_false]
      exact ⟨rfl, rfl, Or.inr rfl, fun hk hr _ => absurd ⟨hk, hr⟩ hrest, fun _ => ⟨rfl, rfl⟩⟩
  · simp only [hafter, if_false]
    exact ⟨rfl, rfl, Or.inr rfl, fun _ _ hno => absurd hno hafter, fun _ => ⟨rfl, rfl⟩⟩

theorem heardKeep_same (w : ReacKnockWire μ κ) (frame : Option Frame) :
    (heardKeep isControl w frame).state = w.state ∧
      (heardKeep isControl w frame).resting = w.resting ∧
      (heardKeep isControl w frame).lastHeardNs = w.lastHeardNs ∧
      (heardKeep isControl w frame).nextNs = w.nextNs ∧
      (heardKeep isControl w frame).dueNs = w.dueNs := by
  unfold heardKeep
  cases frame with
  | none => exact ⟨rfl, rfl, rfl, rfl, rfl⟩
  | some f =>
      simp only
      split
      · exact ⟨rfl, rfl, rfl, rfl, rfl⟩
      · exact ⟨rfl, rfl, rfl, rfl, rfl⟩

theorem heardEvidence_hush {w : ReacKnockWire μ κ} (frame : Option Frame) {evidence : Bool}
    (h : w.state = .knocking ∧ evidence = true) :
    (heardEvidence w frame evidence).2 = .hush ∧
      (heardEvidence w frame evidence).1.state = .answered := by
  unfold heardEvidence
  rw [if_pos h]
  exact ⟨rfl, rfl⟩

theorem heardEvidence_none {w : ReacKnockWire μ κ} {frame : Option Frame} {evidence : Bool}
    (h : ¬ (w.state = .knocking ∧ evidence = true)) :
    heardEvidence w frame evidence = (w, .none) := by
  unfold heardEvidence
  rw [if_neg h]

/-- **What a frame can do**: evidence hushes a knock; anything else leaves it as it is, but
for a rest that a silence's end cuts short. -/
theorem heard_cases (w : ReacKnockWire μ κ) (now : Nat) (frame : Option Frame)
    (evidence : Bool) :
    (w.state = .knocking ∧ evidence = true ∧
      (reacKnockWireHeard K isControl w now frame evidence).2 = .hush ∧
      (reacKnockWireHeard K isControl w now frame evidence).1.state = .answered) ∨
    (¬ (w.state = .knocking ∧ evidence = true) ∧
      (reacKnockWireHeard K isControl w now frame evidence).2 = .none ∧
      Heeded K w (reacKnockWireHeard K isControl w now frame evidence).1 now) := by
  by_cases htrunk : w.state = .trunk
  · refine Or.inr ⟨fun hk => by simp [htrunk] at hk, ?_, ?_⟩
    · rw [reacKnockWireHeard, if_pos htrunk]
    · have hidle : ¬ w.state = .knocking := by
        rw [htrunk]
        decide
      rw [reacKnockWireHeard, if_pos htrunk]
      exact ⟨rfl, rfl, Or.inl htrunk, fun hk => absurd hk hidle, fun _ => ⟨rfl, rfl⟩⟩
  obtain ⟨w', hw'⟩ : ∃ w', w' = { heardSilence K w now with
      licence := K.heard (heardSilence K w now).licence now } := ⟨_, rfl⟩
  have hheard : reacKnockWireHeard K isControl w now frame evidence =
      (heardKeep isControl (heardEvidence w' frame evidence).1 frame,
        (heardEvidence w' frame evidence).2) := by
    rw [reacKnockWireHeard, if_neg htrunk, hw']
  have hs := heardSilence_heeded K w now
  have hsame : Heeded K w w' now := by
    rw [hw']
    exact ⟨hs.state, hs.resting, hs.heard, hs.cut, hs.whole⟩
  rw [hheard]
  obtain ⟨kstate, kresting, kheard, knext, kdue⟩ :=
    heardKeep_same isControl (heardEvidence w' frame evidence).1 frame
  by_cases hev : w'.state = .knocking ∧ evidence = true
  · obtain ⟨hact, hstate⟩ := heardEvidence_hush frame hev
    exact Or.inl ⟨hsame.state ▸ hev.1, hev.2, hact, kstate.trans hstate⟩
  · have hno : ¬ (w.state = .knocking ∧ evidence = true) := hsame.state ▸ hev
    rw [heardEvidence_none hev] at kstate kresting kheard knext kdue ⊢
    refine Or.inr ⟨hno, rfl, ?_⟩
    exact ⟨kstate.trans hsame.state, kresting.trans hsame.resting,
      hsame.heard.imp_right kheard.trans,
      fun hk hr ha => ⟨knext.trans (hsame.cut hk hr ha).1, kdue.trans (hsame.cut hk hr ha).2⟩,
      fun hq => ⟨knext.trans (hsame.whole hq).1, kdue.trans (hsame.whole hq).2⟩⟩

theorem Heeded.restDue {w w' : ReacKnockWire μ κ} {now : Nat} (h : Heeded K w w' now)
    (hw : RestDue w) : RestDue w' := by
  intro hk hr
  rw [h.state] at hk
  rw [h.resting] at hr
  by_cases hafter : AfterSilence K w now
  · obtain ⟨hnext, hdue⟩ := h.cut hk hr hafter
    rw [hnext, hdue]
  · obtain ⟨hnext, hdue⟩ := h.whole fun hall => hafter hall.2.2
    rw [hnext, hdue, hw hk hr]

theorem knockPeek_restDue (w : ReacKnockWire μ κ) : RestDue (knockPeek A w) := by
  intro _ hr
  unfold knockPeek at hr ⊢
  by_cases hrest : w.resting = true
  · rw [if_pos hrest]
  · rw [if_neg hrest] at hr
    exact absurd hr hrest

theorem knockPeek_state (w : ReacKnockWire μ κ) : (knockPeek A w).state = w.state := by
  unfold knockPeek
  split <;> rfl

/-- A run on the way of a wire that is knocking, on every slot so far. -/
structure KnockingRun (r : KnockRun μ κ) : Prop where
  now : r.wire.state = .knocking
  stepped : ∀ s : SlotStep μ κ, KnockEvent.stepped s ∈ r.log → s.wire.state = .knocking

theorem runTurn_knocking {r : KnockRun μ κ} (now : Nat) (send : Nat → Frame → Bool)
    (h : KnockingRun r) : KnockingRun (runTurn A now send r).1 := by
  refine runTurn_keeps A (I := KnockingRun) ?_ ?_ ?_ h
  · intro r hr _ _
    exact ⟨(knockPeek_state A _).trans hr.now, hr.stepped⟩
  · intro r hr _ _
    refine ⟨(knockPeek_state A _).trans hr.now, fun s hs => ?_⟩
    rcases List.mem_cons.mp hs with hopened | hold
    · cases hopened
    · exact hr.stepped s hold
  · intro r hr _ _ _
    obtain ⟨ht, handed, left, hlog, -⟩ := sendSlot_taken A now send r
    refine ⟨ht.state.trans hr.now, fun s hs => ?_⟩
    rw [hlog] at hs
    rcases List.mem_cons.mp hs with hnew | hold
    · cases hnew
      exact hr.now
    · exact hr.stepped s hold

/-- A run leaves the wire in its state, and what it steps through it steps through there. -/
theorem reacKnockWireRun_knocking {fuel now : Nat} {w : ReacKnockWire μ κ}
    {send : Nat → Frame → Bool} {r : KnockRun μ κ}
    (h : reacKnockWireRun A fuel w now send = some r) (hw : RestDue w) :
    r.wire.state = w.state ∧ RestDue r.wire ∧
      ∀ s : SlotStep μ κ, KnockEvent.stepped s ∈ r.log → s.wire.state = .knocking := by
  unfold reacKnockWireRun at h
  by_cases hquiet : w.state ≠ .knocking ∨ w.fps = 0
  · rw [if_pos hquiet] at h
    obtain rfl := Option.some.inj h
    exact ⟨rfl, hw, by simp⟩
  · rw [if_neg hquiet] at h
    obtain ⟨out, hloop, rfl⟩ := Option.map_eq_some_iff.mp h
    have hknocking : w.state = .knocking := not_not.mp fun hno => hquiet (Or.inl hno)
    have hout := (loop_exit (fun r hr => runTurn_knocking A now send hr) fuel { wire := w } out
      ⟨hknocking, by simp⟩ hloop).1
    exact ⟨(knockPeek_state A _).trans (hout.now.trans hknocking.symm), knockPeek_restDue A _,
      hout.stepped⟩

/-! ### The sniffer's invariant -/

/-- An open sender is a knocking wire's that nobody pinned, and an armed timer is an open
sender's. -/
structure HandsSound (sn : KnockSniffer μ κ) : Prop where
  opened : sn.txOpen = true → sn.kw.state = .knocking ∧ sn.watchSilence = true
  watch : sn.watchSilence = true → sn.pinned = false ∧ sn.tapPinned = false
  armed : sn.armed ≠ none → sn.timer = true ∧ sn.txOpen = true
  rest : RestDue sn.kw

/-- The timer is armed at the knock's next frame. -/
def Timely (sn : KnockSniffer μ κ) : Prop := sn.timer = true → sn.armed = wantedAt sn

theorem wantedAt_open {sn : KnockSniffer μ κ} (h : wantedAt sn ≠ none) :
    sn.txOpen = true ∧ sn.kw.state = .knocking := by
  unfold wantedAt at h
  split at h
  · rename_i hwanted
    exact ⟨hwanted.1, hwanted.2.1⟩
  · exact absurd rfl h

/-- A resting knock's timer is for the end of its rest. -/
theorem wantedAt_rest {sn : KnockSniffer μ κ} (hopen : sn.txOpen = true)
    (hk : sn.kw.state = .knocking) (hrest : sn.kw.dueNs = sn.kw.nextNs) :
    wantedAt sn = if sn.kw.nextNs ≠ 0 then some sn.kw.nextNs else none := by
  unfold wantedAt
  rw [hrest]
  simp only [hopen, hk, true_and]

/-- Arming makes the timer right. -/
theorem knockArm_sound {s : KnockSniffer μ κ}
    (hopened : s.txOpen = true → s.kw.state = .knocking ∧ s.watchSilence = true)
    (hwatch : s.watchSilence = true → s.pinned = false ∧ s.tapPinned = false)
    (harmed : s.armed ≠ none → s.timer = true) (hrest : RestDue s.kw) :
    HandsSound (knockArm s) ∧ Timely (knockArm s) := by
  unfold knockArm
  by_cases htimer : s.timer = true
  · rw [if_pos htimer]
    exact ⟨⟨hopened, hwatch, fun hne => ⟨htimer, (wantedAt_open hne).1⟩, hrest⟩, fun _ => rfl⟩
  · rw [if_neg htimer]
    exact ⟨⟨hopened, hwatch, fun hne => absurd (harmed hne) htimer, hrest⟩,
      fun ht => absurd ht htimer⟩

theorem knockStop_sound {s : KnockSniffer μ κ}
    (hwatch : s.watchSilence = true → s.pinned = false ∧ s.tapPinned = false)
    (harmed : s.armed ≠ none → s.timer = true) (hrest : RestDue s.kw) :
    HandsSound (knockStop s) ∧ Timely (knockStop s) :=
  knockArm_sound (fun hopen => by simp at hopen) hwatch harmed hrest

theorem knockStop_closed (sn : KnockSniffer μ κ) : (knockStop sn).txOpen = false := by
  unfold knockStop knockArm
  split <;> rfl

/-- Without a sender there is nothing to be late with. -/
theorem timely_of_closed {sn : KnockSniffer μ κ} (h : HandsSound sn) (hclosed : sn.txOpen = false) :
    Timely sn := by
  intro _
  have hnone : sn.armed = none := by
    by_contra hne
    have hopen := (h.armed hne).2
    rw [hclosed] at hopen
    cases hopen
  rw [hnone, wantedAt, if_neg (by simp [hclosed])]

/-! ### A batch of frames -/

/-- What a batch leaves: a knock hushed, or the sniffer as it was but for what the wire
heard. -/
structure Quiet (sn sn' : KnockSniffer μ κ) (now : Nat) (frames : List HeardFrame) : Prop where
  same : sn' = { sn with kw := sn'.kw }
  state : sn'.kw.state = sn.kw.state
  resting : sn'.kw.resting = sn.kw.resting
  rest : RestDue sn'.kw
  cut : frames ≠ [] → sn.kw.state = .knocking → sn.kw.resting = true → AfterSilence K sn.kw now →
    sn'.kw.nextNs = now ∧ sn'.kw.dueNs = now
  whole : frames = [] ∨
      ¬ (sn.kw.state = .knocking ∧ sn.kw.resting = true ∧ AfterSilence K sn.kw now) →
    sn'.kw.nextNs = sn.kw.nextNs ∧ sn'.kw.dueNs = sn.kw.dueNs

/-- A frame of evidence on a knocking wire. -/
def Hushes (sn : KnockSniffer μ κ) (frames : List HeardFrame) : Prop :=
  sn.kw.state = .knocking ∧ ∃ f ∈ frames, f.evidence = true

/-- A frame that does not hush. -/
theorem drainFrame_quiet (now : Nat) {f : HeardFrame} {sn : KnockSniffer μ κ}
    (hquiet : ¬ (sn.kw.state = .knocking ∧ f.evidence = true)) :
    ∃ w, drainFrame K isControl now sn f = { sn with kw := w } ∧ Heeded K sn.kw w now := by
  obtain ⟨hk, he, -⟩ | ⟨-, hact, hheeded⟩ :=
    heard_cases K isControl sn.kw now (some f.frame) f.evidence
  · exact absurd ⟨hk, he⟩ hquiet
  · refine ⟨_, ?_, hheeded⟩
    have hno : ¬ (KnockWireAct.none = .hush) := by decide
    simp only [drainFrame, hact, hno, if_false]

/-- A frame that hushes. -/
theorem drainFrame_hush (now : Nat) {f : HeardFrame} {sn : KnockSniffer μ κ}
    (hhush : sn.kw.state = .knocking ∧ f.evidence = true) :
    ∃ w : ReacKnockWire μ κ, w.state = .answered ∧
      drainFrame K isControl now sn f = knockStop { sn with kw := w } := by
  obtain ⟨-, -, hact, hstate⟩ | ⟨hno, -⟩ :=
    heard_cases K isControl sn.kw now (some f.frame) f.evidence
  · exact ⟨_, hstate, by simp only [drainFrame, hact, if_true]⟩
  · exact absurd hhush hno

theorem HandsSound.heeded {now : Nat} {sn : KnockSniffer μ κ} {w : ReacKnockWire μ κ}
    (h : HandsSound sn) (hw : Heeded K sn.kw w now) : HandsSound { sn with kw := w } :=
  ⟨fun ho => ⟨hw.state.trans (h.opened ho).1, (h.opened ho).2⟩, h.watch, h.armed,
    hw.restDue K h.rest⟩

theorem drainFrame_sound (now : Nat) {f : HeardFrame} {sn : KnockSniffer μ κ}
    (h : HandsSound sn) : HandsSound (drainFrame K isControl now sn f) := by
  by_cases hhush : sn.kw.state = .knocking ∧ f.evidence = true
  · obtain ⟨w, hstate, hstep⟩ := drainFrame_hush K isControl now hhush
    rw [hstep]
    refine (knockStop_sound (s := { sn with kw := w }) h.watch (fun hne => (h.armed hne).1)
      fun hk => ?_).1
    rw [hstate] at hk
    cases hk
  · obtain ⟨w, hstep, hw⟩ := drainFrame_quiet K isControl now hhush
    rw [hstep]
    exact h.heeded K hw

theorem drainFrame_closed (now : Nat) {f : HeardFrame} {sn : KnockSniffer μ κ}
    (hclosed : sn.txOpen = false) : (drainFrame K isControl now sn f).txOpen = false := by
  by_cases hhush : sn.kw.state = .knocking ∧ f.evidence = true
  · obtain ⟨w, -, hstep⟩ := drainFrame_hush K isControl now hhush
    rw [hstep]
    exact knockStop_closed _
  · obtain ⟨w, hstep, -⟩ := drainFrame_quiet K isControl now hhush
    rw [hstep]
    exact hclosed

theorem snifferDrain_sound (now : Nat) (frames : List HeardFrame) :
    ∀ {sn : KnockSniffer μ κ}, HandsSound sn →
      HandsSound (snifferDrain K isControl now sn frames) := by
  induction frames with
  | nil => intro sn h; exact h
  | cons f frames ih => intro sn h; exact ih (drainFrame_sound K isControl now h)

theorem snifferDrain_closed (now : Nat) (frames : List HeardFrame) :
    ∀ {sn : KnockSniffer μ κ}, sn.txOpen = false →
      (snifferDrain K isControl now sn frames).txOpen = false := by
  induction frames with
  | nil => intro sn h; exact h
  | cons f frames ih => intro sn h; exact ih (drainFrame_closed K isControl now h)

/-- **A batch without an answer** leaves the sniffer as it is, and of the knock all but a
rest that it cuts short. -/
theorem snifferDrain_quiet {now : Nat} (hnow : now ≠ 0) (frames : List HeardFrame) :
    ∀ {sn : KnockSniffer μ κ}, HandsSound sn → ¬ Hushes sn frames →
      Quiet K sn (snifferDrain K isControl now sn frames) now frames := by
  induction frames with
  | nil =>
      intro sn h _
      exact ⟨rfl, rfl, rfl, h.rest, fun hne => absurd rfl hne, fun _ => ⟨rfl, rfl⟩⟩
  | cons f frames ih =>
      intro sn h hquiet
      obtain ⟨w, hstep, hw⟩ := drainFrame_quiet K isControl now (f := f)
        fun hk => hquiet ⟨hk.1, f, List.mem_cons_self .., hk.2⟩
      have hquiet' : ¬ Hushes { sn with kw := w } frames := by
        rintro ⟨hk, g, hg, he⟩
        exact hquiet ⟨hw.state.symm.trans hk, g, List.mem_cons_of_mem _ hg, he⟩
      have hrest := ih (h.heeded K hw) hquiet'
      have hfold : snifferDrain K isControl now sn (f :: frames) =
          snifferDrain K isControl now { sn with kw := w } frames := by
        rw [snifferDrain, List.foldl_cons, hstep]
        rfl
      rw [hfold]
      -- A frame of the same batch follows no silence: it was heard at the same time.
      have hagain : sn.kw.state = .knocking → ¬ AfterSilence K sn.kw now →
          ¬ AfterSilence K w now := by
        rintro hk hno (hzero | hlong)
        · rcases hw.heard with htrunk | hheard
          · rw [hk] at htrunk
            cases htrunk
          · exact hnow (hheard.symm.trans hzero)
        · rcases hw.heard with htrunk | hheard
          · rw [hk] at htrunk
            cases htrunk
          · rw [hheard, Nat.sub_self] at hlong
            exact hno (Or.inr (Nat.le_trans hlong (Nat.zero_le _)))
      refine ⟨hrest.same, hrest.state.trans hw.state, hrest.resting.trans hw.resting,
        hrest.rest, ?_, ?_⟩
      · intro _ hk hr hafter
        obtain ⟨hnext, hdue⟩ := hw.cut hk hr hafter
        by_cases hmore : frames ≠ [] ∧ AfterSilence K w now
        · exact hrest.cut hmore.1 (hw.state.trans hk) (hw.resting.trans hr) hmore.2
        · have hstill := hrest.whole (by
            by_cases hnil : frames = []
            · exact Or.inl hnil
            · exact Or.inr fun hall => hmore ⟨hnil, hall.2.2⟩)
          exact ⟨hstill.1.trans hnext, hstill.2.trans hdue⟩
      · rintro (hnil | hno)
        · cases hnil
        · obtain ⟨hnext, hdue⟩ := hw.whole hno
          have hstill := hrest.whole (Or.inr fun hall => by
            have hk := hw.state.symm.trans hall.1
            have hsilent : ¬ AfterSilence K sn.kw now := fun hafter =>
              hno ⟨hk, hw.resting.symm.trans hall.2.1, hafter⟩
            exact hagain hk hsilent hall.2.2)
          exact ⟨hstill.1.trans hnext, hstill.2.trans hdue⟩

/-- **A batch with an answer closes the sender.** -/
theorem snifferDrain_answered (now : Nat) (frames : List HeardFrame) :
    ∀ {sn : KnockSniffer μ κ}, Hushes sn frames →
      (snifferDrain K isControl now sn frames).txOpen = false := by
  induction frames with
  | nil => rintro sn ⟨-, f, hf, -⟩; simp at hf
  | cons f frames ih =>
      rintro sn ⟨hk, g, hg, he⟩
      by_cases hhush : f.evidence = true
      · obtain ⟨w, -, hstep⟩ := drainFrame_hush K isControl now ⟨hk, hhush⟩
        refine snifferDrain_closed K isControl now frames ?_
        rw [hstep]
        exact knockStop_closed _
      · obtain ⟨w, hstep, hw⟩ := drainFrame_quiet K isControl now (f := f)
          fun hall => hhush hall.2
        rcases List.mem_cons.mp hg with rfl | hg
        · exact absurd he hhush
        · have hk' : (drainFrame K isControl now sn f).kw.state = .knocking := by
            rw [hstep]
            exact hw.state.trans hk
          exact ih ⟨hk', g, hg, he⟩

/-- A batch that ends a rest early, and is no answer: the knock's next frame moves, and
nothing arms the timer again. -/
structure CutsRest (sn : KnockSniffer μ κ) (now : Nat) (frames : List HeardFrame) : Prop where
  timer : sn.timer = true
  opened : sn.txOpen = true
  resting : sn.kw.resting = true
  some : frames ≠ []
  silence : AfterSilence K sn.kw now
  early : sn.kw.nextNs ≠ now
  unanswered : ∀ f ∈ frames, f.evidence = false

/-- **After a batch the timer is right, unless the batch cut a rest short.** -/
theorem snifferDrain_timely_iff {now : Nat} (hnow : now ≠ 0) (frames : List HeardFrame)
    {sn : KnockSniffer μ κ} (h : HandsSound sn) (ht : Timely sn) :
    Timely (snifferDrain K isControl now sn frames) ↔ ¬ CutsRest K sn now frames := by
  by_cases hanswered : Hushes sn frames
  · have hclosed := snifferDrain_answered K isControl now frames hanswered
    have hsound := snifferDrain_sound K isControl now frames h
    refine iff_of_true (timely_of_closed hsound hclosed) fun hc => ?_
    obtain ⟨-, f, hf, he⟩ := hanswered
    rw [hc.unanswered f hf] at he
    cases he
  · have hq := snifferDrain_quiet K isControl hnow frames h hanswered
    have hsound := snifferDrain_sound K isControl now frames h
    obtain ⟨sn', hsn'⟩ : ∃ s, s = snifferDrain K isControl now sn frames := ⟨_, rfl⟩
    rw [← hsn'] at hq hsound ⊢
    have htimer : sn'.timer = sn.timer := by rw [hq.same]
    have harmed : sn'.armed = sn.armed := by rw [hq.same]
    have hopened : sn'.txOpen = sn.txOpen := by rw [hq.same]
    by_cases htx : sn.timer = true ∧ sn.txOpen = true
    · obtain ⟨hk, -⟩ := h.opened htx.2
      have hwas := ht htx.1
      by_cases hcut : frames ≠ [] ∧ sn.kw.resting = true ∧ AfterSilence K sn.kw now
      · obtain ⟨hne, hr, hafter⟩ := hcut
        obtain ⟨-, hdue⟩ := hq.cut hne hk hr hafter
        have hwanted : wantedAt sn' = some now := by
          rw [wantedAt, if_pos ⟨hopened.trans htx.2, hq.state.trans hk, hdue ▸ hnow⟩, hdue]
        rw [wantedAt_rest htx.2 hk (h.rest hk hr)] at hwas
        constructor
        · intro htimely hc
          have hsame := htimely (htimer.trans htx.1)
          rw [harmed, hwas, hwanted] at hsame
          split at hsame
          · exact hc.early (Option.some.inj hsame)
          · cases hsame
        · intro hno _
          have hnext : sn.kw.nextNs = now := by
            by_contra hearly
            refine hno ⟨htx.1, htx.2, hr, hne, hafter, hearly, fun f hf => ?_⟩
            by_contra he
            exact hanswered ⟨hk, f, hf, eq_true_of_ne_false he⟩
          rw [harmed, hwas, hwanted, hnext, if_pos hnow]
      · -- The knock's next frame is where it was.
        have hdue : sn'.kw.dueNs = sn.kw.dueNs := by
          refine (hq.whole ?_).2
          by_cases hne : frames = []
          · exact Or.inl hne
          · exact Or.inr fun hall => hcut ⟨hne, hall.2⟩
        refine iff_of_true (fun _ => ?_) fun hc => hcut ⟨hc.some, hc.resting, hc.silence⟩
        rw [harmed, hwas, wantedAt, wantedAt, hopened, hq.state, hdue]
    · refine iff_of_true ?_ fun hc => htx ⟨hc.timer, hc.opened⟩
      by_cases hopen : sn.txOpen = true
      · exact fun htm => absurd ⟨htimer.symm.trans htm, hopen⟩ htx
      · exact timely_of_closed hsound (by rw [hopened]; exact eq_false_of_ne_true hopen)

/-! ### The poll, the timer and the rest -/

/-- What the poll's step does to a wire nobody pinned and that is no trunk. -/
theorem step_listening (w : ReacKnockWire μ κ) {pinned : Bool} (hpinned : pinned = false)
    (now : Nat) :
    ((reacKnockWireStep A K w pinned now false).2 = .knock ∧ w.state ≠ .knocking ∧
      (reacKnockWireStep A K w pinned now false).1.state = .knocking ∧
      RestDue (reacKnockWireStep A K w pinned now false).1) ∨
    ((reacKnockWireStep A K w pinned now false).2 ≠ .knock ∧ w.state ≠ .knocking ∧
      (reacKnockWireStep A K w pinned now false).1.state ≠ .knocking) ∨
    (w.state = .knocking ∧ reacKnockWireStep A K w pinned now false = (w, .none)) := by
  unfold reacKnockWireStep
  subst hpinned
  rw [if_neg Bool.false_ne_true, if_neg Bool.false_ne_true]
  by_cases htrunk : w.state = .trunk
  · rw [if_pos htrunk, htrunk]
    exact Or.inr (Or.inl ⟨by simp, by decide, by simp [backoffReset]⟩)
  rw [if_neg htrunk]
  by_cases hk : w.state = .knocking
  · rw [if_pos hk]
    exact Or.inr (Or.inr ⟨hk, rfl⟩)
  rw [if_neg hk]
  by_cases hdrive : (K.step w.licence now).2 = true
  · simp only [hdrive, if_true]
    exact Or.inl ⟨trivial, hk, knockPeek_state A _, knockPeek_restDue A _⟩
  · simp only [hdrive]
    exact Or.inr (Or.inl ⟨by simp, hk, hk⟩)

/-- A wire taken for a trunk does not knock. -/
theorem step_trunk (w : ReacKnockWire μ κ) (pinned : Bool) (now : Nat) :
    (reacKnockWireStep A K w pinned now true).1.state = .trunk ∧
      ((reacKnockWireStep A K w pinned now true).2 = .trunk ∨
        w.state = .trunk ∧ (reacKnockWireStep A K w pinned now true).1 = w) := by
  unfold reacKnockWireStep
  rw [if_pos rfl]
  by_cases htrunk : w.state = .trunk
  · rw [if_pos htrunk]
    exact ⟨htrunk, Or.inr ⟨htrunk, rfl⟩⟩
  · rw [if_neg htrunk]
    exact ⟨rfl, Or.inl rfl⟩

theorem HandsSound.closed {sn : KnockSniffer μ κ} (h : HandsSound sn)
    (hidle : sn.kw.state ≠ .knocking) : sn.txOpen = false := by
  by_contra hopen
  exact hidle (h.opened (eq_true_of_ne_false hopen)).1

/-- A closed sniffer's wire may be anything that rests as it should. -/
theorem HandsSound.idle {sn : KnockSniffer μ κ} {w : ReacKnockWire μ κ} (h : HandsSound sn)
    (hclosed : sn.txOpen = false) (hw : RestDue w) : HandsSound { sn with kw := w } :=
  ⟨fun ho => absurd ho (by simp [hclosed]), h.watch, h.armed, hw⟩

theorem restDue_of_idle {w : ReacKnockWire μ κ} (h : w.state ≠ .knocking) : RestDue w :=
  fun hk => absurd hk h

theorem knockStart_sound {s : KnockSniffer μ κ} (opens timerOk : Bool) (h : HandsSound s)
    (hk : s.kw.state = .knocking) (hwatch : s.watchSilence = true) :
    HandsSound (knockStart s opens timerOk) ∧
      (s.txOpen = false → Timely (knockStart s opens timerOk)) := by
  unfold knockStart
  by_cases hfails : (!s.txOpen && !opens) = true
  · rw [if_pos hfails]
    exact ⟨h, timely_of_closed h⟩
  · rw [if_neg hfails]
    have harm := knockArm_sound (s := { s with txOpen := true, timer := s.timer || timerOk })
      (fun _ => ⟨hk, hwatch⟩) h.watch (fun hne => by simp [(h.armed hne).1]) h.rest
    exact ⟨harm.1, fun _ => harm.2⟩

/-- What the poll leaves of a sniffer it has read dry: the same, or one whose timer is
right. -/
theorem hearingHuntKnock_cases (p : HuntPoll) {sn d : KnockSniffer μ κ}
    (hlinked : p.linked = true) (hd : snifferDrain K isControl p.drainedAt sn p.queued = d)
    (h : HandsSound d) :
    HandsSound (hearingHuntKnock A K isControl sn p) ∧
      ((p.trunkNow = false ∧ hearingHuntKnock A K isControl sn p = d) ∨
        Timely (hearingHuntKnock A K isControl sn p) ∧ (p.trunkNow = true ∨ d.txOpen = false)) := by
  unfold hearingHuntKnock
  simp only [hlinked, Bool.not_true, Bool.false_eq_true, if_false, hd]
  by_cases htrunk : p.trunkNow = true
  · rw [if_pos htrunk]
    by_cases hwatch : d.watchSilence = true
    · rw [if_neg (by simp [hwatch])]
      obtain ⟨hstate, hact | ⟨hwas, hsame⟩⟩ := step_trunk A K d.kw d.pinned p.now
      · rw [if_pos hact]
        have hstop := knockStop_sound
          (s := { d with kw := (reacKnockWireStep A K d.kw d.pinned p.now true).1 })
          h.watch (fun hne => (h.armed hne).1) (restDue_of_idle (by rw [hstate]; decide))
        exact ⟨hstop.1, Or.inr ⟨hstop.2, Or.inl htrunk⟩⟩
      · have hclosed := h.closed (by rw [hwas]; decide)
        rw [hsame]
        split
        · have hstop := knockStop_sound (s := { d with kw := d.kw })
            h.watch (fun hne => (h.armed hne).1) h.rest
          exact ⟨hstop.1, Or.inr ⟨hstop.2, Or.inl htrunk⟩⟩
        · exact ⟨h, Or.inr ⟨timely_of_closed h hclosed, Or.inl htrunk⟩⟩
    · rw [if_pos (by simp [hwatch])]
      have hclosed : d.txOpen = false := by
        by_contra hopen
        exact hwatch (h.opened (eq_true_of_ne_false hopen)).2
      exact ⟨h, Or.inr ⟨timely_of_closed h hclosed, Or.inl htrunk⟩⟩
  · rw [if_neg htrunk]
    have hoff := eq_false_of_ne_true htrunk
    by_cases hwaits : (p.waits || d.tapPinned || !d.watchSilence) = true
    · rw [if_pos hwaits]
      exact ⟨h, Or.inl ⟨hoff, rfl⟩⟩
    · rw [if_neg hwaits]
      have hwatch : d.watchSilence = true := by
        by_contra hno
        simp [hno] at hwaits
      obtain ⟨hact, hidle, hk, hrest⟩ | ⟨hact, hidle, hstill⟩ | ⟨hk, hsame⟩ :=
        step_listening A K d.kw (h.watch hwatch).1 p.now
      · have hclosed := h.closed hidle
        rw [if_pos hact]
        obtain ⟨w, hw⟩ : ∃ w, w =
            reacKnockWireSetHost (reacKnockWireStep A K d.kw d.pinned p.now false).1 p.hosts :=
          ⟨_, rfl⟩
        have hknocks : w.state = .knocking := hw ▸ hk
        have hrests : RestDue w := hw ▸ hrest
        rw [← hw]
        have hstart := knockStart_sound (s := { d with kw := w }) p.opens p.timerOk
          (h.idle hclosed hrests) hknocks hwatch
        exact ⟨hstart.1, Or.inr ⟨hstart.2 hclosed, Or.inr hclosed⟩⟩
      · have hclosed := h.closed hidle
        rw [if_neg hact]
        have hsound := h.idle hclosed (restDue_of_idle hstill)
        exact ⟨hsound, Or.inr ⟨timely_of_closed hsound hclosed, Or.inr hclosed⟩⟩
      · rw [hsame]
        exact ⟨h, Or.inl ⟨hoff, rfl⟩⟩

/-- A batch that cuts a rest short leaves the sender open. -/
theorem CutsRest.stays_open {now : Nat} {frames : List HeardFrame} {sn : KnockSniffer μ κ}
    (hc : CutsRest K sn now frames) (hnow : now ≠ 0) (h : HandsSound sn) :
    (snifferDrain K isControl now sn frames).txOpen = true := by
  have hunanswered : ¬ Hushes sn frames := by
    rintro ⟨-, f, hf, he⟩
    rw [hc.unanswered f hf] at he
    cases he
  rw [(snifferDrain_quiet K isControl hnow frames h hunanswered).same]
  exact hc.opened

theorem hearingHuntKnock_sound (p : HuntPoll) {sn : KnockSniffer μ κ} (h : HandsSound sn) :
    HandsSound (hearingHuntKnock A K isControl sn p) := by
  by_cases hlinked : p.linked = true
  · exact (hearingHuntKnock_cases A K isControl p hlinked rfl
      (snifferDrain_sound K isControl p.drainedAt p.queued h)).1
  · rw [hearingHuntKnock, if_pos (by simp [hlinked])]
    exact h

theorem hearingHuntKnock_timely_iff (p : HuntPoll) (hnow : p.drainedAt ≠ 0)
    {sn : KnockSniffer μ κ} (h : HandsSound sn) (ht : Timely sn) :
    Timely (hearingHuntKnock A K isControl sn p) ↔
      ¬ (p.linked = true ∧ p.trunkNow = false ∧ CutsRest K sn p.drainedAt p.queued) := by
  by_cases hlinked : p.linked = true
  · have hdry := snifferDrain_timely_iff K isControl hnow p.queued h ht
    obtain ⟨-, ⟨hoff, hsame⟩ | ⟨htimely, hwhy⟩⟩ := hearingHuntKnock_cases A K isControl p hlinked
      rfl (snifferDrain_sound K isControl p.drainedAt p.queued h)
    · rw [hsame, hdry]
      simp only [hlinked, hoff, true_and]
    · refine iff_of_true htimely ?_
      rintro ⟨-, hoff, hc⟩
      rcases hwhy with htrunk | hclosed
      · rw [hoff] at htrunk
        cases htrunk
      · rw [hc.stays_open K isControl hnow h] at hclosed
        cases hclosed
  · rw [hearingHuntKnock, if_pos (by simp [hlinked])]
    exact iff_of_true ht fun hc => hlinked hc.1

/-- What the timer's callback leaves, and what its knock did. -/
theorem onKnockTimer_sound {s : KnockSniffer μ κ} {now : Nat} {send : Nat → Frame → Bool}
    {r : KnockSniffer μ κ × List (KnockEvent μ κ)} (h : HandsSound s) (hidle : s.armed = none)
    (hr : onKnockTimer A s now send = some r) :
    HandsSound r.1 ∧ Timely r.1 ∧
      ∀ t : SlotStep μ κ, KnockEvent.stepped t ∈ r.2 → t.wire.state = .knocking := by
  unfold onKnockTimer at hr
  by_cases hclosed : s.txOpen = false
  · rw [if_pos (by simp [hclosed])] at hr
    obtain rfl := Option.some.inj hr
    exact ⟨h, timely_of_closed h hclosed, by simp⟩
  · rw [if_neg (by simpa using hclosed)] at hr
    obtain ⟨out, hrun, rfl⟩ := Option.map_eq_some_iff.mp hr
    obtain ⟨hstate, hrest, hstepped⟩ := reacKnockWireRun_knocking A hrun h.rest
    have hopened := h.opened (eq_true_of_ne_false hclosed)
    have harm := knockArm_sound (s := { s with kw := out.wire })
      (fun _ => ⟨hstate.trans hopened.1, hopened.2⟩) h.watch
      (fun hne => absurd hidle hne) hrest
    exact ⟨harm.1, harm.2, hstepped⟩

/-! ### The events -/

theorem reacKnockWireAnswerTaken_idle {w : ReacKnockWire μ κ} (hidle : w.state ≠ .knocking) :
    (reacKnockWireAnswerTaken w).state ≠ .knocking := by
  unfold reacKnockWireAnswerTaken
  by_cases hanswered : w.state = .answered
  · rw [if_pos hanswered]
    simp
  · rw [if_neg hanswered]
    exact hidle

theorem reacKnockWireAnswerTaken_knocking {w : ReacKnockWire μ κ} (hk : w.state = .knocking) :
    reacKnockWireAnswerTaken w = { w with answer := [] } := by
  unfold reacKnockWireAnswerTaken
  rw [if_neg (by rw [hk]; decide)]

/-- SERVE's taking of the answer moves no knock. -/
theorem answerTaken_sound {s : KnockSniffer μ κ} (h : HandsSound s) :
    HandsSound { s with kw := reacKnockWireAnswerTaken s.kw } ∧
      (Timely s → Timely { s with kw := reacKnockWireAnswerTaken s.kw }) := by
  by_cases hk : s.kw.state = .knocking
  · rw [reacKnockWireAnswerTaken_knocking hk]
    exact ⟨⟨h.opened, h.watch, h.armed, h.rest⟩, id⟩
  · have hclosed := h.closed hk
    have hsound := h.idle hclosed (restDue_of_idle (reacKnockWireAnswerTaken_idle hk))
    exact ⟨hsound, fun _ => timely_of_closed hsound hclosed⟩

theorem setHost_sound {s : KnockSniffer μ κ} (hosts : Bool) (h : HandsSound s) :
    HandsSound { s with kw := reacKnockWireSetHost s.kw hosts } :=
  ⟨h.opened, h.watch, h.armed, h.rest⟩

/-- **Every event leaves a sound sniffer sound**, and only the timer's makes the knock do
anything. -/
theorem handsOn_sound {s : KnockSniffer μ κ} {e : HandsEvent}
    {r : Option (KnockSniffer μ κ) × List (KnockEvent μ κ)} (h : HandsSound s)
    (hr : handsOn A K isControl s e = some r) :
    (∀ s' ∈ r.1, HandsSound s') ∧
      (r.2 ≠ [] → ∃ now send, e = .timer now send ∧ s.txOpen = true ∧
        (∃ due, s.armed = some due ∧ due ≤ now) ∧
        ∀ t : SlotStep μ κ, KnockEvent.stepped t ∈ r.2 → t.wire.state = .knocking) := by
  have hsilent : ∀ {s' : Option (KnockSniffer μ κ)}, (s', ([] : List (KnockEvent μ κ))).2 ≠ [] →
      False := fun hno => hno rfl
  cases e with
  | listen l =>
      obtain rfl := Option.some.inj hr
      exact ⟨fun s' hs' => (Option.some.inj hs') ▸ h, fun hno => (hsilent hno).elim⟩
  | close =>
      obtain rfl := Option.some.inj hr
      exact ⟨fun s' hs' => by simp at hs', fun hno => (hsilent hno).elim⟩
  | io frames now =>
      obtain rfl := Option.some.inj hr
      exact ⟨fun s' hs' => (Option.some.inj hs') ▸ snifferDrain_sound K isControl now frames h,
        fun hno => (hsilent hno).elim⟩
  | poll p =>
      obtain rfl := Option.some.inj hr
      exact ⟨fun s' hs' => (Option.some.inj hs') ▸ hearingHuntKnock_sound A K isControl p h,
        fun hno => (hsilent hno).elim⟩
  | wake hosts =>
      simp only [handsOn] at hr
      split at hr
      · obtain rfl := Option.some.inj hr
        exact ⟨fun s' hs' => (Option.some.inj hs') ▸ setHost_sound hosts h,
          fun hno => (hsilent hno).elim⟩
      · obtain rfl := Option.some.inj hr
        exact ⟨fun s' hs' => (Option.some.inj hs') ▸ h, fun hno => (hsilent hno).elim⟩
  | served =>
      simp only [handsOn] at hr
      split at hr
      · obtain rfl := Option.some.inj hr
        exact ⟨fun s' hs' => (Option.some.inj hs') ▸ (answerTaken_sound h).1,
          fun hno => (hsilent hno).elim⟩
      · obtain rfl := Option.some.inj hr
        exact ⟨fun s' hs' => (Option.some.inj hs') ▸ h, fun hno => (hsilent hno).elim⟩
  | timer now send =>
      simp only [handsOn] at hr
      split at hr
      · obtain rfl := Option.some.inj hr
        exact ⟨fun s' hs' => (Option.some.inj hs') ▸ h, fun hno => (hsilent hno).elim⟩
      · rename_i due hdue
        split at hr
        · obtain rfl := Option.some.inj hr
          exact ⟨fun s' hs' => (Option.some.inj hs') ▸ h, fun hno => (hsilent hno).elim⟩
        · rename_i hcome
          obtain ⟨out, hout, rfl⟩ := Option.map_eq_some_iff.mp hr
          have hfired : HandsSound { s with armed := none } :=
            ⟨h.opened, h.watch, fun hno => absurd rfl hno, h.rest⟩
          obtain ⟨hsound, -, hstepped⟩ := onKnockTimer_sound A hfired rfl hout
          have hopen := (h.armed (by simp [hdue])).2
          exact ⟨fun s' hs' => (Option.some.inj hs') ▸ hsound,
            fun _ => ⟨now, send, rfl, hopen, ⟨due, hdue, Nat.le_of_not_lt hcome⟩, hstepped⟩⟩

/-- The clock that an event's frames are heard by has started. -/
def HandsEvent.Ticking : HandsEvent → Prop
  | .io _ now => now ≠ 0
  | .poll p => p.drainedAt ≠ 0
  | _ => True

/-- An event that ends the knock's rest early, and is no answer. -/
def CutsShort (s : KnockSniffer μ κ) : HandsEvent → Prop
  | .io frames now => CutsRest K s now frames
  | .poll p => p.linked = true ∧ p.trunkNow = false ∧ CutsRest K s p.drainedAt p.queued
  | _ => False

/-- **After an event the timer is right, unless it cut a rest short.** -/
theorem handsOn_timely_iff {s : KnockSniffer μ κ} {e : HandsEvent}
    {r : Option (KnockSniffer μ κ) × List (KnockEvent μ κ)} (hclock : e.Ticking)
    (h : HandsSound s) (ht : Timely s) (hr : handsOn A K isControl s e = some r) :
    (∀ s' ∈ r.1, Timely s') ↔ ¬ CutsShort K s e := by
  have hstill : ∀ {s' : KnockSniffer μ κ}, (∀ t ∈ some s', Timely t) ↔ Timely s' :=
    fun {s'} => by simp
  cases e with
  | listen l =>
      obtain rfl := Option.some.inj hr
      exact iff_of_true (hstill.mpr ht) fun hc => hc
  | close =>
      obtain rfl := Option.some.inj hr
      exact iff_of_true (by simp) fun hc => hc
  | io frames now =>
      obtain rfl := Option.some.inj hr
      exact hstill.trans (snifferDrain_timely_iff K isControl hclock frames h ht)
  | poll p =>
      obtain rfl := Option.some.inj hr
      exact hstill.trans (hearingHuntKnock_timely_iff A K isControl p hclock h ht)
  | wake hosts =>
      simp only [handsOn] at hr
      split at hr
      · obtain rfl := Option.some.inj hr
        have hsame : Timely { s with kw := reacKnockWireSetHost s.kw hosts } := ht
        exact iff_of_true (hstill.mpr hsame) fun hc => hc
      · obtain rfl := Option.some.inj hr
        exact iff_of_true (hstill.mpr ht) fun hc => hc
  | served =>
      simp only [handsOn] at hr
      split at hr
      · obtain rfl := Option.some.inj hr
        exact iff_of_true (hstill.mpr ((answerTaken_sound h).2 ht)) fun hc => hc
      · obtain rfl := Option.some.inj hr
        exact iff_of_true (hstill.mpr ht) fun hc => hc
  | timer now send =>
      refine iff_of_true ?_ fun hc => hc
      simp only [handsOn] at hr
      split at hr
      · obtain rfl := Option.some.inj hr
        exact hstill.mpr ht
      · split at hr
        · obtain rfl := Option.some.inj hr
          exact hstill.mpr ht
        · obtain ⟨out, hout, rfl⟩ := Option.map_eq_some_iff.mp hr
          have hfired : HandsSound { s with armed := none } :=
            ⟨h.opened, h.watch, fun hno => absurd rfl hno, h.rest⟩
          exact hstill.mpr (onKnockTimer_sound A hfired rfl hout).2.1

/-! ### Whole runs -/

theorem snifferOpenEx_sound (l : ListenAs) :
    HandsSound (snifferOpenEx A K l) ∧ Timely (snifferOpenEx A K l) := by
  have hsound : HandsSound (snifferOpenEx A K l) := by
    refine ⟨fun ho => by simp [snifferOpenEx] at ho, ?_, fun hno => absurd rfl hno,
      restDue_of_idle (by simp [snifferOpenEx, reacKnockWireInit])⟩
    intro hwatch
    simp only [snifferOpenEx, Bool.and_eq_true, Bool.not_eq_true'] at hwatch ⊢
    exact hwatch.1
  exact ⟨hsound, timely_of_closed hsound rfl⟩

/-- The sniffer, when there is one, is sound. -/
def HandsHold (h : KnockHands μ κ) : Prop := ∀ s ∈ h.sn, HandsSound s

/-- **What an event does**: nothing to a hung loop or without a sniffer, but for opening one;
else what it does to the sniffer. -/
theorem handsStep_cases (h : KnockHands μ κ) (e : HandsEvent) :
    ((h.hung = true ∨ h.sn = none) ∧ (handsStep A K isControl h e = (h, []) ∨
      ∃ l, e = .listen l ∧
        handsStep A K isControl h e = ({ sn := some (snifferOpenEx A K l) }, []))) ∨
    ∃ s, h.hung = false ∧ h.sn = some s ∧
      (handsOn A K isControl s e = none ∧
          handsStep A K isControl h e = ({ sn := some s, hung := true }, []) ∨
        ∃ r, handsOn A K isControl s e = some r ∧
          handsStep A K isControl h e = ({ sn := r.1 }, r.2)) := by
  unfold handsStep
  by_cases hhung : h.hung = true
  · rw [if_pos hhung]
    exact Or.inl ⟨Or.inl hhung, Or.inl rfl⟩
  rw [if_neg hhung]
  cases hsn : h.sn with
  | none =>
      refine Or.inl ⟨Or.inr rfl, ?_⟩
      cases e with
      | listen l => exact Or.inr ⟨l, rfl, rfl⟩
      | _ => exact Or.inl rfl
  | some s =>
      refine Or.inr ⟨s, eq_false_of_ne_true hhung, rfl, ?_⟩
      cases hon : handsOn A K isControl s e with
      | none => exact Or.inl ⟨rfl, by simp only [hon]⟩
      | some r => exact Or.inr ⟨r, rfl, by simp only [hon]⟩

theorem handsStep_holds (h : KnockHands μ κ) (e : HandsEvent) (hh : HandsHold h) :
    HandsHold (handsStep A K isControl h e).1 := by
  obtain ⟨-, hstep | ⟨l, -, hstep⟩⟩ | ⟨s, -, hsn, ⟨-, hstep⟩ | ⟨r, hon, hstep⟩⟩ :=
    handsStep_cases A K isControl h e
  · rw [hstep]
    exact hh
  · rw [hstep]
    intro s hs
    obtain rfl := Option.some.inj hs
    exact (snifferOpenEx_sound A K l).1
  · rw [hstep]
    intro s' hs'
    exact hh s' (hsn.trans hs')
  · rw [hstep]
    exact (handsOn_sound A K isControl (hh s hsn) hon).1

/-- **The sender is the knock's alone.**  Whatever the callbacks and the poll do to a sniffer,
and in whatever order, its sender is open only on a knocking wire that nobody pinned.  Only
its timer's callback has the knock do anything, and then at the time it was armed for, through
an open sender, and slot by slot on a knocking wire. -/
theorem hands_only_knock (run : List HandsEvent) (e : HandsEvent) :
    let h := (handsMachine A K isControl).after {} run
    (∀ s ∈ h.sn, s.txOpen = true →
      s.kw.state = .knocking ∧ s.watchSilence = true ∧ s.pinned = false ∧ s.tapPinned = false) ∧
    ((handsStep A K isControl h e).2 ≠ [] → ∃ now send, e = .timer now send ∧
      ∃ s ∈ h.sn, s.txOpen = true ∧ (∃ due, s.armed = some due ∧ due ≤ now) ∧
        ∀ t : SlotStep μ κ, KnockEvent.stepped t ∈ (handsStep A K isControl h e).2 →
          t.wire.state = .knocking) := by
  have hh := (handsMachine A K isControl).invariant (handsStep_holds A K isControl) run {}
    (fun s hs => by simp at hs)
  generalize (handsMachine A K isControl).after {} run = h at hh
  constructor
  · intro s hs hopen
    obtain ⟨hk, hwatch⟩ := (hh s hs).opened hopen
    exact ⟨hk, hwatch, (hh s hs).watch hwatch⟩
  · intro hdid
    obtain ⟨-, hstep | ⟨l, -, hstep⟩⟩ | ⟨s, -, hsn, ⟨-, hstep⟩ | ⟨r, hon, hstep⟩⟩ :=
      handsStep_cases A K isControl h e
    · exact absurd (by rw [hstep]) hdid
    · exact absurd (by rw [hstep]) hdid
    · exact absurd (by rw [hstep]) hdid
    · rw [hstep] at hdid ⊢
      obtain ⟨now, send, he, hdone⟩ := (handsOn_sound A K isControl (hh s hsn) hon).2 hdid
      exact ⟨now, send, he, s, hsn, hdone⟩

/-- An event makes the timer wrong only by cutting a rest short. -/
theorem handsStep_timely_iff (h : KnockHands μ κ) (e : HandsEvent) (hh : HandsHold h)
    (ht : ∀ s ∈ h.sn, Timely s) (hclock : e.Ticking) :
    (∀ s ∈ (handsStep A K isControl h e).1.sn, Timely s) ↔
      (h.hung = false → ∀ s ∈ h.sn, ¬ CutsShort K s e) := by
  obtain ⟨hidle, hstep⟩ | ⟨s, hhung, hsn, ⟨hon, hstep⟩ | ⟨r, hon, hstep⟩⟩ :=
    handsStep_cases A K isControl h e
  · have hnone : h.hung = false → ∀ s ∈ h.sn, ¬ CutsShort K s e := by
      intro hhung s hs
      rcases hidle with hung | hsn
      · rw [hhung] at hung
        cases hung
      · rw [hsn] at hs
        cases hs
    refine iff_of_true ?_ hnone
    obtain hstep | ⟨l, -, hstep⟩ := hstep
    · rw [hstep]
      exact ht
    · rw [hstep]
      intro s hs
      obtain rfl := Option.some.inj hs
      exact (snifferOpenEx_sound A K l).2
  · -- Only a run can hang, and a run is no frame.
    rw [hstep]
    refine iff_of_true (fun s' hs' => ht s' (hsn.trans hs')) fun _ s' hs' => ?_
    cases e with
    | timer now send => exact fun hc => hc
    | io frames now => cases hon
    | poll p => cases hon
    | _ => exact fun hc => hc
  · rw [hstep, handsOn_timely_iff A K isControl hclock (hh s hsn) (ht s hsn) hon]
    constructor
    · intro hno _ s' hs'
      obtain rfl := Option.some.inj (hsn.symm.trans hs')
      exact hno
    · intro hno
      exact hno hhung s hsn

/-- **The timer is behind the knock exactly after a rest cut short.**  While the clock runs, it
is armed at the knock's next frame after every event of a run if and only if no event of it is a
frame that ends a rest early without being an answer: `reac_knock_wire_heard` has the next knock
open at once then, and nothing tells the timer. -/
theorem hands_timely_iff (run : List HandsEvent) (hclock : ∀ e ∈ run, e.Ticking) :
    (handsMachine A K isControl).Guarded
        (fun h e => ∀ s ∈ (handsStep A K isControl h e).1.sn, Timely s) {} run ↔
      (handsMachine A K isControl).Guarded
        (fun h e => h.hung = false → ∀ s ∈ h.sn, ¬ CutsShort K s e) {} run := by
  refine (handsMachine A K isControl).guarded_iff_of
    (I := fun h => HandsHold h ∧ ∀ s ∈ h.sn, Timely s) (C := HandsEvent.Ticking) ?_ ?_ run {}
    ⟨fun s hs => by simp at hs, fun s hs => by simp at hs⟩ hclock
  · rintro h e ⟨hh, ht⟩ hticks hcuts
    exact ⟨handsStep_holds A K isControl h e hh,
      (handsStep_timely_iff A K isControl h e hh ht hticks).mpr hcuts⟩
  · rintro h e ⟨hh, ht⟩ hticks
    exact handsStep_timely_iff A K isControl h e hh ht hticks

end

/-- A knock goes out, its header and its announce, and a frame is heard in its rest. -/
def restingRun (evidence : Bool) : List HandsEvent :=
  [.listen { pinned := false, tapPinned := false, wireless := false,
             src := [2, 0, 0, 0, 0, 1], fps := 8000, now := 1 },
    .poll { now := 600000000, linked := true, queued := [], drainedAt := 600000000,
            trunkNow := false, waits := false, hosts := false, opens := true, timerOk := true },
    .timer 600000000 (fun _ _ => true), .timer 600400000 (fun _ _ => true),
    .io [{ frame := [0], evidence := evidence }] 600420000]

/-- An answer closes the sender; a stray frame leaves the timer behind. -/
theorem hands_timely_iff_stray :
    (handsMachine fourSlotMaster halfSecondLicence (fun _ => true)).Guarded
      (fun h e => ∀ s ∈ (handsStep fourSlotMaster halfSecondLicence (fun _ => true) h e).1.sn,
        Timely s) {} (restingRun true) ∧
    ¬ (handsMachine fourSlotMaster halfSecondLicence (fun _ => true)).Guarded
      (fun h e => ∀ s ∈ (handsStep fourSlotMaster halfSecondLicence (fun _ => true) h e).1.sn,
        Timely s) {} (restingRun false) := by
  have hclock : ∀ evidence, ∀ e ∈ restingRun evidence, e.Ticking := by
    intro evidence e he
    simp only [restingRun, List.mem_cons, List.not_mem_nil, or_false] at he
    rcases he with rfl | rfl | rfl | rfl | rfl <;> simp [HandsEvent.Ticking]
  constructor
  · refine (hands_timely_iff _ _ _ (restingRun true) (hclock true)).mpr
      ⟨fun _ _ _ hc => hc, fun _ _ _ hc => hc.2.2.some rfl, fun _ _ _ hc => hc,
        fun _ _ _ hc => hc, fun _ _ _ hc => ?_, True.intro⟩
    exact absurd (hc.unanswered _ (List.mem_cons_self ..)) (by decide)
  · intro htimely
    obtain ⟨-, -, -, -, hcut, -⟩ :=
      (hands_timely_iff _ _ _ (restingRun false) (hclock false)).mp htimely
    exact hcut rfl _ rfl ⟨rfl, rfl, rfl, by simp, Or.inl rfl, by decide, by simp⟩

end ReacPw
