/-
One write door.

After a log tick the door is reac-playback, or a bound reac-capture.  A capture that is
not bound has only empty values under every key an update of the door can set; a bound
one has the constants and what each of the five publishers renders.

A capture that becomes the door has its keys stamped by the guards' compare against the
reset shadows, so what a reset leaves in the link's and in the rate's must not be what
the tick finds (`BindsFresh`); the keys are then there for as long as the capture is the
door (`one_write_door`).
-/
import ReacPw.Proofs.DoorPresent

namespace ReacPw

variable {I : Type} (A : DoorApi I)

/-- All five publishers have stamped. -/
def Shown.Full (shown : Shown I) : Prop :=
  shown.link.isSome = true ∧ shown.rate.isSome = true ∧ shown.role.isSome = true ∧
    shown.headamp.isSome = true ∧ shown.disco.isSome = true

/-- What all the stamps come to. -/
def Shown.sets (mask : Nat) (scope : Text) (shown : Shown I) : List DoorSet :=
  (shown.link.map fun v => linkSets A v ++ v.badge A).getD [] ++
    (shown.rate.map (rateSets A mask)).getD [] ++ (shown.role.map (roleSets A)).getD [] ++
    (shown.headamp.map (headampSets A)).getD [] ++ (shown.disco.map (discoSets A scope)).getD []

/-- Exactly one live door. -/
structure OneDoor (n : DoorSink I) : Prop where
  /-- reac-playback takes the assertions while there is one, else reac-capture does. -/
  bound : ∀ c ∈ n.capture, c.doorBound = n.stream.isNone
  /-- A door's key on a capture is never one of its badge's. -/
  recorded : ∀ c ∈ n.capture, ∀ k ∈ c.doorKeys, k.owner ≠ .badge
  /-- No frozen twin. -/
  emptied : ∀ c ∈ n.capture, c.doorBound = false → ∀ k : DoorKey, k.owner ≠ .badge →
    c.props k = none ∨ c.props k = some []
  /-- A whole door. -/
  carried : ∀ c ∈ n.capture, c.doorBound = true → ∃ shown : Shown I, shown.Full ∧
    PropMap.Has c.props (constantSets A) ∧
    PropMap.Has c.props (shown.sets A n.drivableMask n.discoIfname)

/-- A tick that binds a capture finds no reset value, and a device list that fits. -/
def BindsFresh [DecidableEq I] (n : DoorSink I) : DoorEvent I → Prop
  | .logTick s _ =>
      sinkDoorFollows n = true →
        ((sinkDoorFollow A n).peerBlank = true ∨
          (sinkDoorFollow A n).linkShadow A s ≠ (sinkDoorFollow A n).link) ∧
        rateShadow s ≠ (sinkDoorFollow A n).rate ∧ s.devices.isSome = true
  | _ => True

/-- A restamp in its place, and no reset value at a binding tick. -/
def EventBinds [DecidableEq I] (n : DoorSink I) (e : DoorEvent I) : Prop :=
  DoorOrder n e ∧ BindsFresh A n e

instance [DecidableEq I] (n : DoorSink I) (e : DoorEvent I) : Decidable (BindsFresh A n e) :=
  match e with
  | .logTick _ _ => inferInstanceAs (Decidable (_ → _ ∧ _ ∧ _))
  | .ensure _ _ _ _ => inferInstanceAs (Decidable True)
  | .unpublish => inferInstanceAs (Decidable True)
  | .captureGone => inferInstanceAs (Decidable True)
  | .captureBuilt => inferInstanceAs (Decidable True)
  | .restamp _ => inferInstanceAs (Decidable True)

instance [DecidableEq I] (n : DoorSink I) (e : DoorEvent I) : Decidable (EventBinds A n e) :=
  inferInstanceAs (Decidable (_ ∧ _))

variable {A} {n n' : DoorSink I} {shown : Shown I}

/-! ### A whole door stays whole -/

/-- Some history of what was shown fits the sink, and on a capture it is all there. -/
def WholeInv (A : DoorApi I) (n : DoorSink I) : Prop :=
  ∃ shown, DoorInv A n shown ∧ (n.stream = none → n.current.isSome = true → shown.Full)

theorem Shown.Full.over (newer : Shown I) (h : shown.Full) : (newer.over shown).Full := by
  obtain ⟨hlink, hrate, hrole, hheadamp, hdisco⟩ := h
  refine ⟨?_, ?_, ?_, ?_, ?_⟩
  · simp [Shown.over, hlink]
  · simp [Shown.over, hrate]
  · simp [Shown.over, hrole]
  · simp [Shown.over, hheadamp]
  · simp [Shown.over, hdisco]

theorem follow_role (hfollows : sinkDoorFollows n = true) :
    (sinkDoorFollow A n).role = none ∧ (sinkDoorFollow A n).headamp = none ∧
      (sinkDoorFollow A n).disco = none := by
  unfold sinkDoorFollow
  rw [if_pos hfollows]
  refine ⟨?_, ?_, ?_⟩
  · rw [update_role]
    rfl
  · rw [update_headamp]
    rfl
  · rw [update_disco]
    rfl

/-- **The tick that binds a capture stamps the whole door.** -/
theorem bind_full [DecidableEq I] {s : DoorSnap I} {health : List (HealthKey × Text)}
    (hfollows : sinkDoorFollows n = true) (hbinds : BindsFresh A n (.logTick s health)) :
    (sinkPublish A (sinkDoorFollow A n) s).2.Full := by
  obtain ⟨hlink, hrate, hfits⟩ := hbinds hfollows
  obtain ⟨devices, hdevices⟩ := Option.isSome_iff_exists.mp hfits
  obtain ⟨hrole, hheadamp, hdisco⟩ := follow_role (A := A) hfollows
  obtain ⟨_, c, hcapture, _⟩ := follows_iff.mp hfollows
  have hdoor : sinkHasDoor (sinkDoorFollow A n) = true := by
    rw [(follow_rest n).hasDoor]
    simp [sinkHasDoor, hcapture]
  have hspec := publish_spec (A := A) s hdoor
  refine ⟨?_, ?_, ?_, ?_, ?_⟩
  · rw [hspec.linkShown, if_neg]
    · rfl
    · rintro ⟨hblank, hsame⟩
      obtain hblank' | hmoved := hlink
      · rw [hblank] at hblank'
        exact absurd hblank' (by simp)
      · exact hmoved hsame
  · rw [hspec.rateShown, if_neg hrate]
    rfl
  · rw [hspec.roleShown, hrole]
    rfl
  · rw [hspec.headampShown, hheadamp]
    rfl
  · rw [hspec.discoShown devices hdevices, hdisco]
    rfl

theorem logTick_whole [DecidableEq I] (h : WholeInv A n) (s : DoorSnap I)
    (health : List (HealthKey × Text)) (hbinds : BindsFresh A n (.logTick s health)) :
    WholeInv A (onLogTimer A n s health).1 := by
  obtain ⟨shown, hdoor, hfull⟩ := h
  refine ⟨_, (logTick_spec hdoor s health).1, ?_⟩
  intro hstream hcurrent
  by_cases hfollows : sinkDoorFollows n = true
  · rw [if_pos hfollows, over_blank]
    exact bind_full hfollows hbinds
  · rw [if_neg hfollows]
    apply Shown.Full.over
    have hrest := logTick_rest (A := A) n s health
    have hnone : n.stream = none := by
      have hsame := hrest.stream
      rw [hstream] at hsame
      simpa using hsame.symm
    have hsettled : n.Settled := by
      have hfollow := hdoor.follow.2
      rw [sinkDoorFollow, if_neg hfollows] at hfollow
      exact hfollow
    apply hfull hnone
    rw [← hasDoor_current hsettled, ← hrest.hasDoor, hasDoor_current (logTick_spec hdoor s health).2]
    exact hcurrent

theorem openFilter_whole [DecidableEq I] (hdoor : DoorInv A n shown)
    (hfull : n.stream = none → n.current.isSome = true → shown.Full) (node : BoxNode)
    (s : DoorSnap I) (build : StreamBuild) :
    WholeInv A (sinkOpenFilter A n node s build).1 := by
  refine ⟨_, openFilter_spec hdoor node s build, ?_⟩
  cases build with
  | noStream =>
      rw [since_idle rfl rfl]
      exact hfull
  | noConnect =>
      rw [since_idle rfl rfl]
      exact hfull
  | built =>
      intro hstream
      have hbuilt := (publish_rest (A := A) s
        { sinkDoorShadowsReset A n with
          linkDropsSeen := s.drops
          stream := some
            { node := node, props := blankProps.merge (playbackSeeds A s n.discoIfname) }
          capture := n.capture.map fun c => if c.doorBound then c.unbind else c }).stream
      have hnone : (sinkPublish A
        { sinkDoorShadowsReset A n with
          linkDropsSeen := s.drops
          stream := some
            { node := node, props := blankProps.merge (playbackSeeds A s n.discoIfname) }
          capture := n.capture.map fun c => if c.doorBound then c.unbind else c } s).1.stream =
          none := hstream
      rw [hnone] at hbuilt
      exact absurd hbuilt (by simp)

/-- Without reac-playback: a capture was the door already, or there is none. -/
theorem noStream_whole (hdoor : DoorInv A n shown)
    (hfull : n.stream = none → n.current.isSome = true → shown.Full) :
    (reacSinkNodeUnpublish n).current.isSome = true → shown.Full := by
  intro hcurrent
  have hnone : n.stream = none := by
    by_contra hsome
    have hunbound := hdoor.core.apart (Option.isSome_iff_ne_none.mpr hsome)
    rw [reacSinkNodeUnpublish, current_unbound (n := { n with stream := none }) rfl hunbound]
      at hcurrent
    exact absurd hcurrent (by simp)
  exact hfull hnone (current_isSome hdoor.noStream_current hcurrent)

/-- A capture in the place of another: it is not the door. -/
theorem capture_whole {capture : Option Capture} (hunbound : ∀ c ∈ capture, c.doorBound = false)
    (hnone : n.stream = none)
    (hcurrent : (DoorSink.current { n with capture := capture }).isSome = true) : shown.Full := by
  rw [current_unbound (n := { n with capture := capture }) hnone hunbound] at hcurrent
  exact absurd hcurrent (by simp)

/-- **Every event keeps it.** -/
theorem whole_step [DecidableEq I] (n : DoorSink I) (e : DoorEvent I) (h : WholeInv A n)
    (hbinds : EventBinds A n e) : WholeInv A ((doorMachine A).step n e).1 := by
  cases e with
  | logTick s health => exact logTick_whole h s health hbinds.2
  | ensure channels label s build =>
      obtain ⟨shown, hdoor, hfull⟩ := h
      show WholeInv A (sinkNodeEnsure A n channels label s build).1
      have hgone := noStream_whole hdoor hfull
      obtain hsame | hunpublish | ⟨node, hopen⟩ := ensure_cases (A := A) n channels label s build
      · rw [hsame]
        exact ⟨shown, hdoor, hfull⟩
      · rw [hunpublish]
        exact ⟨shown, hdoor.noStream, fun _ => hgone⟩
      · rw [hopen]
        exact openFilter_whole hdoor.noStream (fun _ => hgone) node s build
  | unpublish =>
      obtain ⟨shown, hdoor, hfull⟩ := h
      exact ⟨shown, hdoor.noStream, fun _ => noStream_whole hdoor hfull⟩
  | captureGone =>
      obtain ⟨shown, hdoor, _⟩ := h
      exact ⟨shown, hdoor.captureGone, capture_whole (by simp)⟩
  | captureBuilt =>
      obtain ⟨shown, hdoor, _⟩ := h
      exact ⟨shown, hdoor.captureBuilt, capture_whole (by simp)⟩
  | restamp row =>
      obtain ⟨shown, hdoor, _⟩ := h
      have hunbound : ∀ c ∈ n.capture, c.doorBound = false := hbinds.1
      refine ⟨shown, hdoor.restamp hunbound (badgeSets_owned A _ _ _ _), ?_⟩
      apply capture_whole
      intro c hc
      obtain ⟨c', hc', rfl⟩ := Option.map_eq_some_iff.mp hc
      exact hunbound c' hc'

theorem full_sets {m : NodeProps} {mask : Nat} {scope : Text}
    (h : ∀ o sets, shown.stamps A mask scope o = some sets → PropMap.Has m sets)
    (hfull : shown.Full) : PropMap.Has m (shown.sets A mask scope) := by
  obtain ⟨hlink, hrate, hrole, hheadamp, hdisco⟩ := hfull
  obtain ⟨l, hl⟩ := Option.isSome_iff_exists.mp hlink
  obtain ⟨r, hr⟩ := Option.isSome_iff_exists.mp hrate
  obtain ⟨o, ho⟩ := Option.isSome_iff_exists.mp hrole
  obtain ⟨a, ha⟩ := Option.isSome_iff_exists.mp hheadamp
  obtain ⟨d, hd⟩ := Option.isSome_iff_exists.mp hdisco
  have hlinkSets := h .link (linkSets A l) (by simp [Shown.stamps, hl])
  have hbadgeSets := h .badge (l.badge A) (by simp [Shown.stamps, hl])
  have hrateSets := h .rate (rateSets A mask r) (by simp [Shown.stamps, hr])
  have hroleSets := h .role (roleSets A o) (by simp [Shown.stamps, ho])
  have hheadampSets := h .headamp (headampSets A a) (by simp [Shown.stamps, ha])
  have hdiscoSets := h .disco (discoSets A scope d) (by simp [Shown.stamps, hd])
  unfold Shown.sets
  simp only [hl, hr, ho, ha, hd, Option.map_some, Option.getD_some, PropMap.has_append]
  exact ⟨⟨⟨⟨⟨hlinkSets, hbadgeSets⟩, hrateSets⟩, hroleSets⟩, hheadampSets⟩, hdiscoSets⟩

/-- Settled, it is one door. -/
theorem WholeInv.oneDoor (h : WholeInv A n) (hsettled : n.Settled) : OneDoor A n := by
  obtain ⟨shown, hdoor, hfull⟩ := h
  constructor
  · intro c hc
    cases hstream : n.stream with
    | some p => exact hdoor.core.apart (by simp [hstream]) c hc
    | none => exact hsettled hstream c hc
  · exact hdoor.core.recorded
  · intro c hc hunbound
    exact hdoor.unbound_keys hc hunbound
  · intro c hc hbound
    have hstream : n.stream = none := by
      by_contra hsome
      have hunbound := hdoor.core.apart (Option.isSome_iff_ne_none.mpr hsome) c hc
      rw [hbound] at hunbound
      exact absurd hunbound (by simp)
    have hcurrent : n.current = some c.props := by
      have hc : n.capture = some c := hc
      simp [DoorSink.current, hstream, hc, Option.filter_some, hbound]
    have hhas := hdoor.core.has c.props hcurrent
    have hshown := hfull hstream (by simp [hcurrent])
    exact ⟨shown, hshown, hhas .constant _ rfl, full_sets hhas hshown⟩

/-- **One write door** after every log tick of a run whose binding ticks find no reset
value. -/
theorem one_write_door [DecidableEq I] (id : I) (scope : Text) (mask : Nat)
    (run : List (DoorEvent I)) (s : DoorSnap I) (health : List (HealthKey × Text))
    (hbinds : (doorMachine A).Guarded (EventBinds A) (DoorSink.fresh A id scope mask)
      (run ++ [.logTick s health])) :
    OneDoor A ((doorMachine A).after (DoorSink.fresh A id scope mask)
      (run ++ [.logTick s health])) := by
  have hstart : WholeInv A (DoorSink.fresh A id scope mask) := by
    refine ⟨{}, fresh_inv id scope mask, ?_⟩
    intro _ hcurrent
    exact absurd hcurrent (by simp [DoorSink.fresh, DoorSink.current])
  obtain ⟨hrun, htick⟩ := ((doorMachine A).guarded_concat _ _ _ _).mp hbinds
  have hbefore := (doorMachine A).invariant_guarded (I := WholeInv A) whole_step run _ hstart hrun
  have hafter := whole_step _ _ hbefore htick
  rw [StepMachine.after_concat]
  obtain ⟨shown, hdoor, _⟩ := hbefore
  exact hafter.oneDoor (logTick_spec hdoor s health).2

/-! ### A box that leaves while its playback node is rebuilt -/

/-- The box was dropped: probing, no row, no address. -/
def droppedSnap : DoorSnap Unit :=
  { enrolledSnap with fsmState := 1, drops := 1, row := none, boxMac := 0, headampBase := -1 }

/-- The door goes to reac-capture, back to reac-playback, and to a new capture. -/
theorem one_write_door_moved :
    OneDoor plainDoor ((doorMachine plainDoor).after (DoorSink.fresh plainDoor () (txt "e0") 3)
      ([.captureBuilt, .logTick enrolledSnap [], .ensure 8 (txt "S-1608") enrolledSnap .built,
        .logTick enrolledSnap [(.txErrors, txt "0")], .unpublish, .captureGone, .captureBuilt,
        .restamp none] ++ [.logTick enrolledSnap []])) := by
  apply one_write_door
  decide

/-- Both nodes stand, and the recovery ladder takes reac-playback down; the box is dropped, and
the new stream does not connect.  The capture is bound and has no `reac.box.source`. -/
theorem capture_bound_without_source :
    ¬∀ (I : Type) (_ : DecidableEq I) (A : DoorApi I) (id : I) (scope : Text) (mask : Nat)
      (run : List (DoorEvent I)) (s : DoorSnap I) (health : List (HealthKey × Text)),
      (doorMachine A).Guarded DoorOrder (DoorSink.fresh A id scope mask)
          (run ++ [.logTick s health]) →
        OneDoor A ((doorMachine A).after (DoorSink.fresh A id scope mask)
          (run ++ [.logTick s health])) := by
  intro hclaim
  have hdoor := hclaim Unit inferInstance plainDoor () (txt "e0") 3
    [.captureBuilt, .ensure 8 (txt "S-1608") enrolledSnap .built, .logTick enrolledSnap [],
      .unpublish, .ensure 8 (txt "S-1608") droppedSnap .noConnect] droppedSnap [] (by decide)
  obtain ⟨c, hc⟩ := Option.isSome_iff_exists.mp (show
    ((doorMachine plainDoor).after (DoorSink.fresh plainDoor () (txt "e0") 3)
      ([.captureBuilt, .ensure 8 (txt "S-1608") enrolledSnap .built, .logTick enrolledSnap [],
        .unpublish, .ensure 8 (txt "S-1608") droppedSnap .noConnect] ++
        [.logTick droppedSnap []])).capture.isSome = true by decide)
  obtain ⟨shown, hfull, _, hhas⟩ := hdoor.carried c hc (hdoor.bound c hc)
  obtain ⟨v, hv⟩ := Option.isSome_iff_exists.mp hfull.1
  have hsource := hhas (.link .boxSource, if v.row.isSome then txt "wire" else txt "none")
    (by simp [Shown.sets, hv, linkSets, plainDoor])
  have hkey := congrArg (Option.map fun c : Capture => (c.props (.link .boxSource)).isSome) hc
  rw [Option.map_some, hsource, Option.isSome_some] at hkey
  exact absurd hkey (by decide)

end ReacPw
