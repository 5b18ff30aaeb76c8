/-
When the door shows the present.

The role's and the head-amp's guards compare all that their publishers render.  The
link's guard leaves out the row that stands at the address and the head-amp base, the
discovery's the device list and the refusal, and the shadows of the link and of the rate
are reset to values a snapshot can have.

So beside the sink runs what its publishers were last let through at, `Seen`: a tick
whose values compare equal has to find there what the guard left out (`TickSeen`).  In a
run whose ticks all do, the door has after each of them what the publishers render from
that tick (`door_shows_present`).
-/
import ReacPw.Proofs.DoorRun

namespace ReacPw

variable {I : Type} (A : DoorApi I)

/-! ### What the guards leave out -/

/-- The row itself, and the head-amp base. -/
def DoorSnap.linkRest (s : DoorSnap I) : Option BoxRow × Int := (s.row.map (·.2), s.headampBase)

/-- The segment's refusal. -/
def DoorSnap.refusal (s : DoorSnap I) : Text :=
  A.segmentRefusal s.arb.rival (s.fsmState == A.masterProbing) (decide (0 < s.rxBoxFrames))
    s.rxJoins

/-- The device list, whether the master has an address, and the refusal. -/
def DoorSnap.discoRest (s : DoorSnap I) : Option Text × Option Nat × Text :=
  (s.devices, s.arb.mac, s.refusal A)

/-- The snapshots at which the link's and the discovery's guard last let their publisher
through since the shadows were last reset, and whether the rate's did. -/
structure Seen (I : Type) where
  link : Option (DoorSnap I) := none
  rate : Bool := false
  disco : Option (DoorSnap I) := none

def Seen.after (seen : Seen I) (s : DoorSnap I) (shown : Shown I) : Seen I :=
  { link := if shown.link.isSome then some s else seen.link
    rate := shown.rate.isSome || seen.rate
    disco := if shown.disco.isSome then some s else seen.disco }

def noteSeen (seen : Seen I) (_ : DoorSink I) (e : DoorEvent I) (r : DoorReport I) : Seen I :=
  match e with
  | .logTick s _ => (if r.reset then {} else seen).after s r.shown
  | .ensure _ _ s _ => (if r.reset then {} else seen).after s r.shown
  | _ => seen

/-- The sink, and what was seen. -/
def doorRun [DecidableEq I] : StepMachine (DoorSink I × Seen I) (DoorEvent I) (DoorReport I) :=
  (doorMachine A).withHistory noteSeen

/-- Where the link's guard compares equal, the row and the base are as they were. -/
def LinkSeen [DecidableEq I] (n : DoorSink I) (seen : Seen I) (s : DoorSnap I) : Prop :=
  n.peerBlank = false → n.linkShadow A s = n.link →
    seen.link.map DoorSnap.linkRest = some s.linkRest

/-- Where the rate's guard compares equal, the rate has been stamped. -/
def RateSeen (n : DoorSink I) (seen : Seen I) (s : DoorSnap I) : Prop :=
  rateShadow s = n.rate → seen.rate = true

/-- Where the discovery's guard compares equal, the list and the refusal are as they were. -/
def DiscoSeen (n : DoorSink I) (seen : Seen I) (s : DoorSnap I) : Prop :=
  some (discoShadow s) = n.disco → seen.disco.map (DoorSnap.discoRest A) = some (s.discoRest A)

/-- Where a guard compares equal, what it leaves out is as it was. -/
def TickSeen [DecidableEq I] (n : DoorSink I) (seen : Seen I) (s : DoorSnap I) : Prop :=
  LinkSeen A n seen s ∧ RateSeen n seen s ∧ DiscoSeen A n seen s

instance [DecidableEq I] (n : DoorSink I) (seen : Seen I) (s : DoorSnap I) :
    Decidable (LinkSeen A n seen s) :=
  inferInstanceAs (Decidable (_ → _ → _))

instance (n : DoorSink I) (seen : Seen I) (s : DoorSnap I) : Decidable (RateSeen n seen s) :=
  inferInstanceAs (Decidable (_ → _))

instance (n : DoorSink I) (seen : Seen I) (s : DoorSnap I) : Decidable (DiscoSeen A n seen s) :=
  inferInstanceAs (Decidable (_ → _))

instance [DecidableEq I] (n : DoorSink I) (seen : Seen I) (s : DoorSnap I) :
    Decidable (TickSeen A n seen s) :=
  inferInstanceAs (Decidable (_ ∧ _ ∧ _))

/-- A device list that fits, and a restamp in its place. -/
def EventFits (p : DoorSink I × Seen I) : DoorEvent I → Prop
  | .logTick s _ => s.devices.isSome = true
  | .ensure _ _ s _ => s.devices.isSome = true
  | e => DoorOrder p.1 e

/-- A log tick on a segment that has a door, once the door has followed. -/
def EventSeen [DecidableEq I] (p : DoorSink I × Seen I) : DoorEvent I → Prop
  | .logTick s _ =>
      sinkHasDoor p.1 = true →
        TickSeen A (sinkDoorFollow A p.1) (if sinkDoorFollows p.1 then {} else p.2) s
  | _ => True

instance (p : DoorSink I × Seen I) (e : DoorEvent I) : Decidable (EventFits p e) :=
  match e with
  | .logTick s _ => inferInstanceAs (Decidable (s.devices.isSome = true))
  | .ensure _ _ s _ => inferInstanceAs (Decidable (s.devices.isSome = true))
  | .unpublish => inferInstanceAs (Decidable (DoorOrder p.1 .unpublish))
  | .captureGone => inferInstanceAs (Decidable (DoorOrder p.1 .captureGone))
  | .captureBuilt => inferInstanceAs (Decidable (DoorOrder p.1 .captureBuilt))
  | .restamp row => inferInstanceAs (Decidable (DoorOrder p.1 (.restamp row)))

instance [DecidableEq I] (p : DoorSink I × Seen I) (s : DoorSnap I)
    (health : List (HealthKey × Text)) : Decidable (EventSeen A p (.logTick s health)) :=
  inferInstanceAs (Decidable (_ → _))

/-- All that the five publishers render. -/
def presentSets (n : DoorSink I) (s : DoorSnap I) (devices : Text) : List DoorSet :=
  linkSets A (n.linkView A s) ++ (n.linkView A s).badge A ++
    rateSets A n.drivableMask (rateShadow s) ++ roleSets A (roleShadow s) ++
    headampSets A (headampShadow A s) ++ discoSets A n.discoIfname (discoView A s devices)

/-- The door, if there is a node, has what the publishers render from `s` on `n`. -/
def ShowsPresent (n : DoorSink I) (s : DoorSnap I) (n' : DoorSink I) : Prop :=
  sinkHasDoor n' = true → ∃ m, n'.current = some m ∧
    ∀ devices, s.devices = some devices → PropMap.Has m (presentSets A n s devices)

/-! ### What was seen is what is shown -/

variable {A} {n n' : DoorSink I} {seen : Seen I} {shown : Shown I}

structure SeenInv (A : DoorApi I) (n : DoorSink I) (seen : Seen I) (shown : Shown I) : Prop where
  link : n.current.isSome = true → ∀ s₀ ∈ seen.link, shown.link = some
    { linkState := n.link.linkState, row := s₀.row.map (·.2), boxMac := n.link.boxMac,
      identity := n.link.boxIdentity, base := s₀.headampBase }
  rate : n.current.isSome = true → seen.rate = true → shown.rate = some n.rate
  disco : n.current.isSome = true → ∀ s₀ ∈ seen.disco, n.disco = some (discoShadow s₀) ∧
    ∃ devices, s₀.devices = some devices ∧ shown.disco = some (discoView A s₀ devices)

theorem SeenInv.shrink (h : SeenInv A n seen shown)
    (hcurrent : n'.current.isSome = true → n.current.isSome = true) (hlink : n'.link = n.link)
    (hrate : n'.rate = n.rate) (hdisco : n'.disco = n.disco) : SeenInv A n' seen shown := by
  constructor
  · rw [hlink]
    exact fun hdoor => h.link (hcurrent hdoor)
  · rw [hrate]
    exact fun hdoor => h.rate (hcurrent hdoor)
  · rw [hdisco]
    exact fun hdoor => h.disco (hcurrent hdoor)

theorem seenInv_blank (n : DoorSink I) (shown : Shown I) : SeenInv A n {} shown := by
  constructor
  · intro _ s₀ hs₀
    exact absurd hs₀ (by simp)
  · intro _ hrate
    exact absurd hrate (by simp)
  · intro _ s₀ hs₀
    exact absurd hs₀ (by simp)

/-- The publishers keep it: a guard that suppresses leaves its shadow as it is. -/
theorem SeenInv.publish [DecidableEq I] (h : SeenInv A n seen shown) (hsettled : n.Settled)
    {s : DoorSnap I} (hnext : (sinkPublish A n s).1.Settled) (hfits : s.devices.isSome = true) :
    SeenInv A (sinkPublish A n s).1 (seen.after s (sinkPublish A n s).2)
      ((sinkPublish A n s).2.over shown) := by
  obtain ⟨devices, hdevices⟩ := Option.isSome_iff_exists.mp hfits
  have hbefore : (sinkPublish A n s).1.current.isSome = true →
      Published A n s (sinkPublish A n s) ∧ n.current.isSome = true := by
    intro hdoor
    rw [← hasDoor_current hnext, (publish_rest s n).hasDoor] at hdoor
    exact ⟨publish_spec s hdoor, by rw [← hasDoor_current hsettled]; exact hdoor⟩
  constructor
  · intro hdoor s₀ hs₀
    obtain ⟨hspec, hcurrent⟩ := hbefore hdoor
    have hshown := hspec.linkShown
    show (sinkPublish A n s).2.link.or shown.link = _
    rw [hspec.link]
    by_cases hsame : n.peerBlank = false ∧ n.linkShadow A s = n.link
    · rw [if_pos hsame] at hshown
      have hs₀ : s₀ ∈ seen.link := by simpa [Seen.after, hshown] using hs₀
      rw [hshown, hsame.2]
      exact h.link hcurrent s₀ hs₀
    · rw [if_neg hsame] at hshown
      obtain rfl : s = s₀ := by simpa [Seen.after, hshown] using hs₀
      rw [hshown]
      rfl
  · intro hdoor hrate
    obtain ⟨hspec, hcurrent⟩ := hbefore hdoor
    have hshown := hspec.rateShown
    show (sinkPublish A n s).2.rate.or shown.rate = _
    rw [hspec.rate]
    by_cases hsame : rateShadow s = n.rate
    · rw [if_pos hsame] at hshown
      have hrate : seen.rate = true := by simpa [Seen.after, hshown] using hrate
      rw [hshown, hsame]
      exact h.rate hcurrent hrate
    · rw [if_neg hsame] at hshown
      rw [hshown]
      rfl
  · intro hdoor s₀ hs₀
    obtain ⟨hspec, hcurrent⟩ := hbefore hdoor
    have hshown := hspec.discoShown devices hdevices
    show _ ∧ ∃ d, _ ∧ (sinkPublish A n s).2.disco.or shown.disco = _
    rw [hspec.disco devices hdevices]
    by_cases hsame : some (discoShadow s) = n.disco
    · rw [if_pos hsame] at hshown
      have hs₀ : s₀ ∈ seen.disco := by simpa [Seen.after, hshown] using hs₀
      rw [hshown, hsame]
      exact h.disco hcurrent s₀ hs₀
    · rw [if_neg hsame] at hshown
      obtain rfl : s = s₀ := by simpa [Seen.after, hshown] using hs₀
      rw [hshown]
      exact ⟨rfl, devices, hdevices, rfl⟩

theorem SeenInv.health (h : SeenInv A n seen shown) (hsettled : n.Settled)
    (sets : List DoorSet) : SeenInv A (sinkDoorUpdate n sets) seen shown := by
  apply h.shrink
  · rw [← hasDoor_current (settled_update hsettled sets), ← hasDoor_current hsettled,
      update_hasDoor]
    exact fun hdoor => hdoor
  · exact update_link _ _
  · exact update_rate _ _
  · exact update_disco _ _

/-! ### What a tick shows -/

/-- What the discovery's guard compares and what it leaves out are all that is rendered. -/
theorem discoView_congr {s s₀ : DoorSnap I} (hshadow : discoShadow s = discoShadow s₀)
    (hrest : s₀.discoRest A = s.discoRest A) (devices : Text) :
    discoView A s₀ devices = discoView A s devices := by
  simp only [discoShadow, DiscoShadow.mk.injEq] at hshadow
  obtain ⟨hseq, hstate, hpace, hrival, hconflict, _⟩ := hshadow
  simp only [DoorSnap.discoRest, Prod.mk.injEq, DoorSnap.refusal] at hrest
  obtain ⟨_, hmac, hrefusal⟩ := hrest
  have harb : s₀.arb = s.arb := by
    cases harb : s.arb with
    | mk state pace rival conflict mac =>
        cases harb₀ : s₀.arb with
        | mk state₀ pace₀ rival₀ conflict₀ mac₀ => simp_all
  simp only [discoView, harb, hseq]
  rw [← hrefusal, harb]

/-- **A tick that finds what its guards leave out shows the snapshot.** -/
theorem publish_present [DecidableEq I] (hinv : SeenInv A n seen shown)
    (hdoorInv : DoorInv A n shown) (hsettled : n.Settled) {s : DoorSnap I}
    (hdoor : sinkHasDoor n = true) (hseen : TickSeen A n seen s) {devices : Text}
    (hfits : s.devices = some devices) :
    (sinkPublish A n s).2.over shown =
      { link := some (n.linkView A s), rate := some (rateShadow s), role := some (roleShadow s),
        headamp := some (headampShadow A s), disco := some (discoView A s devices) } := by
  obtain ⟨hlinkSeen, hrateSeen, hdiscoSeen⟩ := hseen
  have hspec := publish_spec (A := A) s hdoor
  have hcurrent : n.current.isSome = true := by
    rw [← hasDoor_current hsettled]
    exact hdoor
  have hlink : (sinkPublish A n s).2.link.or shown.link = some (n.linkView A s) := by
    rw [hspec.linkShown]
    split
    · rename_i hsame
      obtain ⟨s₀, hs₀, hrest⟩ := Option.map_eq_some_iff.mp (hlinkSeen hsame.1 hsame.2)
      obtain ⟨hrow, hbase⟩ := Prod.mk.inj hrest
      have hshown := hinv.link hcurrent s₀ hs₀
      rw [hrow, hbase, ← hsame.2] at hshown
      exact hshown
    · rfl
  have hrate : (sinkPublish A n s).2.rate.or shown.rate = some (rateShadow s) := by
    rw [hspec.rateShown]
    split
    · rename_i hsame
      rw [hsame]
      exact hinv.rate hcurrent (hrateSeen hsame)
    · rfl
  have hrole : (sinkPublish A n s).2.role.or shown.role = some (roleShadow s) := by
    rw [hspec.roleShown]
    split
    · rename_i hsame
      exact hdoorInv.role hcurrent _ hsame.symm
    · rfl
  have hheadamp : (sinkPublish A n s).2.headamp.or shown.headamp = some (headampShadow A s) := by
    rw [hspec.headampShown]
    split
    · rename_i hsame
      exact hdoorInv.headamp hcurrent _ hsame.symm
    · rfl
  have hdisco : (sinkPublish A n s).2.disco.or shown.disco = some (discoView A s devices) := by
    rw [hspec.discoShown devices hfits]
    split
    · rename_i hsame
      obtain ⟨s₀, hs₀, hrest⟩ := Option.map_eq_some_iff.mp (hdiscoSeen hsame)
      obtain ⟨hshadow, devices', hdevices', hshown⟩ := hinv.disco hcurrent s₀ hs₀
      rw [← hsame] at hshadow
      have hview := discoView_congr (Option.some.inj hshadow) hrest
      have hsameDevices : devices' = devices := by
        have hd : s₀.devices = s.devices := (Prod.mk.inj hrest).1
        rw [hdevices', hfits] at hd
        exact Option.some.inj hd
      rw [hsameDevices] at hshown
      rw [← hview]
      exact hshown
    · rfl
  unfold Shown.over
  rw [hlink, hrate, hrole, hheadamp, hdisco]

/-! ### Runs -/

/-- Some history of what was shown fits the sink and what was seen. -/
def PresentInv (A : DoorApi I) (p : DoorSink I × Seen I) : Prop :=
  ∃ shown, DoorInv A p.1 shown ∧ SeenInv A p.1 p.2 shown

theorem after_idle (seen : Seen I) (s : DoorSnap I) : seen.after s {} = seen := by
  simp [Seen.after]

theorem current_isSome (h : ∀ m ∈ n'.current, m ∈ n.current) (hdoor : n'.current.isSome = true) :
    n.current.isSome = true := by
  obtain ⟨m, hm⟩ := Option.isSome_iff_exists.mp hdoor
  exact Option.isSome_iff_exists.mpr ⟨m, h m hm⟩

/-- The door followed. -/
theorem SeenInv.follow (h : SeenInv A n seen shown) :
    SeenInv A (sinkDoorFollow A n) (if sinkDoorFollows n then {} else seen)
      (if sinkDoorFollows n then {} else shown) := by
  unfold sinkDoorFollow
  by_cases hfollows : sinkDoorFollows n = true
  · rw [if_pos hfollows, if_pos hfollows, if_pos hfollows]
    exact seenInv_blank _ _
  · rw [if_neg hfollows, if_neg hfollows, if_neg hfollows]
    exact h

theorem logTick_present [DecidableEq I] (hdoor : DoorInv A n shown) (hseen : SeenInv A n seen shown)
    {s : DoorSnap I} (health : List (HealthKey × Text)) (hfits : s.devices.isSome = true) :
    PresentInv A ((onLogTimer A n s health).1,
      (if sinkDoorFollows n then {} else seen).after s (sinkPublish A (sinkDoorFollow A n) s).2) := by
  obtain ⟨hfollow, hsettled⟩ := hdoor.follow
  obtain ⟨_, hnext⟩ := hfollow.publish hsettled s
  have hpublish := hseen.follow.publish hsettled hnext hfits
  refine ⟨_, (logTick_spec hdoor s health).1, ?_⟩
  unfold onLogTimer
  dsimp only
  split
  · exact hpublish.health hnext _
  · exact hpublish

theorem openFilter_present [DecidableEq I] (hdoor : DoorInv A n shown)
    (hseen : SeenInv A n seen shown) (node : BoxNode) {s : DoorSnap I} (build : StreamBuild)
    (hfits : s.devices.isSome = true) :
    PresentInv A ((sinkOpenFilter A n node s build).1,
      (if (sinkOpenFilter A n node s build).2.reset then {} else seen).after s
        (sinkOpenFilter A n node s build).2.shown) := by
  refine ⟨_, openFilter_spec hdoor node s build, ?_⟩
  cases build with
  | noStream =>
      rw [since_idle rfl rfl]
      exact (after_idle seen s).symm ▸ hseen
  | noConnect =>
      rw [since_idle rfl rfl]
      exact (after_idle {} s).symm ▸ seenInv_blank _ _
  | built =>
      have hbuilt := hdoor.built node s
      have hsettled : DoorSink.Settled
          { sinkDoorShadowsReset A n with
            linkDropsSeen := s.drops
            stream := some
              { node := node, props := blankProps.merge (playbackSeeds A s n.discoIfname) }
            capture := n.capture.map fun c => if c.doorBound then c.unbind else c } := by
        intro hnone
        exact absurd hnone (by simp)
      exact (seenInv_blank _ {}).publish hsettled (hbuilt.publish hsettled s).2 hfits

/-- **Every event keeps it.** -/
theorem present_step [DecidableEq I] (p : DoorSink I × Seen I) (e : DoorEvent I)
    (h : PresentInv A p) (hfits : EventFits p e) : PresentInv A ((doorRun A).step p e).1 := by
  obtain ⟨n, seen⟩ := p
  obtain ⟨shown, hdoor, hseen⟩ := h
  cases e with
  | logTick s health => exact logTick_present hdoor hseen health hfits
  | ensure channels label s build =>
      show PresentInv A ((sinkNodeEnsure A n channels label s build).1,
        (if (sinkNodeEnsure A n channels label s build).2.reset then {} else seen).after s
          (sinkNodeEnsure A n channels label s build).2.shown)
      have hgoneSeen : SeenInv A (reacSinkNodeUnpublish n) seen shown :=
        hseen.shrink (current_isSome hdoor.noStream_current) rfl rfl rfl
      obtain hsame | hgone | ⟨node, hopen⟩ := ensure_cases (A := A) n channels label s build
      · rw [hsame]
        exact ⟨shown, hdoor, (after_idle seen s).symm ▸ hseen⟩
      · rw [hgone]
        exact ⟨shown, hdoor.noStream, (after_idle seen s).symm ▸ hgoneSeen⟩
      · rw [hopen]
        exact openFilter_present hdoor.noStream hgoneSeen node build hfits
  | unpublish =>
      exact ⟨shown, hdoor.noStream,
        hseen.shrink (current_isSome hdoor.noStream_current) rfl rfl rfl⟩
  | captureGone =>
      exact ⟨shown, hdoor.captureGone,
        hseen.shrink (current_isSome (current_capture (by simp))) rfl rfl rfl⟩
  | captureBuilt =>
      exact ⟨shown, hdoor.captureBuilt,
        hseen.shrink (current_isSome (current_capture (by simp))) rfl rfl rfl⟩
  | restamp row =>
      have hunbound : ∀ c ∈ n.capture, c.doorBound = false := hfits
      have hcurrent : ∀ m ∈ (reacSinkNodeRestampPeer A n row).current, m ∈ n.current := by
        apply current_capture
        intro c hc
        obtain ⟨c', hc', rfl⟩ := Option.map_eq_some_iff.mp hc
        exact hunbound c' hc'
      exact ⟨shown, hdoor.restamp hunbound (badgeSets_owned A _ _ _ _),
        hseen.shrink (current_isSome hcurrent) rfl rfl rfl⟩

theorem present_fresh (id : I) (scope : Text) (mask : Nat) :
    PresentInv A (DoorSink.fresh A id scope mask, {}) :=
  ⟨{}, fresh_inv id scope mask, seenInv_blank _ _⟩

/-- What a publisher's stamps are, once all five are current. -/
theorem present_stamps (n : DoorSink I) (s : DoorSnap I) (devices : Text) {m : NodeProps}
    {mask : Nat} {scope : Text} (hmask : mask = n.drivableMask) (hscope : scope = n.discoIfname)
    (h : ∀ o sets, Shown.stamps A mask scope
      { link := some (n.linkView A s), rate := some (rateShadow s), role := some (roleShadow s),
        headamp := some (headampShadow A s), disco := some (discoView A s devices) } o = some sets →
      PropMap.Has m sets) : PropMap.Has m (presentSets A n s devices) := by
  subst hmask hscope
  have hlink := h .link _ rfl
  have hbadge := h .badge _ rfl
  have hrate := h .rate _ rfl
  have hrole := h .role _ rfl
  have hheadamp := h .headamp _ rfl
  have hdisco := h .disco _ rfl
  unfold presentSets
  simp only [PropMap.has_append]
  exact ⟨⟨⟨⟨⟨hlink, hbadge⟩, hrate⟩, hrole⟩, hheadamp⟩, hdisco⟩

theorem follow_drops (n : DoorSink I) : (sinkDoorFollow A n).linkDropsSeen = n.linkDropsSeen := by
  unfold sinkDoorFollow
  split
  · rw [update_linkDropsSeen]
    rfl
  · rfl

/-- A tick that finds what its guards leave out, in any state of a run. -/
theorem logTick_shows [DecidableEq I] {p : DoorSink I × Seen I} (h : PresentInv A p)
    {s : DoorSnap I} (health : List (HealthKey × Text)) (hfits : s.devices.isSome = true)
    (hseen : EventSeen A p (.logTick s health)) :
    ShowsPresent A p.1 s (onLogTimer A p.1 s health).1 := by
  obtain ⟨n, seen⟩ := p
  obtain ⟨shown, hdoorInv, hseenInv⟩ := h
  obtain ⟨devices, hdevices⟩ := Option.isSome_iff_exists.mp hfits
  obtain ⟨hfollow, hsettled⟩ := hdoorInv.follow
  obtain ⟨hinv, hnext⟩ := logTick_spec hdoorInv s health
  have hrest := logTick_rest (A := A) n s health
  intro hdoor
  have hbefore : sinkHasDoor n = true := by
    rw [← hrest.hasDoor]
    exact hdoor
  obtain ⟨m, hm⟩ : ∃ m, (onLogTimer A n s health).1.current = some m := by
    rw [hasDoor_current hnext] at hdoor
    exact Option.isSome_iff_exists.mp hdoor
  have hfollowDoor : sinkHasDoor (sinkDoorFollow A n) = true := by
    rw [(follow_rest n).hasDoor]
    exact hbefore
  have hshown := publish_present hseenInv.follow hfollow hsettled hfollowDoor (hseen hbefore)
    hdevices
  refine ⟨m, hm, ?_⟩
  intro devices' hdevices'
  obtain rfl : devices = devices' := Option.some.inj (hdevices.symm.trans hdevices')
  rw [hshown] at hinv
  have hview : (sinkDoorFollow A n).linkView A s = n.linkView A s := by
    unfold DoorSink.linkView DoorSink.linkState
    rw [follow_drops]
  rw [hview] at hinv
  exact present_stamps n s devices hrest.mask hrest.scope (hinv.core.has m hm)

/-- **The door shows the present** after every tick that finds, where a guard compares
equal, what the guard leaves out as it was. -/
theorem door_shows_present [DecidableEq I] (id : I) (scope : Text) (mask : Nat)
    (run : List (DoorEvent I)) (s : DoorSnap I) (health : List (HealthKey × Text))
    (hfits : (doorRun A).Guarded EventFits (DoorSink.fresh A id scope mask, {})
      (run ++ [.logTick s health]))
    (hseen : EventSeen A ((doorRun A).after (DoorSink.fresh A id scope mask, {}) run)
      (.logTick s health)) :
    ShowsPresent A ((doorRun A).after (DoorSink.fresh A id scope mask, {}) run).1 s
      ((doorRun A).after (DoorSink.fresh A id scope mask, {}) (run ++ [.logTick s health])).1 := by
  obtain ⟨hrunFits, htickFits⟩ := ((doorRun A).guarded_concat _ _ _ _).mp hfits
  have hinv := (doorRun A).invariant_guarded (I := PresentInv A) present_step run _
    (present_fresh id scope mask) hrunFits
  rw [StepMachine.after_concat]
  exact logTick_shows hinv health htickFits hseen

/-! ### A base that moved -/

/-- Names and texts that differ where the codes do. -/
def plainDoor : DoorApi Unit where
  masterProbing := 1
  linkProbing := 1
  linkStateFromMaster fsm dropped := if dropped then 9 else fsm
  linkStateName := intText ∘ Int.ofNat
  boxMacNone := txt "none"
  boxMacText := intText ∘ Int.ofNat
  identityText _ := (txt "1.0", txt "2.0", txt "hw")
  boxSourceWire := txt "wire"
  boxSourceNone := txt "none"
  rateSourceAsserted := txt "asserted"
  rateSourceConvention := txt "convention"
  ratePending := txt "pending"
  rateApplied := txt "applied"
  rateRefuseCode := intText ∘ Int.ofNat
  rateDrivableCsv := intText ∘ Int.ofNat
  roleMaster := txt "1"
  roleRefuseCode := intText ∘ Int.ofNat
  headampRefuseNone := 0
  headampCfgDecide channels base := if channels = 0 ∨ base < 0 then 1 else 0
  headampRefuseCode := intText ∘ Int.ofNat
  headampApplied := txt "applied"
  headampUnavailable := txt "unavailable"
  headampCaps := txt "phantom,pad,sens"
  headampSensMax := txt "55"
  discoListening := txt "listening"
  segmentMasterName := intText ∘ Int.ofNat
  paceSourceName := intText ∘ Int.ofNat
  rivalKindName := intText ∘ Int.ofNat
  segmentRefusal _ probing heard joins :=
    if probing && heard && joins == 0 then txt "box-heard-never-joined" else []
  macText := intText ∘ Int.ofNat

/-- An enrolled S-1608 at base 0. -/
def enrolledSnap : DoorSnap Unit where
  fsmState := 4
  drops := 0
  row := some (.first, { name := txt "S-1608", token := txt "s1608", inCh := 16, outCh := 8 })
  boxMac := 7
  identity := ()
  headampBase := 0
  rateHz := 48000
  rateAsserted := false
  rateReestablishing := false
  rateRefused := 0
  roleState := txt "applied"
  roleRefused := 0
  haWriteRefused := 0
  haAsserted := []
  discoSeq := 1
  arb := { state := 1, pace := 0, rival := 0, conflict := false, mac := some 7 }
  devices := some (txt "[s1608]")
  rxBoxFrames := 500
  rxJoins := 1

/-- A door on reac-playback, then on a capture that was built and restamped meanwhile. -/
theorem door_shows_present_moved :
    ShowsPresent plainDoor
      ((doorRun plainDoor).after (DoorSink.fresh plainDoor () (txt "e0") 3, {})
        [.captureBuilt, .ensure 8 (txt "S-1608") enrolledSnap .built, .restamp none,
          .logTick enrolledSnap [], .unpublish]).1 { enrolledSnap with headampBase := 16 }
      ((doorRun plainDoor).after (DoorSink.fresh plainDoor () (txt "e0") 3, {})
        ([.captureBuilt, .ensure 8 (txt "S-1608") enrolledSnap .built, .restamp none,
          .logTick enrolledSnap [], .unpublish] ++
          [.logTick { enrolledSnap with headampBase := 16 } []])).1 := by
  apply door_shows_present
  · decide
  · decide

/-- The head-amp base moves and nothing the guard compares does: the door keeps the old one. -/
theorem door_keeps_old_base :
    ¬∀ (I : Type) (_ : DecidableEq I) (A : DoorApi I) (id : I) (scope : Text) (mask : Nat)
      (run : List (DoorEvent I)) (s : DoorSnap I) (health : List (HealthKey × Text)),
      (doorRun A).Guarded EventFits (DoorSink.fresh A id scope mask, {})
          (run ++ [.logTick s health]) →
        ShowsPresent A ((doorRun A).after (DoorSink.fresh A id scope mask, {}) run).1 s
          ((doorRun A).after (DoorSink.fresh A id scope mask, {})
            (run ++ [.logTick s health])).1 := by
  intro hclaim
  obtain ⟨m, hm, hhas⟩ := hclaim Unit inferInstance plainDoor () (txt "e0") 3
    [.ensure 8 (txt "S-1608") enrolledSnap .built, .logTick enrolledSnap []]
    { enrolledSnap with headampBase := 16 } [] (by decide) (by decide)
  have hbase : m (.link .headampBase) = some (intText 16) := by
    apply hhas (txt "[s1608]") rfl (.link .headampBase, intText 16)
    simp [presentSets, linkSets, DoorSink.linkView]
  have hdoor := congrArg (Option.map fun m : NodeProps => m (.link .headampBase)) hm
  rw [Option.map_some, hbase] at hdoor
  exact absurd hdoor (by decide)

end ReacPw
