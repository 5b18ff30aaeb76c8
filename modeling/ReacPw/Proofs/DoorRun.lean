/-
The door over a run.

`DoorInv` relates a sink to what its current door was shown: the door has it all, and
the role's and the head-amp's shadows, whose guards compare everything they render, are
what it shows.  Each kind of event has its lemma that keeps it, the history being what was
shown since a node last became the door.
-/
import ReacPw.Proofs.Door

namespace ReacPw

variable {I : Type}

/-- What holds of a sink and of what was `shown` on its current door. -/
structure DoorInv (A : DoorApi I) (n : DoorSink I) (shown : Shown I) : Prop where
  core : DoorCore n (shown.stamps A n.drivableMask n.discoIfname)
  role : n.current.isSome = true → ∀ v, n.role = some v → shown.role = some v
  headamp : n.current.isSome = true → ∀ v, n.headamp = some v → shown.headamp = some v

variable {A : DoorApi I} {n n' : DoorSink I} {shown : Shown I}

/-! ### The moves -/

/-- A move after which the door is what it was, or there is none. -/
theorem DoorInv.shrink (h : DoorInv A n shown)
    (hcurrent : ∀ m ∈ n'.current, m ∈ n.current)
    (hapart : n'.stream.isSome = true → ∀ c ∈ n'.capture, c.doorBound = false)
    (hkeys : ∀ c ∈ n'.capture, ∀ k : DoorKey, k.owner ≠ .badge →
      c.props k = none ∨ c.props k = some [] ∨ k ∈ c.doorKeys)
    (hunbound : ∀ c ∈ n'.capture, c.doorBound = false → c.doorKeys = [])
    (hrecorded : ∀ c ∈ n'.capture, ∀ k ∈ c.doorKeys, k.owner ≠ .badge)
    (hmask : n'.drivableMask = n.drivableMask) (hscope : n'.discoIfname = n.discoIfname)
    (hrole : ∀ v, n'.role = some v → n.role = some v)
    (hheadamp : ∀ v, n'.headamp = some v → n.headamp = some v) : DoorInv A n' shown := by
  have hsome : n'.current.isSome = true → n.current.isSome = true := by
    intro hdoor
    obtain ⟨m, hm⟩ := Option.isSome_iff_exists.mp hdoor
    exact Option.isSome_iff_exists.mpr ⟨m, hcurrent m hm⟩
  constructor
  · rw [hmask, hscope]
    exact ⟨hapart, hkeys, hunbound, hrecorded, h.core.owned,
      fun m hm => h.core.has m (hcurrent m hm)⟩
  · intro hdoor v hv
    exact h.role (hsome hdoor) v (hrole v hv)
  · intro hdoor v hv
    exact h.headamp (hsome hdoor) v (hheadamp v hv)

theorem current_stream {p : Playback} (h : n.stream = some p) : n.current = some p.props := by
  unfold DoorSink.current
  rw [h]

theorem current_unbound (hstream : n.stream = none) (h : ∀ c ∈ n.capture, c.doorBound = false) :
    n.current = none := by
  unfold DoorSink.current
  rw [hstream]
  cases hcapture : n.capture with
  | none => rfl
  | some c =>
      have hc : c.doorBound = false := h c hcapture
      simp [Option.filter_some, hc]

/-- Without reac-playback. -/
theorem DoorInv.noStream_current (h : DoorInv A n shown) :
    ∀ m ∈ DoorSink.current { n with stream := none }, m ∈ n.current := by
  intro m hm
  cases hstream : n.stream with
  | some p =>
      have hunbound := h.core.apart (by simp [hstream])
      rw [current_unbound (n := { n with stream := none }) rfl hunbound] at hm
      exact absurd hm (by simp)
  | none =>
      unfold DoorSink.current at hm ⊢
      rw [hstream]
      exact hm

theorem DoorInv.noStream (h : DoorInv A n shown) : DoorInv A { n with stream := none } shown := by
  apply h.shrink h.noStream_current
  · intro hsome
    exact absurd hsome (by simp)
  · exact h.core.keys
  · exact h.core.unbound
  · exact h.core.recorded
  · rfl
  · rfl
  · exact fun v hv => hv
  · exact fun v hv => hv

/-- A capture in the place of another, if it is not a door. -/
theorem current_capture {capture : Option Capture} (h : ∀ c ∈ capture, c.doorBound = false) :
    ∀ m ∈ DoorSink.current { n with capture := capture }, m ∈ n.current := by
  intro m hm
  cases hstream : n.stream with
  | some p =>
      rw [current_stream hstream]
      rw [current_stream (n := { n with capture := capture }) hstream] at hm
      exact hm
  | none =>
      rw [current_unbound (n := { n with capture := capture }) hstream h] at hm
      exact absurd hm (by simp)

theorem DoorInv.withCapture (h : DoorInv A n shown) {capture : Option Capture}
    (hunbound : ∀ c ∈ capture, c.doorBound = false) (hfree : ∀ c ∈ capture, c.doorKeys = [])
    (hkeys : ∀ c ∈ capture, ∀ k : DoorKey, k.owner ≠ .badge →
      c.props k = none ∨ c.props k = some []) : DoorInv A { n with capture := capture } shown := by
  apply h.shrink (current_capture hunbound)
  · intro _
    exact hunbound
  · intro c hc k hk
    obtain hnone | hempty := hkeys c hc k hk
    · exact Or.inl hnone
    · exact Or.inr (Or.inl hempty)
  · intro c hc _
    exact hfree c hc
  · intro c hc k hk
    rw [hfree c hc] at hk
    exact absurd hk (by simp)
  · rfl
  · rfl
  · exact fun v hv => hv
  · exact fun v hv => hv

theorem DoorInv.captureGone (h : DoorInv A n shown) :
    DoorInv A { n with capture := none } shown := by
  apply h.withCapture
  · simp
  · simp
  · simp

theorem captureSeeds_badge (k : DoorKey) (hk : k.owner ≠ .badge) (v : Text) :
    (k, v) ∉ captureSeeds A := by
  intro hmem
  apply hk
  simp only [captureSeeds, List.mem_cons, Prod.mk.injEq, List.not_mem_nil, or_false] at hmem
  obtain ⟨rfl, _⟩ | ⟨rfl, _⟩ | ⟨rfl, _⟩ | ⟨rfl, _⟩ := hmem
  · rfl
  · rfl
  · rfl
  · rfl

theorem DoorInv.captureBuilt (h : DoorInv A n shown) :
    DoorInv A { n with capture := some { props := blankProps.merge (captureSeeds A) } } shown := by
  apply h.withCapture
  · simp
  · simp
  · intro c hc k hk
    obtain rfl := Option.mem_some_iff.mp hc
    left
    exact PropMap.merge_of_not_mem (captureSeeds_badge k hk) _

/-- A capture that is not bound has no answers. -/
theorem DoorInv.unbound_keys (h : DoorInv A n shown) {c : Capture} (hc : c ∈ n.capture)
    (hunbound : c.doorBound = false) (k : DoorKey) (hk : k.owner ≠ .badge) :
    c.props k = none ∨ c.props k = some [] := by
  obtain hnone | hempty | hin := h.core.keys c hc k hk
  · exact Or.inl hnone
  · exact Or.inr hempty
  · rw [h.core.unbound c hc hunbound] at hin
    exact absurd hin (by simp)

/-- A badge on a capture that is not the door. -/
theorem DoorInv.restamp (h : DoorInv A n shown) (hunbound : ∀ c ∈ n.capture, c.doorBound = false)
    {badge : List DoorSet} (howned : Owned .badge badge) :
    DoorInv A (sourcePublishLink n badge) shown := by
  apply h.withCapture
  · intro c hc
    obtain ⟨c', hc', rfl⟩ := Option.map_eq_some_iff.mp hc
    exact hunbound c' hc'
  · intro c hc
    obtain ⟨c', hc', rfl⟩ := Option.map_eq_some_iff.mp hc
    exact h.core.unbound c' hc' (hunbound c' hc')
  · intro c hc k hk
    obtain ⟨c', hc', rfl⟩ := Option.map_eq_some_iff.mp hc
    have hsame : c'.props.merge badge k = c'.props k := by
      apply PropMap.merge_of_not_mem
      intro v hv
      exact hk (howned (k, v) hv)
    show c'.props.merge badge k = none ∨ c'.props.merge badge k = some []
    rw [hsame]
    exact h.unbound_keys hc' (hunbound c' hc') k hk

/-- The shadows reset, and nothing else that is read here. -/
theorem DoorInv.reset (h : DoorInv A n shown) (drops : Nat) :
    DoorInv A { sinkDoorShadowsReset A n with linkDropsSeen := drops } shown := by
  apply h.shrink
  · exact fun m hm => hm
  · exact h.core.apart
  · exact h.core.keys
  · exact h.core.unbound
  · exact h.core.recorded
  · rfl
  · rfl
  · intro v hv
    exact absurd hv (by simp [sinkDoorShadowsReset])
  · intro v hv
    exact absurd hv (by simp [sinkDoorShadowsReset])

/-! ### The publishers -/

theorem DoorInv.publish [DecidableEq I] (h : DoorInv A n shown) (hsettled : n.Settled)
    (s : DoorSnap I) :
    DoorInv A (sinkPublish A n s).1 ((sinkPublish A n s).2.over shown) ∧
      (sinkPublish A n s).1.Settled := by
  obtain ⟨hcore, hnext⟩ := publish_core s h.core hsettled
  have hrest := publish_rest (A := A) s n
  have hbefore : (sinkPublish A n s).1.current.isSome = true →
      sinkHasDoor n = true ∧ n.current.isSome = true := by
    intro hdoor
    rw [← hasDoor_current hnext, hrest.hasDoor] at hdoor
    exact ⟨hdoor, by rw [← hasDoor_current hsettled]; exact hdoor⟩
  refine ⟨⟨?_, ?_, ?_⟩, hnext⟩
  · rw [hrest.mask, hrest.scope]
    exact hcore
  · intro hdoor v hv
    obtain ⟨hhas, hcurrent⟩ := hbefore hdoor
    have hspec := publish_spec (A := A) s hhas
    rw [hspec.role] at hv
    obtain rfl := Option.some.inj hv
    show (sinkPublish A n s).2.role.or shown.role = some (roleShadow s)
    rw [hspec.roleShown]
    split
    · rename_i hsame
      exact h.role hcurrent _ hsame.symm
    · rfl
  · intro hdoor v hv
    obtain ⟨hhas, hcurrent⟩ := hbefore hdoor
    have hspec := publish_spec (A := A) s hhas
    rw [hspec.headamp] at hv
    obtain rfl := Option.some.inj hv
    show (sinkPublish A n s).2.headamp.or shown.headamp = some (headampShadow A s)
    rw [hspec.headampShown]
    split
    · rename_i hsame
      exact h.headamp hcurrent _ hsame.symm
    · rfl

/-! ### A node becomes the door -/

theorem follows_iff : sinkDoorFollows n = true ↔
    n.stream = none ∧ ∃ c, n.capture = some c ∧ c.doorBound = false := by
  unfold sinkDoorFollows
  cases n.capture with
  | none => simp
  | some c => simp

/-- Nothing but the constants is shown on a new door. -/
theorem constants_stamps (mask : Nat) (scope : Text) :
    ({} : Shown I).stamps A mask scope =
      Function.update (fun _ => none) .constant (some (constantSets A)) := by
  funext o
  cases o with
  | constant => simp [Shown.stamps]
  | badge => simp [Shown.stamps]
  | link => simp [Shown.stamps]
  | rate => simp [Shown.stamps]
  | role => simp [Shown.stamps]
  | headamp => simp [Shown.stamps]
  | disco => simp [Shown.stamps]
  | health => simp [Shown.stamps]

theorem blank_stamps {mask : Nat} {scope : Text} {o : Owner} {sets : List DoorSet}
    (h : ({} : Shown I).stamps A mask scope o = some sets) :
    o = .constant ∧ sets = constantSets A := by
  rw [constants_stamps] at h
  by_cases ho : o = .constant
  · subst ho
    rw [Function.update_self] at h
    exact ⟨rfl, (Option.some.inj h).symm⟩
  · rw [Function.update_of_ne ho] at h
    exact absurd h (by simp)

/-- The capture bound, the shadows reset. -/
theorem DoorInv.follow (h : DoorInv A n shown) :
    DoorInv A (sinkDoorFollow A n) (if sinkDoorFollows n then {} else shown) ∧
      (sinkDoorFollow A n).Settled := by
  unfold sinkDoorFollow
  by_cases hfollows : sinkDoorFollows n = true
  · obtain ⟨hstream, c, hcapture, hunbound⟩ := follows_iff.mp hfollows
    rw [if_pos hfollows, if_pos hfollows]
    dsimp only
    obtain ⟨n', hn'⟩ : ∃ n' : DoorSink I, n' = sinkDoorShadowsReset A
        { n with capture := n.capture.map fun c => { c with doorBound := true } } := ⟨_, rfl⟩
    have hstream' : n'.stream = none := by rw [hn']; exact hstream
    have hcapture' : n'.capture = some { c with doorBound := true } := by
      rw [hn']
      simp [sinkDoorShadowsReset, hcapture]
    have hsettled : n'.Settled := by
      intro _ c' hc'
      rw [hcapture'] at hc'
      obtain rfl := Option.mem_some_iff.mp hc'
      rfl
    have hblank : DoorCore n' (fun _ => none) := by
      constructor
      · intro hsome
        exact absurd hsome (by simp [hstream'])
      · intro c' hc'
        rw [hcapture'] at hc'
        obtain rfl := Option.mem_some_iff.mp hc'
        exact h.core.keys c hcapture
      · intro c' hc' hfree
        rw [hcapture'] at hc'
        obtain rfl := Option.mem_some_iff.mp hc'
        exact absurd hfree (by simp)
      · intro c' hc'
        rw [hcapture'] at hc'
        obtain rfl := Option.mem_some_iff.mp hc'
        exact h.core.recorded c hcapture
      · intro o sets hsets
        exact absurd hsets (by simp)
      · intro m _ o sets hsets
        exact absurd hsets (by simp)
    have hcore := hblank.update hsettled (by simp) (constantSets_owned A) (by simp [constantSets])
    rw [← hn']
    refine ⟨⟨?_, ?_, ?_⟩, settled_update hsettled _⟩
    · rw [← constants_stamps n.drivableMask n.discoIfname] at hcore
      rw [update_drivableMask, update_discoIfname]
      have hmask : n'.drivableMask = n.drivableMask := by rw [hn']; rfl
      have hscope : n'.discoIfname = n.discoIfname := by rw [hn']; rfl
      rw [hmask, hscope]
      exact hcore
    · intro _ v hv
      rw [update_role, hn'] at hv
      exact absurd hv (by simp [sinkDoorShadowsReset])
    · intro _ v hv
      rw [update_headamp, hn'] at hv
      exact absurd hv (by simp [sinkDoorShadowsReset])
  · rw [if_neg hfollows, if_neg hfollows]
    refine ⟨h, ?_⟩
    intro hstream c hc
    by_contra hunbound
    exact hfollows (follows_iff.mpr ⟨hstream, c, hc, by simpa using hunbound⟩)

/-- Unbound, a capture has only empty values under a door's keys. -/
theorem unbind_keys {c : Capture} (h : ∀ k : DoorKey, k.owner ≠ .badge →
      c.props k = none ∨ c.props k = some [] ∨ k ∈ c.doorKeys) (k : DoorKey)
    (hk : k.owner ≠ .badge) : c.unbind.props k = none ∨ c.unbind.props k = some [] := by
  unfold Capture.unbind
  dsimp only
  by_cases hmem : k ∈ c.doorKeys
  · right
    have hset : (k, ([] : Text)) ∈ c.doorKeys.map fun k => (k, ([] : Text)) :=
      List.mem_map.mpr ⟨k, hmem, rfl⟩
    apply PropMap.merge_of_mem hset
    intro v hv
    obtain ⟨k', _, hkv⟩ := List.mem_map.mp hv
    exact (congrArg Prod.snd hkv).symm
  · have hsame : c.props.merge (c.doorKeys.map fun k => (k, [])) k = c.props k := by
      apply PropMap.merge_of_not_mem
      intro v hv
      obtain ⟨k', hk', hkv⟩ := List.mem_map.mp hv
      have hkk : k' = k := congrArg Prod.fst hkv
      exact hmem (hkk ▸ hk')
    rw [hsame]
    obtain hnone | hempty | hin := h k hk
    · exact Or.inl hnone
    · exact Or.inr hempty
    · exact absurd hin hmem

theorem playbackSeeds_constants (s : DoorSnap I) (scope : Text) :
    PropMap.Has (blankProps.merge (playbackSeeds A s scope)) (constantSets A) := by
  simp [PropMap.Has, constantSets, playbackSeeds, PropMap.merge, PropMap.set]

/-- A reac-playback is built, before anything is published on it. -/
theorem DoorInv.built (h : DoorInv A n shown) (node : BoxNode) (s : DoorSnap I) :
    DoorInv A
      { sinkDoorShadowsReset A n with
        linkDropsSeen := s.drops
        stream := some { node := node, props := blankProps.merge (playbackSeeds A s n.discoIfname) }
        capture := n.capture.map fun c => if c.doorBound then c.unbind else c } {} := by
  have hfree : ∀ c' ∈ n.capture.map (fun c : Capture => if c.doorBound then c.unbind else c),
      c'.doorBound = false ∧ c'.doorKeys = [] ∧ ∀ k : DoorKey, k.owner ≠ .badge →
        c'.props k = none ∨ c'.props k = some [] := by
    intro c' hc'
    obtain ⟨c, hc, rfl⟩ := Option.map_eq_some_iff.mp hc'
    by_cases hbound : c.doorBound = true
    · rw [if_pos hbound]
      exact ⟨rfl, rfl, unbind_keys (h.core.keys c hc)⟩
    · rw [if_neg hbound]
      have hunbound : c.doorBound = false := by simpa using hbound
      exact ⟨hunbound, h.core.unbound c hc hunbound, h.unbound_keys hc hunbound⟩
  refine ⟨⟨?_, ?_, ?_, ?_, ?_, ?_⟩, ?_, ?_⟩
  · intro _ c hc
    exact (hfree c hc).1
  · intro c hc k hk
    obtain hnone | hempty := (hfree c hc).2.2 k hk
    · exact Or.inl hnone
    · exact Or.inr (Or.inl hempty)
  · intro c hc _
    exact (hfree c hc).2.1
  · intro c hc k hk
    rw [(hfree c hc).2.1] at hk
    exact absurd hk (by simp)
  · intro o sets hsets
    obtain ⟨rfl, rfl⟩ := blank_stamps hsets
    exact constantSets_owned A
  · intro m hm o sets hsets
    obtain rfl := Option.mem_some_iff.mp hm
    obtain ⟨rfl, rfl⟩ := blank_stamps hsets
    exact playbackSeeds_constants s n.discoIfname
  · intro _ v hv
    exact absurd hv (by simp [sinkDoorShadowsReset])
  · intro _ v hv
    exact absurd hv (by simp [sinkDoorShadowsReset])

/-! ### The events -/

/-- A round of the health keys is no publisher's. -/
theorem DoorInv.health (h : DoorInv A n shown) (hsettled : n.Settled)
    (health : List (HealthKey × Text)) :
    DoorInv A (sinkDoorUpdate n (health.map fun k => (.health k.1, k.2))) shown ∧
      (sinkDoorUpdate n (health.map fun k => (.health k.1, k.2))).Settled := by
  have howned : Owned .health (health.map fun k => ((.health k.1, k.2) : DoorSet)) := by
    intro kv hkv
    obtain ⟨k, _, rfl⟩ := List.mem_map.mp hkv
    rfl
  have hsettled' := settled_update hsettled (health.map fun k => (.health k.1, k.2))
  have hbefore : (sinkDoorUpdate n (health.map fun k => (.health k.1, k.2))).current.isSome = true →
      n.current.isSome = true := by
    rw [← hasDoor_current hsettled', ← hasDoor_current hsettled, update_hasDoor]
    exact fun hdoor => hdoor
  refine ⟨⟨?_, ?_, ?_⟩, hsettled'⟩
  · rw [update_drivableMask, update_discoIfname]
    exact h.core.update_other hsettled (by simp) howned rfl
  · intro hdoor v hv
    rw [update_role] at hv
    exact h.role (hbefore hdoor) v hv
  · intro hdoor v hv
    rw [update_headamp] at hv
    exact h.headamp (hbefore hdoor) v hv

/-- **The log timer's spec**: the door follows, the five publish, and the health keys go
beside them. -/
theorem logTick_spec [DecidableEq I] (h : DoorInv A n shown) (s : DoorSnap I)
    (health : List (HealthKey × Text)) :
    DoorInv A (onLogTimer A n s health).1
        ((sinkPublish A (sinkDoorFollow A n) s).2.over
          (if sinkDoorFollows n then {} else shown)) ∧
      (onLogTimer A n s health).1.Settled := by
  obtain ⟨hfollow, hsettled⟩ := h.follow
  obtain ⟨hpublish, hsettled'⟩ := hfollow.publish hsettled s
  unfold onLogTimer
  dsimp only
  split
  · exact hpublish.health hsettled' health
  · exact ⟨hpublish, hsettled'⟩

theorem follow_rest (n : DoorSink I) : RestKept n (sinkDoorFollow A n) := by
  unfold sinkDoorFollow
  split
  · refine .update ?_ _
    exact ⟨rfl, by simp [sinkHasDoor, sinkDoorShadowsReset], rfl, rfl⟩
  · exact .refl n

theorem logTick_rest [DecidableEq I] (n : DoorSink I) (s : DoorSnap I)
    (health : List (HealthKey × Text)) : RestKept n (onLogTimer A n s health).1 := by
  have hrest := (follow_rest n).trans (publish_rest (A := A) s (sinkDoorFollow A n))
  unfold onLogTimer
  dsimp only
  split
  · exact hrest.update _
  · exact hrest

/-- A restamp is of the capture that was built in the same turn, and is not a door yet. -/
def DoorOrder (n : DoorSink I) : DoorEvent I → Prop
  | .restamp _ => ∀ c ∈ n.capture, c.doorBound = false
  | _ => True

instance (n : DoorSink I) (e : DoorEvent I) : Decidable (DoorOrder n e) :=
  match e with
  | .restamp _ => inferInstanceAs (Decidable (∀ c ∈ n.capture, c.doorBound = false))
  | .logTick _ _ => inferInstanceAs (Decidable True)
  | .ensure _ _ _ _ => inferInstanceAs (Decidable True)
  | .unpublish => inferInstanceAs (Decidable True)
  | .captureGone => inferInstanceAs (Decidable True)
  | .captureBuilt => inferInstanceAs (Decidable True)

/-- What a node has been shown since it became the door. -/
def DoorReport.since (r : DoorReport I) (shown : Shown I) : Shown I :=
  r.shown.over (if r.newDoor then {} else shown)

theorem over_blank (shown : Shown I) : shown.over {} = shown := by
  simp [Shown.over]

theorem since_idle {r : DoorReport I} (hnew : r.newDoor = false) (hshown : r.shown = {})
    (shown : Shown I) : r.since shown = shown := by
  simp [DoorReport.since, Shown.over, hnew, hshown]

/-- What `reac_sink_node_ensure` comes to: nothing, a node taken away, or a build. -/
theorem ensure_cases [DecidableEq I] (n : DoorSink I) (channels : Int) (label : Text)
    (s : DoorSnap I) (build : StreamBuild) :
    sinkNodeEnsure A n channels label s build = (n, {}) ∨
      sinkNodeEnsure A n channels label s build = (reacSinkNodeUnpublish n, {}) ∨
        ∃ node, sinkNodeEnsure A n channels label s build =
          sinkOpenFilter A (reacSinkNodeUnpublish n) node s build := by
  unfold sinkNodeEnsure
  obtain ⟨want, hwant⟩ : ∃ want,
      want = if reacMaxChannels < channels then reacMaxChannels else channels := ⟨_, rfl⟩
  dsimp only
  rw [← hwant]
  by_cases hneg : want < 0
  · rw [if_pos hneg]
    exact Or.inl rfl
  · rw [if_neg hneg]
    by_cases hzero : want = 0
    · rw [if_pos hzero]
      exact Or.inr (Or.inl rfl)
    · rw [if_neg hzero]
      by_cases hsame : (!reacNodeEnsureNeedsRebuild (n.stream.map (·.node))
          { channels := want, label := nodeLabel label }) = true
      · rw [if_pos hsame]
        exact Or.inl rfl
      · rw [if_neg hsame]
        exact Or.inr (Or.inr ⟨_, rfl⟩)

theorem openFilter_spec [DecidableEq I] (h : DoorInv A n shown) (node : BoxNode) (s : DoorSnap I)
    (build : StreamBuild) :
    DoorInv A (sinkOpenFilter A n node s build).1
      ((sinkOpenFilter A n node s build).2.since shown) := by
  cases build with
  | noStream =>
      rw [since_idle rfl rfl]
      exact h
  | noConnect =>
      rw [since_idle rfl rfl]
      exact h.reset s.drops
  | built =>
      apply (DoorInv.publish (h.built node s) _ s).1
      intro hnone
      exact absurd hnone (by simp)

theorem fresh_inv (id : I) (scope : Text) (mask : Nat) :
    DoorInv A (DoorSink.fresh A id scope mask) {} := by
  refine ⟨⟨?_, ?_, ?_, ?_, ?_, ?_⟩, ?_, ?_⟩
  · intro hsome
    exact absurd hsome (by simp [DoorSink.fresh])
  · intro c hc
    exact absurd hc (by simp [DoorSink.fresh])
  · intro c hc
    exact absurd hc (by simp [DoorSink.fresh])
  · intro c hc
    exact absurd hc (by simp [DoorSink.fresh])
  · intro o sets hsets
    obtain ⟨rfl, rfl⟩ := blank_stamps hsets
    exact constantSets_owned A
  · intro m hm
    exact absurd hm (by simp [DoorSink.fresh, DoorSink.current])
  · intro hdoor
    exact absurd hdoor (by simp [DoorSink.fresh, DoorSink.current])
  · intro hdoor
    exact absurd hdoor (by simp [DoorSink.fresh, DoorSink.current])

end ReacPw
