/-
What a segment's door carries.

Every key has an owner, and what one publisher merges leaves the keys of the others
alone; so a door has the whole of what each publisher stamped on it last, `shown`.
`DoorInv` says that of the current door, reac-playback or a bound reac-capture, and
that a capture has nothing under a door's keys once it is unbound.  It holds of every
run (`doorInv_run`).

What is left is the guards.  The role's and the head-amp's compare all they render.
The link's does not compare the head-amp base or what stands at the row's address, the
discovery's does not compare the device list or the refusal, and the values a reset
gives the link's and the rate's shadows are live answers.  Where a guard suppresses one
of those changes, a key is stale or missing; where it does not, the door is right.
-/
import ReacPw.Door

namespace ReacPw

/-! ### Owners -/

inductive Owner where
  | badge
  | link
  | rate
  | role
  | headamp
  | disco
  | constant
  | health
  deriving DecidableEq, Repr

def DoorKey.owner : DoorKey → Owner
  | .badge _ => .badge
  | .link _ => .link
  | .rate _ => .rate
  | .role _ => .role
  | .headamp _ => .headamp
  | .disco _ => .disco
  | .constant _ => .constant
  | .health _ => .health

/-- Every key of an update is one owner's. -/
def Owned (o : Owner) (sets : List DoorSet) : Prop := ∀ kv ∈ sets, kv.1.owner = o

variable {I : Type} (A : DoorApi I)

theorem badgeSets_owned (ls : Nat) (row : Option BoxRow) (mac : Nat) (id : I) :
    Owned .badge (badgeSets A ls row mac id) := by
  simp [Owned, badgeSets, DoorKey.owner]

theorem linkSets_owned (v : LinkView I) : Owned .link (linkSets A v) := by
  simp [Owned, linkSets, DoorKey.owner]

theorem rateSets_owned (mask : Nat) (v : RateShadow) : Owned .rate (rateSets A mask v) := by
  simp [Owned, rateSets, DoorKey.owner]

theorem roleSets_owned (v : RoleShadow) : Owned .role (roleSets A v) := by
  simp [Owned, roleSets, DoorKey.owner]

theorem headampSets_owned (v : HeadampShadow) : Owned .headamp (headampSets A v) := by
  simp [Owned, headampSets, DoorKey.owner]

theorem discoSets_owned (scope : Text) (v : DiscoView) : Owned .disco (discoSets A scope v) := by
  simp [Owned, discoSets, DoorKey.owner]

theorem constantSets_owned : Owned .constant (constantSets A) := by
  simp [Owned, constantSets, DoorKey.owner]

/-- An update of another owner leaves what a map has. -/
theorem has_other {m : NodeProps} {sets more : List DoorSet} {o o' : Owner}
    (h : PropMap.Has m sets) (hsets : Owned o sets) (hmore : Owned o' more) (hne : o' ≠ o) :
    PropMap.Has (m.merge more) sets := by
  apply h.merge
  intro kv hkv kv' hkv' hsame
  have howner := hmore kv' hkv'
  rw [hsame, hsets kv hkv] at howner
  exact hne howner.symm

/-! ### The current door -/

/-- The properties of the door: reac-playback's, or those of a bound reac-capture. -/
def DoorSink.current (n : DoorSink I) : Option NodeProps :=
  match n.stream with
  | some p => some p.props
  | none => (n.capture.filter (·.doorBound)).map (·.props)

/-- The door is reac-playback, or the capture is bound. -/
def DoorSink.Settled (n : DoorSink I) : Prop :=
  n.stream = none → ∀ c ∈ n.capture, c.doorBound = true

theorem settled_update {n : DoorSink I} (h : n.Settled) (sets : List DoorSet) :
    (sinkDoorUpdate n sets).Settled := by
  unfold sinkDoorUpdate
  cases hstream : n.stream with
  | some p =>
      intro hnone
      exact absurd hnone (by simp)
  | none =>
      intro _ c hc
      obtain ⟨c', hc', rfl⟩ := Option.map_eq_some_iff.mp hc
      exact h hstream c' hc'

/-- **An update reaches the current door.** -/
theorem current_update {n : DoorSink I} (h : n.Settled) (sets : List DoorSet) :
    (sinkDoorUpdate n sets).current = n.current.map (·.merge sets) := by
  unfold sinkDoorUpdate DoorSink.current
  cases hstream : n.stream with
  | some p => rfl
  | none =>
      cases hcapture : n.capture with
      | none => rfl
      | some c =>
          have hbound : c.doorBound = true := h hstream c hcapture
          simp [Option.filter_some, hbound]

theorem hasDoor_current {n : DoorSink I} (h : n.Settled) :
    sinkHasDoor n = n.current.isSome := by
  unfold sinkHasDoor DoorSink.current
  cases hstream : n.stream with
  | some p => rfl
  | none =>
      cases hcapture : n.capture with
      | none => rfl
      | some c =>
          have hbound : c.doorBound = true := h hstream c hcapture
          simp [Option.filter_some, hbound]

theorem sinkDoorUpdate_append (n : DoorSink I) (sets more : List DoorSet) :
    sinkDoorUpdate n (sets ++ more) = sinkDoorUpdate (sinkDoorUpdate n sets) more := by
  unfold sinkDoorUpdate
  cases n.stream with
  | some p => simp [PropMap.merge_append]
  | none => simp [PropMap.merge_append, Function.comp_def]

theorem update_stream_none {n : DoorSink I} (h : n.stream = none) (sets : List DoorSet) :
    (sinkDoorUpdate n sets).stream = none := by
  unfold sinkDoorUpdate
  rw [h]

theorem settled_badge {n : DoorSink I} (h : n.Settled) (badge : List DoorSet) :
    (sourcePublishLink n badge).Settled := by
  intro hnone c hc
  obtain ⟨c', hc', rfl⟩ := Option.map_eq_some_iff.mp hc
  exact h hnone c' hc'

/-! ### What was stamped -/

/-- What each owner's keys were stamped with last. -/
abbrev Stamps := Owner → Option (List DoorSet)

/-- The stamps of what was `shown`; the constants are on a door from its first moment. -/
def Shown.stamps (mask : Nat) (scope : Text) (shown : Shown I) : Stamps
  | .badge => shown.link.map fun v => v.badge A
  | .link => shown.link.map (linkSets A)
  | .rate => shown.rate.map (rateSets A mask)
  | .role => shown.role.map (roleSets A)
  | .headamp => shown.headamp.map (headampSets A)
  | .disco => shown.disco.map (discoSets A scope)
  | .constant => some (constantSets A)
  | .health => none

/-- What holds of the two nodes, and of what was stamped on the current door. -/
structure DoorCore (n : DoorSink I) (stamps : Stamps) : Prop where
  /-- One write door. -/
  apart : n.stream.isSome = true → ∀ c ∈ n.capture, c.doorBound = false
  /-- A capture has no answer under a key that is not its badge's or recorded. -/
  keys : ∀ c ∈ n.capture, ∀ k : DoorKey, k.owner ≠ .badge →
    c.props k = none ∨ c.props k = some [] ∨ k ∈ c.doorKeys
  unbound : ∀ c ∈ n.capture, c.doorBound = false → c.doorKeys = []
  /-- The badge never goes to a capture as a door's update. -/
  recorded : ∀ c ∈ n.capture, ∀ k ∈ c.doorKeys, k.owner ≠ .badge
  owned : ∀ o sets, stamps o = some sets → Owned o sets
  has : ∀ m ∈ n.current, ∀ o sets, stamps o = some sets → PropMap.Has m sets

/-! ### One update -/

section
variable {n n' : DoorSink I} {stamps : Stamps}

/-- The shadows have no part in it. -/
theorem DoorCore.congr (h : DoorCore n stamps) (hstream : n'.stream = n.stream)
    (hcapture : n'.capture = n.capture) : DoorCore n' stamps := by
  have hcurrent : n'.current = n.current := by
    unfold DoorSink.current
    rw [hstream, hcapture]
  constructor
  · rw [hstream, hcapture]
    exact h.apart
  · rw [hcapture]
    exact h.keys
  · rw [hcapture]
    exact h.unbound
  · rw [hcapture]
    exact h.recorded
  · exact h.owned
  · rw [hcurrent]
    exact h.has

theorem merge_keys {m : NodeProps} {keys : List DoorKey} (sets : List DoorSet)
    (h : ∀ k : DoorKey, k.owner ≠ .badge → m k = none ∨ m k = some [] ∨ k ∈ keys) (k : DoorKey)
    (hk : k.owner ≠ .badge) :
    m.merge sets k = none ∨ m.merge sets k = some [] ∨ k ∈ keys ++ sets.map Prod.fst := by
  by_cases hmem : k ∈ sets.map Prod.fst
  · exact Or.inr (Or.inr (List.mem_append_right _ hmem))
  · have hsame : m.merge sets k = m k := by
      apply PropMap.merge_of_not_mem
      intro v hv
      exact hmem (List.mem_map_of_mem hv)
    rw [hsame]
    obtain hnone | hempty | hin := h k hk
    · exact Or.inl hnone
    · exact Or.inr (Or.inl hempty)
    · exact Or.inr (Or.inr (List.mem_append_left _ hin))

/-- A map that takes one owner's update. -/
theorem has_stamped {m : NodeProps} {o : Owner} {sets : List DoorSet}
    (hstamps : ∀ o sets, stamps o = some sets → Owned o sets)
    (hhas : ∀ o sets, stamps o = some sets → PropMap.Has m sets) (howned : Owned o sets)
    (hnodup : (sets.map Prod.fst).Nodup) (o' : Owner) (sets' : List DoorSet)
    (hsets' : Function.update stamps o (some sets) o' = some sets') :
    PropMap.Has (m.merge sets) sets' := by
  by_cases ho : o' = o
  · subst ho
    rw [Function.update_self] at hsets'
    obtain rfl := Option.some.inj hsets'
    exact PropMap.has_merge hnodup m
  · rw [Function.update_of_ne ho] at hsets'
    exact has_other (hhas o' sets' hsets') (hstamps o' sets' hsets') howned (Ne.symm ho)

theorem owned_stamped {o : Owner} {sets : List DoorSet}
    (hstamps : ∀ o sets, stamps o = some sets → Owned o sets) (howned : Owned o sets) (o' : Owner)
    (sets' : List DoorSet) (hsets' : Function.update stamps o (some sets) o' = some sets') :
    Owned o' sets' := by
  by_cases ho : o' = o
  · subst ho
    rw [Function.update_self] at hsets'
    obtain rfl := Option.some.inj hsets'
    exact howned
  · rw [Function.update_of_ne ho] at hsets'
    exact hstamps o' sets' hsets'

/-- An update of the door, and stamps it leaves true. -/
theorem DoorCore.merge (h : DoorCore n stamps) (hsettled : n.Settled) {stamps' : Stamps}
    (sets : List DoorSet) (hplain : n.stream = none → ∀ kv ∈ sets, kv.1.owner ≠ .badge)
    (howned : ∀ o sets, stamps' o = some sets → Owned o sets)
    (hhas : ∀ m ∈ n.current, ∀ o sets', stamps' o = some sets' → PropMap.Has (m.merge sets) sets') :
    DoorCore (sinkDoorUpdate n sets) stamps' := by
  have hcurrent := current_update hsettled sets
  constructor
  · unfold sinkDoorUpdate
    cases hstream : n.stream with
    | some p =>
        intro _ c hc
        exact h.apart (by simp [hstream]) c hc
    | none =>
        intro hsome
        exact absurd hsome (by simp)
  · unfold sinkDoorUpdate
    cases hstream : n.stream with
    | some p => exact h.keys
    | none =>
        intro c hc
        obtain ⟨c', hc', rfl⟩ := Option.map_eq_some_iff.mp hc
        exact merge_keys sets (h.keys c' hc')
  · unfold sinkDoorUpdate
    cases hstream : n.stream with
    | some p => exact h.unbound
    | none =>
        intro c hc hunbound
        obtain ⟨c', hc', rfl⟩ := Option.map_eq_some_iff.mp hc
        have hunbound : c'.doorBound = false := hunbound
        exact absurd (hsettled hstream c' hc') (by simp [hunbound])
  · unfold sinkDoorUpdate
    cases hstream : n.stream with
    | some p => exact h.recorded
    | none =>
        intro c hc k hk
        obtain ⟨c', hc', rfl⟩ := Option.map_eq_some_iff.mp hc
        obtain hold | hnew := List.mem_append.mp hk
        · exact h.recorded c' hc' k hold
        · obtain ⟨kv, hkv, rfl⟩ := List.mem_map.mp hnew
          exact hplain hstream kv hkv
  · exact howned
  · intro m hm
    rw [hcurrent] at hm
    obtain ⟨m', hm', rfl⟩ := Option.map_eq_some_iff.mp hm
    exact hhas m' hm'

/-- **An update by one owner**: what the others stamped stays, and the door has the update. -/
theorem DoorCore.update (h : DoorCore n stamps) (hsettled : n.Settled) {o : Owner}
    {sets : List DoorSet} (hplain : n.stream = none → o ≠ .badge) (howned : Owned o sets)
    (hnodup : (sets.map Prod.fst).Nodup) :
    DoorCore (sinkDoorUpdate n sets) (Function.update stamps o (some sets)) := by
  apply h.merge hsettled
  · intro hstream kv hkv
    rw [howned kv hkv]
    exact hplain hstream
  · exact owned_stamped h.owned howned
  · intro m hm
    exact has_stamped h.owned (h.has m hm) howned hnodup

/-- An update by an owner of no stamps. -/
theorem DoorCore.update_other (h : DoorCore n stamps) (hsettled : n.Settled) {o : Owner}
    {sets : List DoorSet} (hplain : o ≠ .badge) (howned : Owned o sets) (hnone : stamps o = none) :
    DoorCore (sinkDoorUpdate n sets) stamps := by
  have hsets : ∀ kv ∈ sets, kv.1.owner ≠ .badge := by
    intro kv hkv
    rw [howned kv hkv]
    exact hplain
  apply h.merge hsettled sets (fun _ => hsets) h.owned
  intro m hm o' sets' hsets'
  apply has_other (h.has m hm o' sets' hsets') (h.owned o' sets' hsets') howned
  rintro rfl
  rw [hnone] at hsets'
  exact absurd hsets' (by simp)

/-- A badge on reac-capture: its own door's, if it is the door. -/
theorem DoorCore.badge (h : DoorCore n stamps) {sets : List DoorSet} (howned : Owned .badge sets)
    (hnodup : (sets.map Prod.fst).Nodup)
    (hstream : ∀ p ∈ n.stream, stamps .badge = some sets) :
    DoorCore (sourcePublishLink n sets) (Function.update stamps .badge (some sets)) := by
  constructor
  · intro hsome c hc
    obtain ⟨c', hc', rfl⟩ := Option.map_eq_some_iff.mp hc
    exact h.apart hsome c' hc'
  · intro c hc k hk
    obtain ⟨c', hc', rfl⟩ := Option.map_eq_some_iff.mp hc
    have hsame : c'.props.merge sets k = c'.props k := by
      apply PropMap.merge_of_not_mem
      intro v hv
      exact hk (howned (k, v) hv)
    show c'.props.merge sets k = none ∨ c'.props.merge sets k = some [] ∨ k ∈ c'.doorKeys
    rw [hsame]
    exact h.keys c' hc' k hk
  · intro c hc hunbound
    obtain ⟨c', hc', rfl⟩ := Option.map_eq_some_iff.mp hc
    exact h.unbound c' hc' hunbound
  · intro c hc
    obtain ⟨c', hc', rfl⟩ := Option.map_eq_some_iff.mp hc
    exact h.recorded c' hc'
  · exact owned_stamped h.owned howned
  · intro m hm
    cases hs : n.stream with
    | some p =>
        have hm' : m ∈ n.current := by
          unfold DoorSink.current at hm ⊢
          simpa [sourcePublishLink, hs] using hm
        have hsame : Function.update stamps .badge (some sets) = stamps := by
          rw [← hstream p hs, Function.update_eq_self]
        rw [hsame]
        exact h.has m hm'
    | none =>
        cases hc : n.capture with
        | none =>
            unfold DoorSink.current at hm
            simp [sourcePublishLink, hs, hc] at hm
        | some c =>
            unfold DoorSink.current at hm
            simp only [sourcePublishLink, hs, hc, Option.map_some] at hm
            by_cases hbound : c.doorBound = true
            · simp only [Option.filter_some, hbound, if_true, Option.map_some,
                Option.mem_some_iff] at hm
              subst hm
              apply has_stamped h.owned _ howned hnodup
              apply h.has
              unfold DoorSink.current
              simp [hs, hc, Option.filter_some, hbound]
            · simp [Option.filter_some, hbound] at hm

end

/-! ### What an update leaves alone -/

section
variable (n : DoorSink I) (sets : List DoorSet)

/-- Only the two nodes change. -/
theorem update_frame : sinkDoorUpdate n sets =
    { n with stream := (sinkDoorUpdate n sets).stream,
             capture := (sinkDoorUpdate n sets).capture } := by
  unfold sinkDoorUpdate
  cases n.stream with
  | some p => rfl
  | none => rfl

@[simp] theorem update_linkDropsSeen : (sinkDoorUpdate n sets).linkDropsSeen = n.linkDropsSeen := by
  rw [update_frame]

@[simp] theorem update_link : (sinkDoorUpdate n sets).link = n.link := by
  rw [update_frame]

@[simp] theorem update_rate : (sinkDoorUpdate n sets).rate = n.rate := by
  rw [update_frame]

@[simp] theorem update_role : (sinkDoorUpdate n sets).role = n.role := by
  rw [update_frame]

@[simp] theorem update_headamp : (sinkDoorUpdate n sets).headamp = n.headamp := by
  rw [update_frame]

@[simp] theorem update_disco : (sinkDoorUpdate n sets).disco = n.disco := by
  rw [update_frame]

@[simp] theorem update_discoIfname : (sinkDoorUpdate n sets).discoIfname = n.discoIfname := by
  rw [update_frame]

@[simp] theorem update_drivableMask : (sinkDoorUpdate n sets).drivableMask = n.drivableMask := by
  rw [update_frame]

@[simp] theorem update_stream : (sinkDoorUpdate n sets).stream.isSome = n.stream.isSome := by
  unfold sinkDoorUpdate
  cases n.stream with
  | some p => rfl
  | none => rfl

@[simp] theorem update_hasDoor : sinkHasDoor (sinkDoorUpdate n sets) = sinkHasDoor n := by
  unfold sinkDoorUpdate sinkHasDoor
  cases n.stream with
  | some p => rfl
  | none => simp

end

/-! ### The publishers -/

/-- The stamps once an owner has stamped, if it did. -/
def stamped (stamps : Stamps) (o : Owner) : Option (List DoorSet) → Stamps
  | some sets => Function.update stamps o (some sets)
  | none => stamps

theorem stamped_other {stamps : Stamps} {o o' : Owner} (h : o' ≠ o)
    (sets : Option (List DoorSet)) : stamped stamps o sets o' = stamps o' := by
  cases sets with
  | none => rfl
  | some sets => exact Function.update_of_ne h _ _

section
variable {A} {n : DoorSink I} {stamps : Stamps} (s : DoorSnap I)

/-- A publisher that stamps, whatever it did to its shadow. -/
theorem update_keeps (h : DoorCore n stamps) (hsettled : n.Settled) {n' : DoorSink I} {o : Owner}
    {sets : List DoorSet} (hstream : n'.stream = n.stream) (hcapture : n'.capture = n.capture)
    (hplain : n.stream = none → o ≠ .badge) (howned : Owned o sets) (hnodup : (sets.map Prod.fst).Nodup) :
    DoorCore (sinkDoorUpdate n' sets) (stamped stamps o (some sets)) ∧
      (sinkDoorUpdate n' sets).Settled := by
  have hsettled' : n'.Settled := by
    unfold DoorSink.Settled
    rw [hstream, hcapture]
    exact hsettled
  exact ⟨(h.congr hstream hcapture).update hsettled' (hstream ▸ hplain) howned hnodup,
    settled_update hsettled' _⟩

theorem rate_core (h : DoorCore n stamps) (hsettled : n.Settled) :
    DoorCore (sinkPublishRateProps A n s).1
      (stamped stamps .rate ((sinkPublishRateProps A n s).2.map (rateSets A n.drivableMask))) ∧
    (sinkPublishRateProps A n s).1.Settled := by
  unfold sinkPublishRateProps
  split
  · exact ⟨h, hsettled⟩
  · split
    · exact ⟨h, hsettled⟩
    · apply update_keeps h hsettled
      · rfl
      · rfl
      · simp
      · exact rateSets_owned A _ _
      · simp [rateSets]

theorem role_core (h : DoorCore n stamps) (hsettled : n.Settled) :
    DoorCore (sinkPublishRoleProps A n s).1
      (stamped stamps .role ((sinkPublishRoleProps A n s).2.map (roleSets A))) ∧
    (sinkPublishRoleProps A n s).1.Settled := by
  unfold sinkPublishRoleProps
  split
  · exact ⟨h, hsettled⟩
  · split
    · exact ⟨h, hsettled⟩
    · apply update_keeps h hsettled
      · rfl
      · rfl
      · simp
      · exact roleSets_owned A _
      · simp [roleSets]

theorem headamp_core (h : DoorCore n stamps) (hsettled : n.Settled) :
    DoorCore (sinkPublishHeadampProps A n s).1
      (stamped stamps .headamp ((sinkPublishHeadampProps A n s).2.map (headampSets A))) ∧
    (sinkPublishHeadampProps A n s).1.Settled := by
  unfold sinkPublishHeadampProps
  split
  · exact ⟨h, hsettled⟩
  · split
    · exact ⟨h, hsettled⟩
    · apply update_keeps h hsettled
      · rfl
      · rfl
      · simp
      · exact headampSets_owned A _
      · simp [headampSets]

theorem disco_core (h : DoorCore n stamps) (hsettled : n.Settled) :
    DoorCore (sinkPublishDiscoProps A n s).1
      (stamped stamps .disco ((sinkPublishDiscoProps A n s).2.map (discoSets A n.discoIfname))) ∧
    (sinkPublishDiscoProps A n s).1.Settled := by
  unfold sinkPublishDiscoProps
  split
  · exact ⟨h, hsettled⟩
  · split
    · exact ⟨h, hsettled⟩
    · split
      · exact ⟨h, hsettled⟩
      · rename_i devices _
        have hnodup : ((discoSets A n.discoIfname (discoView A s devices)).map Prod.fst).Nodup := by
          simp [discoSets]
        obtain ⟨hcore, hnext⟩ := update_keeps h hsettled rfl rfl (by simp)
          (discoSets_owned A _ _) hnodup
        exact ⟨hcore.congr rfl rfl, hnext⟩

theorem link_core [DecidableEq I] (h : DoorCore n stamps) (hsettled : n.Settled) :
    DoorCore (sinkPublishLinkProps A n s).1
      (stamped (stamped stamps .link ((sinkPublishLinkProps A n s).2.map (linkSets A))) .badge
        ((sinkPublishLinkProps A n s).2.map fun v => v.badge A)) ∧
    (sinkPublishLinkProps A n s).1.Settled := by
  unfold sinkPublishLinkProps
  dsimp only
  split
  · exact ⟨h.congr rfl rfl, hsettled⟩
  · obtain ⟨v, hv⟩ : ∃ v, v = n.linkView A s := ⟨_, rfl⟩
    obtain ⟨n', hn'⟩ : ∃ n' : DoorSink I, n' =
        { n with linkDropsSeen := s.drops, link := n.linkShadow A s } := ⟨_, rfl⟩
    have hstream : n'.stream = n.stream := by rw [hn']
    have hcapture : n'.capture = n.capture := by rw [hn']
    rw [← hv]
    show DoorCore (sourcePublishLink (match n.stream with
          | some _ => sinkDoorUpdate _ (linkSets A v ++ v.badge A)
          | none => sinkDoorUpdate _ (linkSets A v)) (v.badge A)) _ ∧
      (sourcePublishLink (match n.stream with
          | some _ => sinkDoorUpdate _ (linkSets A v ++ v.badge A)
          | none => sinkDoorUpdate _ (linkSets A v)) (v.badge A)).Settled
    rw [← hn']
    obtain ⟨hlink, hlinkSettled⟩ := update_keeps h hsettled hstream hcapture (by simp)
      (linkSets_owned A v) (by simp [linkSets])
    have hnodup : ((v.badge A).map Prod.fst).Nodup := by simp [LinkView.badge, badgeSets]
    have howned : Owned .badge (v.badge A) := badgeSets_owned A _ _ _ _
    cases hs : n.stream with
    | some p =>
        dsimp only
        rw [sinkDoorUpdate_append]
        have hplain : (sinkDoorUpdate n' (linkSets A v)).stream = none → Owner.badge ≠ .badge := by
          intro hnone
          have hsome := update_stream n' (linkSets A v)
          rw [hnone, hstream, hs] at hsome
          exact absurd hsome (by simp)
        obtain ⟨hboth, hbothSettled⟩ := update_keeps hlink hlinkSettled rfl rfl hplain howned
          hnodup
        have hbadge := hboth.badge howned hnodup (by simp [stamped])
        refine ⟨?_, settled_badge hbothSettled _⟩
        simpa [stamped] using hbadge
    | none =>
        dsimp only
        refine ⟨?_, settled_badge hlinkSettled _⟩
        apply hlink.badge howned hnodup
        intro p hp
        rw [update_stream_none (hstream.trans hs)] at hp
        exact absurd hp (by simp)

/-! ### What a publisher leaves alone -/

/-- The rest of a sink, as a later publisher reads it. -/
structure RestKept (n n' : DoorSink I) : Prop where
  stream : n'.stream.isSome = n.stream.isSome
  hasDoor : sinkHasDoor n' = sinkHasDoor n
  mask : n'.drivableMask = n.drivableMask
  scope : n'.discoIfname = n.discoIfname

theorem RestKept.refl (n : DoorSink I) : RestKept n n := ⟨rfl, rfl, rfl, rfl⟩

theorem RestKept.trans {n n' n'' : DoorSink I} (h : RestKept n n') (h' : RestKept n' n'') :
    RestKept n n'' :=
  ⟨h'.stream.trans h.stream, h'.hasDoor.trans h.hasDoor, h'.mask.trans h.mask, h'.scope.trans h.scope⟩

/-- The door is stamped, on a sink whose rest is kept. -/
theorem RestKept.update {n n' : DoorSink I} (h : RestKept n n') (sets : List DoorSet) :
    RestKept n (sinkDoorUpdate n' sets) where
  stream := (update_stream n' sets).trans h.stream
  hasDoor := (update_hasDoor n' sets).trans h.hasDoor
  mask := (update_drivableMask n' sets).trans h.mask
  scope := (update_discoIfname n' sets).trans h.scope

/-- The link publisher's two ways: only the drops are noted, or both nodes are stamped. -/
theorem link_publish [DecidableEq I] (n : DoorSink I) :
    (n.peerBlank = false ∧ n.linkShadow A s = n.link ∧
        sinkPublishLinkProps A n s = ({ n with linkDropsSeen := s.drops }, none)) ∨
      ∃ sets, sinkPublishLinkProps A n s =
        (sourcePublishLink
          (sinkDoorUpdate { n with linkDropsSeen := s.drops, link := n.linkShadow A s } sets)
          ((n.linkView A s).badge A), some (n.linkView A s)) := by
  unfold sinkPublishLinkProps
  dsimp only
  split
  · rename_i hsame
    have hguard : n.peerBlank = false ∧ n.linkShadow A s = n.link := by
      simpa [DoorSink.peerBlank] using hsame
    exact Or.inl ⟨hguard.1, hguard.2, rfl⟩
  · right
    split
    · exact ⟨_, rfl⟩
    · exact ⟨_, rfl⟩

theorem link_rest [DecidableEq I] (n : DoorSink I) :
    RestKept n (sinkPublishLinkProps A n s).1 ∧
      (sinkPublishLinkProps A n s).1.rate = n.rate ∧ (sinkPublishLinkProps A n s).1.role = n.role ∧
      (sinkPublishLinkProps A n s).1.headamp = n.headamp ∧
      (sinkPublishLinkProps A n s).1.disco = n.disco := by
  obtain ⟨_, _, h⟩ | ⟨sets, h⟩ := link_publish (A := A) s n
  · rw [h]
    exact ⟨⟨rfl, rfl, rfl, rfl⟩, rfl, rfl, rfl, rfl⟩
  · rw [h]
    refine ⟨⟨?_, ?_, ?_, ?_⟩, ?_, ?_, ?_, ?_⟩
    · exact update_stream _ _
    · have hbadge : ∀ (m : DoorSink I) (badge : List DoorSet),
          sinkHasDoor (sourcePublishLink m badge) = sinkHasDoor m := by
        intro m badge
        simp [sinkHasDoor, sourcePublishLink]
      rw [hbadge]
      exact update_hasDoor _ _
    · exact update_drivableMask _ _
    · exact update_discoIfname _ _
    · exact update_rate _ _
    · exact update_role _ _
    · exact update_headamp _ _
    · exact update_disco _ _

theorem rate_rest (n : DoorSink I) :
    RestKept n (sinkPublishRateProps A n s).1 ∧ (sinkPublishRateProps A n s).1.link = n.link ∧
      (sinkPublishRateProps A n s).1.role = n.role ∧
      (sinkPublishRateProps A n s).1.headamp = n.headamp ∧
      (sinkPublishRateProps A n s).1.disco = n.disco := by
  unfold sinkPublishRateProps
  split
  · exact ⟨.refl n, rfl, rfl, rfl, rfl⟩
  · split
    · exact ⟨.refl n, rfl, rfl, rfl, rfl⟩
    · refine ⟨.update ?_ _, update_link _ _, update_role _ _, update_headamp _ _,
        update_disco _ _⟩
      exact ⟨rfl, rfl, rfl, rfl⟩

theorem role_rest (n : DoorSink I) :
    RestKept n (sinkPublishRoleProps A n s).1 ∧ (sinkPublishRoleProps A n s).1.link = n.link ∧
      (sinkPublishRoleProps A n s).1.rate = n.rate ∧
      (sinkPublishRoleProps A n s).1.headamp = n.headamp ∧
      (sinkPublishRoleProps A n s).1.disco = n.disco := by
  unfold sinkPublishRoleProps
  split
  · exact ⟨.refl n, rfl, rfl, rfl, rfl⟩
  · split
    · exact ⟨.refl n, rfl, rfl, rfl, rfl⟩
    · refine ⟨.update ?_ _, update_link _ _, update_rate _ _, update_headamp _ _,
        update_disco _ _⟩
      exact ⟨rfl, rfl, rfl, rfl⟩

theorem headamp_rest (n : DoorSink I) :
    RestKept n (sinkPublishHeadampProps A n s).1 ∧
      (sinkPublishHeadampProps A n s).1.link = n.link ∧
      (sinkPublishHeadampProps A n s).1.rate = n.rate ∧
      (sinkPublishHeadampProps A n s).1.role = n.role ∧
      (sinkPublishHeadampProps A n s).1.disco = n.disco := by
  unfold sinkPublishHeadampProps
  split
  · exact ⟨.refl n, rfl, rfl, rfl, rfl⟩
  · split
    · exact ⟨.refl n, rfl, rfl, rfl, rfl⟩
    · refine ⟨.update ?_ _, update_link _ _, update_rate _ _, update_role _ _,
        update_disco _ _⟩
      exact ⟨rfl, rfl, rfl, rfl⟩

theorem disco_rest (n : DoorSink I) :
    RestKept n (sinkPublishDiscoProps A n s).1 ∧ (sinkPublishDiscoProps A n s).1.link = n.link ∧
      (sinkPublishDiscoProps A n s).1.rate = n.rate ∧
      (sinkPublishDiscoProps A n s).1.role = n.role ∧
      (sinkPublishDiscoProps A n s).1.headamp = n.headamp := by
  unfold sinkPublishDiscoProps
  split
  · exact ⟨.refl n, rfl, rfl, rfl, rfl⟩
  · split
    · exact ⟨.refl n, rfl, rfl, rfl, rfl⟩
    · split
      · exact ⟨.refl n, rfl, rfl, rfl, rfl⟩
      · have hstamped := (RestKept.refl n).update
        exact ⟨⟨(hstamped _).stream, (hstamped _).hasDoor, (hstamped _).mask, (hstamped _).scope⟩,
          update_link _ _, update_rate _ _, update_role _ _, update_headamp _ _⟩

/-! ### What a publisher leaves in its shadow, and shows -/

theorem link_shadow [DecidableEq I] (n : DoorSink I) :
    (sinkPublishLinkProps A n s).1.link = n.linkShadow A s ∧
      (sinkPublishLinkProps A n s).2 =
        if n.peerBlank = false ∧ n.linkShadow A s = n.link then none
        else some (n.linkView A s) := by
  unfold sinkPublishLinkProps
  dsimp only
  split
  · rename_i hsame
    have hguard : n.peerBlank = false ∧ n.linkShadow A s = n.link := by
      simpa [DoorSink.peerBlank] using hsame
    rw [if_pos hguard]
    exact ⟨hguard.2.symm, rfl⟩
  · rename_i hnot
    have hguard : ¬(n.peerBlank = false ∧ n.linkShadow A s = n.link) := by
      simpa [DoorSink.peerBlank] using hnot
    rw [if_neg hguard]
    split
    · exact ⟨update_link _ _, rfl⟩
    · exact ⟨update_link _ _, rfl⟩

theorem rate_shadow {n : DoorSink I} (hdoor : sinkHasDoor n = true) :
    (sinkPublishRateProps A n s).1.rate = rateShadow s ∧
      (sinkPublishRateProps A n s).2 =
        if rateShadow s = n.rate then none else some (rateShadow s) := by
  unfold sinkPublishRateProps
  simp only [hdoor, Bool.not_true, Bool.false_eq_true, if_false]
  split
  · rename_i hsame
    exact ⟨hsame.symm, rfl⟩
  · exact ⟨update_rate _ _, rfl⟩

theorem role_shadow {n : DoorSink I} (hdoor : sinkHasDoor n = true) :
    (sinkPublishRoleProps A n s).1.role = some (roleShadow s) ∧
      (sinkPublishRoleProps A n s).2 =
        if some (roleShadow s) = n.role then none else some (roleShadow s) := by
  unfold sinkPublishRoleProps
  simp only [hdoor, Bool.not_true, Bool.false_eq_true, if_false]
  split
  · rename_i hsame
    exact ⟨hsame.symm, rfl⟩
  · exact ⟨update_role _ _, rfl⟩

theorem headamp_shadow {n : DoorSink I} (hdoor : sinkHasDoor n = true) :
    (sinkPublishHeadampProps A n s).1.headamp = some (headampShadow A s) ∧
      (sinkPublishHeadampProps A n s).2 =
        if some (headampShadow A s) = n.headamp then none else some (headampShadow A s) := by
  unfold sinkPublishHeadampProps
  simp only [hdoor, Bool.not_true, Bool.false_eq_true, if_false]
  split
  · rename_i hsame
    exact ⟨hsame.symm, rfl⟩
  · exact ⟨update_headamp _ _, rfl⟩

theorem disco_shadow {n : DoorSink I} (hdoor : sinkHasDoor n = true) {devices : Text}
    (hfits : s.devices = some devices) :
    (sinkPublishDiscoProps A n s).1.disco = some (discoShadow s) ∧
      (sinkPublishDiscoProps A n s).2 =
        if some (discoShadow s) = n.disco then none else some (discoView A s devices) := by
  unfold sinkPublishDiscoProps
  simp only [hdoor, Bool.not_true, Bool.false_eq_true, if_false, hfits]
  split
  · rename_i hsame
    exact ⟨hsame.symm, rfl⟩
  · exact ⟨rfl, rfl⟩

/-! ### The five together -/

/-- What was stamped, over what had been. -/
def Shown.over (newer older : Shown I) : Shown I :=
  { link := newer.link.or older.link
    rate := newer.rate.or older.rate
    role := newer.role.or older.role
    headamp := newer.headamp.or older.headamp
    disco := newer.disco.or older.disco }

theorem stamped_self (stamps : Stamps) (o : Owner) (sets : Option (List DoorSet)) :
    stamped stamps o sets o = sets.or (stamps o) := by
  cases sets with
  | none => rfl
  | some sets => exact Function.update_self _ _ _

/-- Publisher by publisher, the stamps are those of all that was shown. -/
theorem over_stamps (newer older : Shown I) (mask : Nat) (scope : Text) :
    stamped (stamped (stamped (stamped (stamped (stamped (older.stamps A mask scope)
      .link (newer.link.map (linkSets A)))
      .badge (newer.link.map fun v => v.badge A))
      .rate (newer.rate.map (rateSets A mask)))
      .role (newer.role.map (roleSets A)))
      .headamp (newer.headamp.map (headampSets A)))
      .disco (newer.disco.map (discoSets A scope)) = (newer.over older).stamps A mask scope := by
  funext o
  cases o with
  | badge => simp [stamped_self, stamped_other, Shown.stamps, Shown.over, Option.map_or]
  | link => simp [stamped_self, stamped_other, Shown.stamps, Shown.over, Option.map_or]
  | rate => simp [stamped_self, stamped_other, Shown.stamps, Shown.over, Option.map_or]
  | role => simp [stamped_self, stamped_other, Shown.stamps, Shown.over, Option.map_or]
  | headamp => simp [stamped_self, stamped_other, Shown.stamps, Shown.over, Option.map_or]
  | disco => simp [stamped_self, stamped_other, Shown.stamps, Shown.over, Option.map_or]
  | constant => simp [stamped_other, Shown.stamps]
  | health => simp [stamped_other, Shown.stamps]

/-- What one round of the publishers comes to, on a segment that has a door. -/
structure Published (A : DoorApi I) [DecidableEq I] (n : DoorSink I) (s : DoorSnap I)
    (r : DoorSink I × Shown I) : Prop where
  link : r.1.link = n.linkShadow A s
  linkShown : r.2.link = if n.peerBlank = false ∧ n.linkShadow A s = n.link then none
    else some (n.linkView A s)
  rate : r.1.rate = rateShadow s
  rateShown : r.2.rate = if rateShadow s = n.rate then none else some (rateShadow s)
  role : r.1.role = some (roleShadow s)
  roleShown : r.2.role = if some (roleShadow s) = n.role then none else some (roleShadow s)
  headamp : r.1.headamp = some (headampShadow A s)
  headampShown : r.2.headamp =
    if some (headampShadow A s) = n.headamp then none else some (headampShadow A s)
  disco : ∀ devices, s.devices = some devices → r.1.disco = some (discoShadow s)
  discoShown : ∀ devices, s.devices = some devices → r.2.disco =
    if some (discoShadow s) = n.disco then none else some (discoView A s devices)

end

section
variable {A} {n : DoorSink I} (s : DoorSnap I)

theorem publish_rest [DecidableEq I] (n : DoorSink I) : RestKept n (sinkPublish A n s).1 :=
  ((((link_rest s n).1.trans (rate_rest s _).1).trans (role_rest s _).1).trans
    (headamp_rest s _).1).trans (disco_rest s _).1

/-- **The publishers' spec.** -/
theorem publish_spec [DecidableEq I] (hdoor : sinkHasDoor n = true) :
    Published A n s (sinkPublish A n s) := by
  obtain ⟨n₁, hn₁⟩ : ∃ n₁, n₁ = (sinkPublishLinkProps A n s).1 := ⟨_, rfl⟩
  obtain ⟨n₂, hn₂⟩ : ∃ n₂, n₂ = (sinkPublishRateProps A n₁ s).1 := ⟨_, rfl⟩
  obtain ⟨n₃, hn₃⟩ : ∃ n₃, n₃ = (sinkPublishRoleProps A n₂ s).1 := ⟨_, rfl⟩
  obtain ⟨n₄, hn₄⟩ : ∃ n₄, n₄ = (sinkPublishHeadampProps A n₃ s).1 := ⟨_, rfl⟩
  have hpublish : sinkPublish A n s = ((sinkPublishDiscoProps A n₄ s).1,
      { link := (sinkPublishLinkProps A n s).2, rate := (sinkPublishRateProps A n₁ s).2,
        role := (sinkPublishRoleProps A n₂ s).2, headamp := (sinkPublishHeadampProps A n₃ s).2,
        disco := (sinkPublishDiscoProps A n₄ s).2 }) := by
    rw [hn₄, hn₃, hn₂, hn₁]
    rfl
  obtain ⟨hrest₁, hrate₁, hrole₁, hheadamp₁, hdisco₁⟩ := link_rest (A := A) s n
  rw [← hn₁] at hrest₁ hrate₁ hrole₁ hheadamp₁ hdisco₁
  obtain ⟨hrest₂, hlink₂, hrole₂, hheadamp₂, hdisco₂⟩ := rate_rest (A := A) s n₁
  rw [← hn₂] at hrest₂ hlink₂ hrole₂ hheadamp₂ hdisco₂
  obtain ⟨hrest₃, hlink₃, hrate₃, hheadamp₃, hdisco₃⟩ := role_rest (A := A) s n₂
  rw [← hn₃] at hrest₃ hlink₃ hrate₃ hheadamp₃ hdisco₃
  obtain ⟨hrest₄, hlink₄, hrate₄, hrole₄, hdisco₄⟩ := headamp_rest (A := A) s n₃
  rw [← hn₄] at hrest₄ hlink₄ hrate₄ hrole₄ hdisco₄
  obtain ⟨_, hlink₅, hrate₅, hrole₅, hheadamp₅⟩ := disco_rest (A := A) s n₄
  have hdoor₁ : sinkHasDoor n₁ = true := hrest₁.hasDoor.trans hdoor
  have hdoor₂ : sinkHasDoor n₂ = true := hrest₂.hasDoor.trans hdoor₁
  have hdoor₃ : sinkHasDoor n₃ = true := hrest₃.hasDoor.trans hdoor₂
  have hdoor₄ : sinkHasDoor n₄ = true := hrest₄.hasDoor.trans hdoor₃
  obtain ⟨hlink, hlinkShown⟩ := link_shadow (A := A) s n
  obtain ⟨hrate, hrateShown⟩ := rate_shadow (A := A) s hdoor₁
  obtain ⟨hrole, hroleShown⟩ := role_shadow (A := A) s hdoor₂
  obtain ⟨hheadamp, hheadampShown⟩ := headamp_shadow (A := A) s hdoor₃
  rw [← hn₁] at hlink
  rw [← hn₂] at hrate
  rw [← hn₃] at hrole
  rw [← hn₄] at hheadamp
  rw [hpublish]
  constructor
  · exact hlink₅.trans (hlink₄.trans (hlink₃.trans (hlink₂.trans hlink)))
  · exact hlinkShown
  · exact hrate₅.trans (hrate₄.trans (hrate₃.trans hrate))
  · rw [← hrate₁]
    exact hrateShown
  · exact hrole₅.trans (hrole₄.trans hrole)
  · rw [← hrole₁, ← hrole₂]
    exact hroleShown
  · exact hheadamp₅.trans hheadamp
  · rw [← hheadamp₁, ← hheadamp₂, ← hheadamp₃]
    exact hheadampShown
  · intro devices hfits
    exact (disco_shadow s hdoor₄ hfits).1
  · intro devices hfits
    rw [← hdisco₁, ← hdisco₂, ← hdisco₃, ← hdisco₄]
    exact (disco_shadow s hdoor₄ hfits).2

theorem publish_core [DecidableEq I] {older : Shown I}
    (h : DoorCore n (older.stamps A n.drivableMask n.discoIfname)) (hsettled : n.Settled) :
    DoorCore (sinkPublish A n s).1
      (((sinkPublish A n s).2.over older).stamps A n.drivableMask n.discoIfname) ∧
    (sinkPublish A n s).1.Settled := by
  obtain ⟨h₁, hsettled₁⟩ := link_core (A := A) s h hsettled
  obtain ⟨h₂, hsettled₂⟩ := rate_core (A := A) s h₁ hsettled₁
  obtain ⟨h₃, hsettled₃⟩ := role_core (A := A) s h₂ hsettled₂
  obtain ⟨h₄, hsettled₄⟩ := headamp_core (A := A) s h₃ hsettled₃
  obtain ⟨h₅, hsettled₅⟩ := disco_core (A := A) s h₄ hsettled₄
  have hrest := link_rest (A := A) s n
  have hscope := (((hrest.1.trans (rate_rest (A := A) s _).1).trans (role_rest (A := A) s _).1).trans
    (headamp_rest (A := A) s _).1).scope
  rw [hrest.1.mask, hscope] at h₅
  rw [← over_stamps]
  exact ⟨h₅, hsettled₅⟩

end

end ReacPw
