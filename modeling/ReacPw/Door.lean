/-
A segment's write door and what is published on it (`reac_sink_node`, the door half of
`reac_source_node`).

The door is reac-playback while there is one, else reac-capture, once it is bound.
Five publishers run on the log timer.  Each compares a few values of the pacer's
snapshot with its shadows and, when one moved, renders its keys and merges them into the
door's properties.  A node's properties are a merge-only map; a door that stops being one
has its keys emptied.

A snapshot is what the publishers read on one call, the box row among it as an address
and what stands there.  libreac's enumerations are their codes, its names and texts a
parameter.  What PipeWire and the discovery table answer (a stream that builds or not, a
device list that fits or not) are inputs; memory never runs out.  The role's state is a
pointer to a constant text, and is that text here.  The node's sample rate and its
latency are not properties and are left out.
-/
import ReacPw.Lib.PropMap
import ReacPw.Autodetect

namespace ReacPw

/-! ### The keys -/

/-- The badge, on both nodes of a segment. -/
inductive BadgeKey where
  | linkState
  | boxModel
  | boxName
  | boxWidth
  | boxMac
  | boxFirmware
  | boxReacVersion
  | boxHw
  deriving DecidableEq, Repr

inductive LinkKey where
  | boxSource
  | headampChannels
  | headampBase
  deriving DecidableEq, Repr

inductive RateKey where
  | rate
  | source
  | drivable
  | state
  | refused
  deriving DecidableEq, Repr

inductive RoleKey where
  | role
  | state
  | refused
  deriving DecidableEq, Repr

inductive HeadampKey where
  | asserted
  | state
  | refused
  deriving DecidableEq, Repr

inductive DiscoKey where
  | scope
  | state
  | seq
  | devices
  | masterState
  | masterMac
  | paceSource
  | masterConflict
  | rivalKind
  | refusal
  deriving DecidableEq, Repr

/-- What a door carries from its first moment and never changes. -/
inductive ConstantKey where
  | headampCaps
  | headampSensMax
  deriving DecidableEq, Repr

inductive HealthKey where
  | paceBackend
  | paceRefusal
  | driftPpm
  | discardFps
  | discardMs
  | txErrors
  | lateWakes
  | latePs
  | catchupPs
  | droppedPs
  | debtMax
  | ringFrames
  | ringMs
  | rateMatch
  | launchMissPs
  | qdiscDrops
  | wakeLateUs
  | wakeLeadUs
  deriving DecidableEq, Repr

/-- The `reac.*` keys, by the publisher that owns them. -/
inductive DoorKey where
  | badge (k : BadgeKey)
  | link (k : LinkKey)
  | rate (k : RateKey)
  | role (k : RoleKey)
  | headamp (k : HeadampKey)
  | disco (k : DiscoKey)
  | constant (k : ConstantKey)
  | health (k : HealthKey)
  deriving DecidableEq, Repr

abbrev DoorSet := DoorKey × Text

abbrev NodeProps := PropMap DoorKey Text

/-! ### What the publishers read -/

/-- libreac's part: its names for codes, its texts, and its decisions over facts. -/
structure DoorApi (I : Type) where
  masterProbing : Nat
  linkProbing : Nat
  linkStateFromMaster : Nat → Bool → Nat
  linkStateName : Nat → Text
  boxMacNone : Text
  boxMacText : Nat → Text
  /-- Firmware, protocol version and hw block of an identity page. -/
  identityText : I → Text × Text × Text
  boxSourceWire : Text
  boxSourceNone : Text
  rateSourceAsserted : Text
  rateSourceConvention : Text
  ratePending : Text
  rateApplied : Text
  rateRefuseCode : Nat → Text
  rateDrivableCsv : Nat → Text
  roleMaster : Text
  roleRefuseCode : Nat → Text
  headampRefuseNone : Nat
  /-- `reac_headamp_cfg_decide` on a segment no box masters. -/
  headampCfgDecide : Int → Int → Nat
  headampRefuseCode : Nat → Text
  headampApplied : Text
  headampUnavailable : Text
  headampCaps : Text
  headampSensMax : Text
  discoListening : Text
  segmentMasterName : Nat → Text
  paceSourceName : Nat → Text
  rivalKindName : Nat → Text
  segmentRefusal : Nat → Bool → Bool → Nat → Text
  macText : Nat → Text

/-- `struct reac_arbitration`, as far as it is published. -/
structure Arbitration where
  state : Nat
  pace : Nat
  rival : Nat
  conflict : Bool
  mac : Option Nat
  deriving DecidableEq, Repr

/-- What the publishers read on one call. -/
structure DoorSnap (I : Type) where
  fsmState : Nat
  /-- The pacer's drops, summed. -/
  drops : Nat
  row : Option (RowSlot × BoxRow)
  boxMac : Nat
  identity : I
  headampBase : Int
  rateHz : Int
  rateAsserted : Bool
  rateReestablishing : Bool
  rateRefused : Nat
  roleState : Text
  roleRefused : Nat
  /-- The last head-amp write's outcome. -/
  haWriteRefused : Nat
  /-- The asserted table, rendered. -/
  haAsserted : Text
  discoSeq : Nat
  arb : Arbitration
  /-- The device list as JSON, if it fits. -/
  devices : Option Text
  rxBoxFrames : Nat
  rxJoins : Nat

/-! ### The nodes -/

/-- reac-playback. -/
structure Playback where
  node : BoxNode
  props : NodeProps

/-- reac-capture. -/
structure Capture where
  props : NodeProps
  /-- Its Props assertions go to the sink's door. -/
  doorBound : Bool := false
  /-- What it was stamped with as a door. -/
  doorKeys : List DoorKey := []
  badgeStamped : Bool := false

structure LinkShadow (I : Type) where
  linkState : Nat
  boxModel : Option RowSlot
  boxMac : Nat
  boxIdentity : I
  deriving DecidableEq

structure RateShadow where
  hz : Int
  asserted : Bool
  reestablishing : Bool
  refused : Nat
  deriving DecidableEq, Repr

structure RoleShadow where
  state : Text
  refused : Nat
  deriving DecidableEq, Repr

structure HeadampShadow where
  refused : Nat
  state : Text
  asserted : Text
  deriving DecidableEq, Repr

structure DiscoShadow where
  seq : Nat
  state : Nat
  pace : Nat
  rival : Nat
  conflict : Bool
  mac : Nat
  deriving DecidableEq, Repr

/-- What a master's sink keeps of its door.  A shadow that is `none` stands for the value no
live answer equals. -/
structure DoorSink (I : Type) where
  stream : Option Playback := none
  capture : Option Capture := none
  linkDropsSeen : Nat := 0
  link : LinkShadow I
  rate : RateShadow
  role : Option RoleShadow := none
  headamp : Option HeadampShadow := none
  disco : Option DiscoShadow := none
  discoIfname : Text
  drivableMask : Nat

variable {I : Type}

/-- An update of the door (`sink_door_update`). -/
def sinkDoorUpdate (n : DoorSink I) (sets : List DoorSet) : DoorSink I :=
  match n.stream with
  | some p => { n with stream := some { p with props := p.props.merge sets } }
  | none =>
      { n with
        capture := n.capture.map fun c =>
          { c with
            props := c.props.merge sets
            doorKeys := c.doorKeys ++ sets.map Prod.fst } }

def sinkHasDoor (n : DoorSink I) : Bool := n.stream.isSome || n.capture.isSome

/-- Unbound, the door's keys go too: each is emptied. -/
def Capture.unbind (c : Capture) : Capture :=
  { c with
    props := c.props.merge (c.doorKeys.map fun k => (k, []))
    doorBound := false
    doorKeys := [] }

section
variable (A : DoorApi I)

/-- Every publisher's shadow back to a value no live answer equals. -/
def sinkDoorShadowsReset (n : DoorSink I) : DoorSink I :=
  { n with
    link := { n.link with linkState := A.linkProbing, boxModel := none, boxMac := 0 }
    rate := { n.rate with hz := 0 }
    role := none
    headamp := none
    disco := none }

/-! ### What each publisher renders -/

def intText (i : Int) : Text := (toString i).toList

/-- The box's badge (`reac_box_row_badge_publish`). -/
def badgeSets (linkState : Nat) (row : Option BoxRow) (mac : Nat) (id : I) : List DoorSet :=
  let said := A.identityText id
  [(.badge .linkState, A.linkStateName linkState),
   (.badge .boxModel, (row.map (·.token)).getD (txt "none")),
   (.badge .boxName, (row.map (·.name)).getD []),
   (.badge .boxWidth,
     (row.map fun r => intText r.inCh ++ txt "x" ++ intText r.outCh).getD (txt "0x0")),
   (.badge .boxMac, A.boxMacText mac),
   (.badge .boxFirmware, said.1),
   (.badge .boxReacVersion, said.2.1),
   (.badge .boxHw, said.2.2)]

/-- What the link publisher renders from. -/
structure LinkView (I : Type) where
  linkState : Nat
  row : Option BoxRow
  boxMac : Nat
  identity : I
  base : Int

def linkSets (v : LinkView I) : List DoorSet :=
  [(.link .boxSource, if v.row.isSome then A.boxSourceWire else A.boxSourceNone),
   (.link .headampChannels, intText ((v.row.map (·.inCh)).getD 0)),
   (.link .headampBase, if 0 ≤ v.base then intText v.base else A.boxSourceNone)]

def LinkView.badge (v : LinkView I) : List DoorSet :=
  badgeSets A v.linkState v.row v.boxMac v.identity

def rateSets (mask : Nat) (v : RateShadow) : List DoorSet :=
  [(.rate .rate, intText v.hz),
   (.rate .source, if v.asserted then A.rateSourceAsserted else A.rateSourceConvention),
   (.rate .drivable, A.rateDrivableCsv mask),
   (.rate .state, if v.reestablishing then A.ratePending else A.rateApplied),
   (.rate .refused, A.rateRefuseCode v.refused)]

def roleSets (v : RoleShadow) : List DoorSet :=
  [(.role .role, A.roleMaster),
   (.role .state, v.state),
   (.role .refused, A.roleRefuseCode v.refused)]

def headampSets (v : HeadampShadow) : List DoorSet :=
  [(.headamp .asserted, v.asserted),
   (.headamp .state, v.state),
   (.headamp .refused, A.headampRefuseCode v.refused)]

/-- What the discovery publisher renders from. -/
structure DiscoView where
  seq : Nat
  arb : Arbitration
  devices : Text
  refusal : Text
  deriving DecidableEq, Repr

def discoSets (scope : Text) (v : DiscoView) : List DoorSet :=
  [(.disco .scope, scope),
   (.disco .state, A.discoListening),
   (.disco .seq, intText v.seq),
   (.disco .devices, v.devices),
   (.disco .masterState, A.segmentMasterName v.arb.state),
   (.disco .masterMac, (v.arb.mac.map A.macText).getD (txt "none")),
   (.disco .paceSource, A.paceSourceName v.arb.pace),
   (.disco .masterConflict, if v.arb.conflict then txt "1" else txt "0"),
   (.disco .rivalKind, A.rivalKindName v.arb.rival),
   (.disco .refusal, v.refusal)]

def constantSets : List DoorSet :=
  [(.constant .headampCaps, A.headampCaps), (.constant .headampSensMax, A.headampSensMax)]

/-! ### The publishers -/

def DoorSink.linkState (n : DoorSink I) (s : DoorSnap I) : Nat :=
  A.linkStateFromMaster s.fsmState (s.drops != n.linkDropsSeen)

def DoorSink.linkView (n : DoorSink I) (s : DoorSnap I) : LinkView I :=
  { linkState := n.linkState A s, row := s.row.map (·.2), boxMac := s.boxMac,
    identity := s.identity, base := s.headampBase }

def DoorSink.linkShadow (n : DoorSink I) (s : DoorSnap I) : LinkShadow I :=
  { linkState := n.linkState A s, boxModel := s.row.map (·.1), boxMac := s.boxMac,
    boxIdentity := s.identity }

/-- A badge on reac-capture (`reac_source_node_publish_link`). -/
def sourcePublishLink (n : DoorSink I) (badge : List DoorSet) : DoorSink I :=
  { n with
    capture := n.capture.map fun c => { c with props := c.props.merge badge, badgeStamped := true } }

/-- A capture that has no badge yet. -/
def DoorSink.peerBlank (n : DoorSink I) : Bool :=
  (n.capture.map fun c => !c.badgeStamped).getD false

/-- `sink_publish_link_props`: the sink, and the view it stamped. -/
def sinkPublishLinkProps [DecidableEq I] (n : DoorSink I) (s : DoorSnap I) :
    DoorSink I × Option (LinkView I) :=
  let v := n.linkView A s
  let shadow := n.linkShadow A s
  let n := { n with linkDropsSeen := s.drops }
  if !n.peerBlank && shadow = n.link then (n, none)
  else
    let n := { n with link := shadow }
    let n :=
      match n.stream with
      | some _ => sinkDoorUpdate n (linkSets A v ++ v.badge A)
      | none => sinkDoorUpdate n (linkSets A v)
    (sourcePublishLink n (v.badge A), some v)

def rateShadow (s : DoorSnap I) : RateShadow :=
  { hz := s.rateHz, asserted := s.rateAsserted, reestablishing := s.rateReestablishing,
    refused := s.rateRefused }

def sinkPublishRateProps (n : DoorSink I) (s : DoorSnap I) : DoorSink I × Option RateShadow :=
  if !sinkHasDoor n then (n, none)
  else if rateShadow s = n.rate then (n, none)
  else
    let n := { n with rate := rateShadow s }
    (sinkDoorUpdate n (rateSets A n.drivableMask (rateShadow s)), some (rateShadow s))

def roleShadow (s : DoorSnap I) : RoleShadow := { state := s.roleState, refused := s.roleRefused }

def sinkPublishRoleProps (n : DoorSink I) (s : DoorSnap I) : DoorSink I × Option RoleShadow :=
  if !sinkHasDoor n then (n, none)
  else if some (roleShadow s) = n.role then (n, none)
  else
    let n := { n with role := some (roleShadow s) }
    (sinkDoorUpdate n (roleSets A (roleShadow s)), some (roleShadow s))

/-- `sink_headamp_capability`, on a segment with a pacer. -/
def sinkHeadampCapability (s : DoorSnap I) : Nat :=
  A.headampCfgDecide ((s.row.map (·.2.inCh)).getD 0) s.headampBase

def headampShadow (s : DoorSnap I) : HeadampShadow :=
  let cap := sinkHeadampCapability A s
  { refused := if cap ≠ A.headampRefuseNone then cap else s.haWriteRefused
    state := if cap = A.headampRefuseNone then A.headampApplied else A.headampUnavailable
    asserted := s.haAsserted }

def sinkPublishHeadampProps (n : DoorSink I) (s : DoorSnap I) : DoorSink I × Option HeadampShadow :=
  if !sinkHasDoor n then (n, none)
  else if some (headampShadow A s) = n.headamp then (n, none)
  else
    let n := { n with headamp := some (headampShadow A s) }
    (sinkDoorUpdate n (headampSets A (headampShadow A s)), some (headampShadow A s))

def discoShadow (s : DoorSnap I) : DiscoShadow :=
  { seq := s.discoSeq, state := s.arb.state, pace := s.arb.pace, rival := s.arb.rival,
    conflict := s.arb.conflict, mac := s.arb.mac.getD 0 }

def discoView (s : DoorSnap I) (devices : Text) : DiscoView :=
  { seq := s.discoSeq, arb := s.arb, devices := devices
    refusal :=
      A.segmentRefusal s.arb.rival (s.fsmState == A.masterProbing) (decide (0 < s.rxBoxFrames))
        s.rxJoins }

/-- `sink_publish_disco_props`: a list that does not fit publishes nothing. -/
def sinkPublishDiscoProps (n : DoorSink I) (s : DoorSnap I) : DoorSink I × Option DiscoView :=
  if !sinkHasDoor n then (n, none)
  else if some (discoShadow s) = n.disco then (n, none)
  else
    match s.devices with
    | none => (n, none)
    | some devices =>
        let n := sinkDoorUpdate n (discoSets A n.discoIfname (discoView A s devices))
        ({ n with disco := some (discoShadow s) }, some (discoView A s devices))

/-- What the publishers stamped. -/
structure Shown (I : Type) where
  link : Option (LinkView I) := none
  rate : Option RateShadow := none
  role : Option RoleShadow := none
  headamp : Option HeadampShadow := none
  disco : Option DiscoView := none

/-- The five of them. -/
def sinkPublish [DecidableEq I] (n : DoorSink I) (s : DoorSnap I) : DoorSink I × Shown I :=
  let (n, link) := sinkPublishLinkProps A n s
  let (n, rate) := sinkPublishRateProps A n s
  let (n, role) := sinkPublishRoleProps A n s
  let (n, headamp) := sinkPublishHeadampProps A n s
  let (n, disco) := sinkPublishDiscoProps A n s
  (n, { link := link, rate := rate, role := role, headamp := headamp, disco := disco })

/-- What an event did: whether a node became the door, whether the shadows were reset, and
what was stamped on the door. -/
structure DoorReport (I : Type) where
  newDoor : Bool := false
  reset : Bool := false
  shown : Shown I := {}

/-! ### The door's moves -/

/-- Whether a capture has become the door and is not yet bound. -/
def sinkDoorFollows (n : DoorSink I) : Bool :=
  n.stream.isNone && (n.capture.map fun c => !c.doorBound).getD false

/-- `sink_door_follow`. -/
def sinkDoorFollow (n : DoorSink I) : DoorSink I :=
  if sinkDoorFollows n then
    let n := { n with capture := n.capture.map fun c => { c with doorBound := true } }
    let n := sinkDoorShadowsReset A n
    sinkDoorUpdate n (constantSets A)
  else n

/-- What a reac-playback is created with. -/
def playbackSeeds (s : DoorSnap I) (scope : Text) : List DoorSet :=
  let cap := sinkHeadampCapability A s
  [(.badge .linkState, A.linkStateName A.linkProbing),
   (.badge .boxModel, txt "none"),
   (.badge .boxWidth, txt "0x0"),
   (.link .boxSource, A.boxSourceNone),
   (.badge .boxMac, A.boxMacNone),
   (.link .headampBase, A.boxSourceNone),
   (.link .headampChannels, txt "0"),
   (.constant .headampCaps, A.headampCaps),
   (.constant .headampSensMax, A.headampSensMax),
   (.headamp .asserted, s.haAsserted),
   (.headamp .state, if cap = A.headampRefuseNone then A.headampApplied else A.headampUnavailable),
   (.headamp .refused, A.headampRefuseCode cap),
   (.disco .scope, scope),
   (.disco .state, A.discoListening),
   (.disco .seq, txt "0"),
   (.disco .devices, txt "[]")]

/-- What a master's reac-capture is created with. -/
def captureSeeds : List DoorSet :=
  [(.badge .linkState, A.linkStateName A.linkProbing),
   (.badge .boxModel, txt "none"),
   (.badge .boxWidth, txt "0x0"),
   (.badge .boxMac, A.boxMacNone)]

def blankProps : NodeProps := fun _ => none

/-- How far building a reac-playback gets. -/
inductive StreamBuild where
  | noStream
  | noConnect
  | built
  deriving DecidableEq, Repr

/-- `sink_open_filter`, the old stream gone. -/
def sinkOpenFilter [DecidableEq I] (n : DoorSink I) (node : BoxNode) (s : DoorSnap I)
    (build : StreamBuild) : DoorSink I × DoorReport I :=
  match build with
  | .noStream => (n, {})
  | .noConnect =>
      ({ sinkDoorShadowsReset A n with linkDropsSeen := s.drops }, { reset := true })
  | .built =>
      let n :=
        { sinkDoorShadowsReset A n with
          linkDropsSeen := s.drops
          stream := some
            { node := node, props := blankProps.merge (playbackSeeds A s n.discoIfname) }
          capture := n.capture.map fun c => if c.doorBound then c.unbind else c }
      let (n, shown) := sinkPublish A n s
      (n, { newDoor := true, reset := true, shown := shown })

/-- `reac_sink_node_unpublish`. -/
def reacSinkNodeUnpublish (n : DoorSink I) : DoorSink I := { n with stream := none }

/-- `reac_sink_node_ensure`, with the node's properties. -/
def sinkNodeEnsure [DecidableEq I] (n : DoorSink I) (channels : Int) (label : Text)
    (s : DoorSnap I) (build : StreamBuild) : DoorSink I × DoorReport I :=
  let want := if reacMaxChannels < channels then reacMaxChannels else channels
  if want < 0 then (n, {})
  else if want = 0 then (reacSinkNodeUnpublish n, {})
  else
    let node : BoxNode := { channels := want, label := nodeLabel label }
    if !reacNodeEnsureNeedsRebuild (n.stream.map (·.node)) node then (n, {})
    else sinkOpenFilter A { n with stream := none } node s build

/-- The capture's badge again from the shadows (`reac_sink_node_restamp_peer`); `row` is what
the remembered address points to. -/
def reacSinkNodeRestampPeer (n : DoorSink I) (row : Option BoxRow) : DoorSink I :=
  sourcePublishLink n (badgeSets A n.link.linkState row n.link.boxMac n.link.boxIdentity)

/-! ### The machine -/

inductive DoorEvent (I : Type) where
  /-- The log timer, and the health keys it publishes when a window closes. -/
  | logTick (s : DoorSnap I) (health : List (HealthKey × Text))
  | ensure (channels : Int) (label : Text) (s : DoorSnap I) (build : StreamBuild)
  | unpublish
  | captureGone
  /-- A capture is built, in the place of another or of none. -/
  | captureBuilt
  | restamp (row : Option BoxRow)

/-- The log timer. -/
def onLogTimer [DecidableEq I] (n : DoorSink I) (s : DoorSnap I)
    (health : List (HealthKey × Text)) : DoorSink I × DoorReport I :=
  let newDoor := sinkDoorFollows n
  let n := sinkDoorFollow A n
  let (n, shown) := sinkPublish A n s
  let n :=
    if sinkHasDoor n then sinkDoorUpdate n (health.map fun h => (.health h.1, h.2)) else n
  (n, { newDoor := newDoor, reset := newDoor, shown := shown })

def doorMachine [DecidableEq I] : StepMachine (DoorSink I) (DoorEvent I) (DoorReport I) where
  step n
    | .logTick s health => onLogTimer A n s health
    | .ensure channels label s build => sinkNodeEnsure A n channels label s build
    | .unpublish => (reacSinkNodeUnpublish n, {})
    | .captureGone => ({ n with capture := none }, {})
    | .captureBuilt =>
        ({ n with capture := some { props := blankProps.merge (captureSeeds A) } }, {})
    | .restamp row => (reacSinkNodeRestampPeer A n row, {})

/-- A sink nothing was published of. -/
def DoorSink.fresh (id : I) (discoIfname : Text) (drivableMask : Nat) : DoorSink I :=
  { link := { linkState := A.linkProbing, boxModel := none, boxMac := 0, boxIdentity := id }
    rate := { hz := 0, asserted := false, reestablishing := false, refused := 0 }
    discoIfname := discoIfname
    drivableMask := drivableMask }

end

end ReacPw
