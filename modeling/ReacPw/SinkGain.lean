/-
The level of a playback node's channels (`reac_sink_node`).

A controller writes mute and volumes into the node's Props.  The main loop keeps them per
channel, and publishes for the RT thread the level it ramps to, mute folded in.  The
volumes, the mute and the published levels stay where they are when the node is rebuilt at
another width; what a write touches is as wide as the node was then.

A level is a value of any ordered type with a silence and a unity; it is only compared
with silence and copied.  The ramp itself runs on the RT thread and is left out.
-/
import Mathlib.Algebra.Notation.Defs
import ReacPw.Autodetect
import ReacPw.Lib.Run

namespace ReacPw

section
variable {V : Type} [Zero V] [One V] [LT V] [DecidableLT V]

/-- One property of a Props object, as far as its value could be read. -/
inductive PropsEntry (V : Type) where
  | mute (m : Option Bool)
  | volume (v : Option V)
  | channelVolumes (vols : List V)
  | other
  deriving DecidableEq, Repr

/-- The gain half of a sink. -/
structure SinkGain (V : Type) where
  /-- The stream, at the width and label it was built with. -/
  node : Option BoxNode := none
  channels : Nat := 0
  muted : Bool := false
  chanVol : Nat → V
  chanTarget : Nat → V

/-- `reac_sink_node_new`: unity on every channel, and no stream yet. -/
def SinkGain.fresh : SinkGain V := { chanVol := fun _ => 1, chanTarget := fun _ => 1 }

/-- A negative level is silence. -/
def notNegative (v : V) : V := if v < 0 then 0 else v

/-- The level a channel is ramped to. -/
def level (muted : Bool) (v : V) : V := if muted then 0 else v

/-- The levels for the RT thread, as far as the node is wide (`sink_publish`). -/
def gainPublish (n : SinkGain V) : SinkGain V :=
  { n with
    chanTarget := fun c => if c < n.channels then level n.muted (n.chanVol c) else n.chanTarget c }

/-- What the loop over the properties carries. -/
structure PropsRead (V : Type) where
  gain : SinkGain V
  /-- The last `channelVolumes` read, and whether any had a value in it. -/
  chanVols : List V := []
  haveChanVol : Bool := false
  changed : Bool := false

def readProp (r : PropsRead V) : PropsEntry V → PropsRead V
  | .mute (some m) => { r with gain := { r.gain with muted := m }, changed := true }
  | .mute none => r
  | .volume (some v) =>
      { r with
        gain :=
          { r.gain with
            chanVol := fun c => if c < r.gain.channels then notNegative v else r.gain.chanVol c }
        changed := true }
  | .volume none => r
  | .channelVolumes vols =>
      { r with
        chanVols := vols.take reacMaxChannels.toNat
        haveChanVol := r.haveChanVol || !vols.isEmpty }
  | .other => r

/-- `channelVolumes` wins over a `volume` of the same object. -/
def readChanVols (r : PropsRead V) : PropsRead V :=
  if r.haveChanVol then
    { r with
      gain :=
        { r.gain with
          chanVol := fun c =>
            match r.chanVols[c]? with
            | some v => if c < r.gain.channels then notNegative v else r.gain.chanVol c
            | none => r.gain.chanVol c }
      changed := true }
  else r

/-- What a Props object says of the gain. -/
def readProps (n : SinkGain V) (props : List (PropsEntry V)) : PropsRead V :=
  readChanVols (props.foldl readProp { gain := n })

/-- `on_param_changed`, its gain half. -/
def onParamChanged (n : SinkGain V) (props : List (PropsEntry V)) : SinkGain V :=
  let r := readProps n props
  if r.changed then gainPublish r.gain else r.gain

/-- The width an ensure asks for. -/
def ensureWant (channels : Int) : Int :=
  if reacMaxChannels < channels then reacMaxChannels else channels

/-- The width an ensure rebuilds the stream at, if it does. -/
def ensureRebuilds (n : SinkGain V) (channels : Int) (label : Text) : Option Nat :=
  let want := ensureWant channels
  if 0 < want ∧
      reacNodeEnsureNeedsRebuild n.node { channels := want, label := nodeLabel label } then
    some want.toNat
  else none

/-- `reac_sink_node_unpublish`. -/
def gainUnpublish (n : SinkGain V) : SinkGain V :=
  if n.node.isSome then { n with node := none, channels := 0 } else n

/-- `reac_sink_node_ensure`; the width of a build that fails is kept. -/
def gainEnsure (n : SinkGain V) (channels : Int) (label : Text) (built : Bool) : SinkGain V :=
  if ensureWant channels = 0 then gainUnpublish n
  else
    { n with
      node := reacSinkNodeEnsure n.node channels label built
      channels := (ensureRebuilds n channels label).getD n.channels }

inductive GainEvent (V : Type) where
  | props (entries : List (PropsEntry V))
  | ensure (channels : Int) (label : Text) (built : Bool)
  | unpublish

def gainMachine : StepMachine (SinkGain V) (GainEvent V) Unit where
  step n e :=
    match e with
    | .props entries => (onParamChanged n entries, ())
    | .ensure channels label built => (gainEnsure n channels label built, ())
    | .unpublish => (gainUnpublish n, ())

end

end ReacPw
