/-
The staging of a playback node's samples (`on_process`).

The wire takes groups of twelve samples of every channel; the graph brings quanta of any
size.  A process callback takes a buffer, puts its samples one instant after the other
into the stage, silence where a port is not linked, and hands over the stage each time it
is full: to the upstream ring where the slave engine owns the wire, else encoded to the
pacer.  What is left over stays in the node, and a callback with nothing linked stages
nothing.

A sample is an abstract value with a silence, and a buffer's plane a function of the
sample's index.  The gain's ramp is a parameter.  What the callback publishes of the
graph's clock and depth is not modelled, nor is the frame's encoding.
-/
import Mathlib.Algebra.Notation.Defs
import Mathlib.Logic.Function.Basic
import ReacPw.Lib.Run
import ReacPw.LinkBudget

namespace ReacPw

/-- The part of a sink that stages; `G` are gains. -/
structure SinkStage (V G : Type) where
  channels : Nat
  /-- Channel by channel, position by position. -/
  stage : Nat → Nat → V
  staged : Nat
  chanCur : Nat → G

/-- What is dequeued: a size in bytes, and the planes that are there. -/
structure StreamBuffer (V : Type) where
  /-- Which buffer of the pool. -/
  tag : Nat
  size : Nat
  datas : List (Option (Nat → V))

/-- What a callback finds. -/
structure ProcessIn (V G : Type) where
  pacerOpen : Bool
  upstreamRing : Bool
  rateReconnecting : Bool
  /-- The clock's duration, once there is a position. -/
  position : Option Nat
  /-- What a dequeue gives. -/
  buffer : Option (StreamBuffer V)
  /-- The channels' targets, at each sample. -/
  chanTarget : Nat → Nat → G

/-- A group on its way: the contiguous block of the ring, channel after channel, or the
planes a frame is built from. -/
inductive SinkSubmit (V : Type) where
  | ring (blk : List V)
  | pacer (planar : List (List V))
  deriving DecidableEq, Repr

inductive ProcessAct (V : Type) where
  | dequeue (tag : Nat)
  | queue (tag : Nat)
  | submit (s : SinkSubmit V)
  deriving DecidableEq, Repr

section
variable {V G : Type}
-- `reac_gain_ramp_block`: a block of so many samples, its gain and its target
variable (ramp : (Nat → V) → Nat → G → G → (Nat → V) × G)

/-- The first samples of a channel's stage. -/
def SinkStage.block (n : SinkStage V G) (count c : Nat) : List V :=
  (List.range count).map (n.stage c)

/-- One instant's samples into the stage. -/
def stagePut (n : SinkStage V G) (x : Nat → V) : SinkStage V G :=
  { n with
    stage := fun c =>
      if c < n.channels then Function.update (n.stage c) n.staged (x c) else n.stage c
    staged := n.staged + 1 }

/-- The gain, on every channel's full stage. -/
def stageRamp (n : SinkStage V G) (target : Nat → G) : SinkStage V G :=
  { n with
    stage := fun c =>
      if c < n.channels then (ramp (n.stage c) reacSamplesPerPkt (n.chanCur c) (target c)).1
      else n.stage c
    chanCur := fun c =>
      if c < n.channels then (ramp (n.stage c) reacSamplesPerPkt (n.chanCur c) (target c)).2
      else n.chanCur c }

/-- The full stage, as it is handed over. -/
def stageSubmit (upstreamRing : Bool) (n : SinkStage V G) : SinkSubmit V :=
  if upstreamRing then .ring ((List.range n.channels).flatMap (n.block reacSamplesPerPkt))
  else .pacer ((List.range n.channels).map (n.block reacSamplesPerPkt))

/-- One turn of the loop over a quantum's samples. -/
def stageSample (upstreamRing : Bool) (r : SinkStage V G × List (SinkSubmit V))
    (x : Nat → V) (target : Nat → G) : SinkStage V G × List (SinkSubmit V) :=
  let n := stagePut r.1 x
  if n.staged = reacSamplesPerPkt then
    let n := stageRamp ramp n target
    ({ n with staged := 0 }, r.2 ++ [stageSubmit upstreamRing n])
  else (n, r.2)

/-- The plane of a channel, while its port is linked. -/
def StreamBuffer.plane (b : StreamBuffer V) (c : Nat) : Option (Nat → V) := (b.datas[c]?).join

/-- Any of the channels is linked. -/
def StreamBuffer.haveAny (b : StreamBuffer V) (channels : Nat) : Bool :=
  (List.range channels).any fun c => (b.plane c).isSome

/-- The quantum's length: what the buffer holds, as far as the clock goes. -/
def StreamBuffer.nframes (b : StreamBuffer V) (duration : Nat) : Nat := min (b.size / 4) duration

variable [Zero V]

/-- As `reac_sink_node_new` leaves it. -/
def SinkStage.fresh (unity : G) : SinkStage V G :=
  { channels := 0, stage := fun _ _ => 0, staged := 0, chanCur := fun _ => unity }

/-- The samples of one instant: silence for what is not linked. -/
def StreamBuffer.instant (b : StreamBuffer V) (s c : Nat) : V :=
  match b.plane c with
  | some data => data s
  | none => 0

/-- The loop over a linked quantum. -/
def stageQuantum (p : ProcessIn V G) (b : StreamBuffer V) (nframes : Nat) (n : SinkStage V G) :
    SinkStage V G × List (SinkSubmit V) :=
  (List.range nframes).foldl
    (fun r s => stageSample ramp p.upstreamRing r (b.instant s) (p.chanTarget s)) (n, [])

def onProcess (n : SinkStage V G) (p : ProcessIn V G) : SinkStage V G × List (ProcessAct V) :=
  if !p.pacerOpen && !p.upstreamRing then (n, [])
  else if p.rateReconnecting then (n, [])
  else
    match p.position, p.buffer with
    | some duration, some b =>
        if !b.haveAny n.channels then (n, [.dequeue b.tag, .queue b.tag])
        else
          let r := stageQuantum ramp p b (b.nframes duration) n
          (r.1, .dequeue b.tag :: r.2.map .submit ++ [.queue b.tag])
    | _, _ => (n, [])

/-! ### The life of a node -/

inductive SinkEvent (V G : Type) where
  /-- A stream is built at this width; the one before it is gone. -/
  | build (channels : Nat)
  | process (p : ProcessIn V G)

def sinkMachine : StepMachine (SinkStage V G) (SinkEvent V G) (List (ProcessAct V)) where
  step n
    | .build channels => ({ n with channels := channels }, [])
    | .process p => onProcess ramp n p

/-- A node as a run of its events leaves it. -/
abbrev sinkAfter (unity : G) (life : List (SinkEvent V G)) : SinkStage V G :=
  (sinkMachine ramp).after (SinkStage.fresh unity) life

/-- The callbacks of one stream. -/
def streamMachine : StepMachine (SinkStage V G) (ProcessIn V G) (List (ProcessAct V)) where
  step := onProcess ramp

end

end ReacPw
