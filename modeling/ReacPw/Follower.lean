/-
A segment that follows somebody else's clock, and when it is heard again.

A tap serves what is heard, one node for each stream its survey found; a slave serves one
stream.  Each 200 ms poll steps a latch from a frame counter, which says whether the
master is still heard, and publishes it; the hearing counts the polls in which the latch
is down, and after enough of them drops the segment to be classified afresh
(`hearing_reevaluate`).

The latch itself (`reac_segment_heard_step`) is the segment library's.
-/
import ReacPw.Segconf
import ReacPw.Lib.Run

namespace ReacPw

/-! ### The latch -/

/-- `struct reac_segment_heard`. -/
structure SegmentHeard where
  heard : Bool
  /-- The counter, as it was last looked at. -/
  last : Nat
  /-- Polls since it moved, while the latch stands. -/
  quiet : Nat
  deriving DecidableEq, Repr

def reacSegmentHeardInit (frames : Nat) : SegmentHeard :=
  { heard := false, last := frames, quiet := 0 }

/-- Set when the counter moved, cleared after so many polls in which it did not. -/
def reacSegmentHeardStep (h : SegmentHeard) (frames quietTicks : Nat) : SegmentHeard :=
  if frames ≠ h.last then { heard := true, last := frames, quiet := 0 }
  else if h.heard then
    { h with heard := decide (h.quiet + 1 < quietTicks), quiet := h.quiet + 1 }
  else h

def reacSegmentHeardQuietTicks : Nat := 25

def reacpwFollowsNobodyTicks : Nat := 2 * reacSegmentHeardQuietTicks

/-! ### The segment -/

/-- `enum reac_tap_kind`. -/
inductive TapStreamKind where
  | master
  | box
  deriving DecidableEq, Repr

/-- An opened tap, or an opened slave. -/
structure Follower where
  tap : Bool
  /-- What the tap's survey found, in its order. -/
  streams : List TapStreamKind
  roleIntent : RoleIntent
  opened : Bool
  heard : SegmentHeard
  followsNobodyTicks : Nat
  deriving DecidableEq, Repr

/-- The streams it has nodes for; a slave's is the receiver's own. -/
def Follower.serves (f : Follower) : List Nat :=
  if f.tap then List.range f.streams.length else [0]

/-- The stream whose node answers for the segment: a tap's master, if it has one. -/
def Follower.answersFor (f : Follower) : Option Nat :=
  if f.tap then f.streams.findIdx? (· = .master) else some 0

/-- What the world shows one poll. -/
structure FollowerTick where
  /-- The decoded frames of each stream; a slave's receiver is stream 0. -/
  framesOk : Nat → Nat
  /-- A slave's receiver found its interface gone. -/
  ifaceLost : Bool

structure FollowerOut where
  /-- The master was published, and whether as heard. -/
  published : Option Bool
  /-- `hearing_reevaluate` dropped it. -/
  dropped : Bool
  deriving DecidableEq, Repr

/-- `listener_publish_tap` and `listener_publish_segment`: a segment with nobody to answer
for is left alone; otherwise the latch is stepped from the first counter. -/
def listenerPublish (f : Follower) (framesOk : Nat → Nat) : Follower × Option Bool :=
  match f.answersFor with
  | none => (f, none)
  | some _ =>
      let heard := reacSegmentHeardStep f.heard (framesOk 0) reacSegmentHeardQuietTicks
      ({ f with heard := heard }, some heard.heard)

/-- A recorder or a box that was asked for is never re-classified. -/
def Follower.askedFor (f : Follower) : Bool := f.roleIntent == .slave || f.roleIntent == .box

/-- One follower's share of `hearing_reevaluate`, and whether it was dropped. -/
def hearingReevaluate (f : Follower) : Follower × Bool :=
  if f.askedFor then (f, false)
  else if f.heard.heard then ({ f with followsNobodyTicks := 0 }, false)
  else
    let ticks := f.followsNobodyTicks + 1
    if ticks < reacpwFollowsNobodyTicks then ({ f with followsNobodyTicks := ticks }, false)
    else ({ f with followsNobodyTicks := ticks, opened := false }, true)

/-- The poll passes over a receiver whose interface is gone.  A tap's feeders are its own. -/
def passesOver (f : Follower) (t : FollowerTick) : Bool := !f.tap && t.ifaceLost

/-- One poll of an opened follower.  A segment whose interface is gone leaves the table in
the same turn (`reac_ifscan_gone`), after the hearing's own look at it. -/
def followerTick (f : Follower) (t : FollowerTick) : Follower × FollowerOut :=
  if !f.opened then (f, { published := none, dropped := false })
  else
    let p := if passesOver f t then (f, none) else listenerPublish f t.framesOk
    let r := hearingReevaluate p.1
    ({ r.1 with opened := r.1.opened && !passesOver f t }, { published := p.2, dropped := r.2 })

/-- A follower on a cleared slot, before its first publication. -/
def Follower.fresh (tap : Bool) (streams : List TapStreamKind) (roleIntent : RoleIntent) :
    Follower :=
  { tap := tap, streams := streams, roleIntent := roleIntent, opened := true,
    heard := reacSegmentHeardInit 0, followsNobodyTicks := 0 }

/-- A follower just opened, with what it published at its open; a slave's receiver has not
been started then. -/
def followerOpened (tap : Bool) (streams : List TapStreamKind) (roleIntent : RoleIntent)
    (framesOk : Nat → Nat) : Follower × Option Bool :=
  listenerPublish (.fresh tap streams roleIntent) (if tap then framesOk else fun _ => 0)

/-! ### What the streams did -/

/-- Each stream's counter at the last poll, and how long ago it moved. -/
structure FollowerPast where
  framesOk : Nat → Nat
  /-- Polls since the stream last decoded a frame, none when it never did. -/
  since : Nat → Option Nat
  /-- Polls since the open. -/
  ticks : Nat

def FollowerPast.note (p : FollowerPast) (framesOk : Nat → Nat) : FollowerPast :=
  { framesOk := framesOk
    since := fun i => if framesOk i ≠ p.framesOk i then some 0 else (p.since i).map (· + 1)
    ticks := p.ticks + 1 }

/-- The past of a segment that has just been opened; every counter started at 0. -/
def FollowerPast.opened (tap : Bool) (framesOk : Nat → Nat) : FollowerPast :=
  let framesOk := if tap then framesOk else fun _ => 0
  { framesOk := framesOk, since := fun i => if framesOk i ≠ 0 then some 0 else none, ticks := 0 }

/-- A follower, and what its streams did. -/
def followerMachine : StepMachine (Follower × FollowerPast) FollowerTick FollowerOut :=
  (StepMachine.mk followerTick).withHistory fun past _ t _ => past.note t.framesOk

/-- The stream decoded a frame in one of the last polls the latch stands for. -/
def HeardLately : Option Nat → Prop
  | some n => n < reacSegmentHeardQuietTicks
  | none => False

/-- The stream decoded no frame in as many polls as a follower of nobody is given. -/
def SilentLong : Option Nat → Prop
  | some n => reacpwFollowsNobodyTicks ≤ n
  | none => True

instance : DecidablePred HeardLately := fun
  | some _ => inferInstanceAs (Decidable (_ < _))
  | none => inferInstanceAs (Decidable False)

instance : DecidablePred SilentLong := fun
  | some _ => inferInstanceAs (Decidable (_ ≤ _))
  | none => inferInstanceAs (Decidable True)

end ReacPw
