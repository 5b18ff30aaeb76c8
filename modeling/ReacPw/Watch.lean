/-
What a served segment's fresh verdict means (`reac_watch`), and the poll that
acts on it (`hearing_yield`).

The table `reacWatchDecide` is level-triggered: it says what to do about a verdict
as it stands.  Its one caller asks it on edges, when the kept sniffer's hunt has
changed its verdict.

The hunt is a library's.  One step of it answers whether the verdict changed, so
a poll's input is the verdict the step arrives at; how long a sighting lives in
its table (`REAC_DISCO_STALE_NS`) is a parameter.
-/
import ReacPw.Segment
import ReacPw.Lib.Run

namespace ReacPw

inductive HuntVerdict where
  | hunting
  | master
  | slave
  | refused
  deriving DecidableEq, Repr

inductive WatchAct where
  | stand
  | yield
  | retake
  | unrefuse
  deriving DecidableEq, Repr

/-- What the caller knows about one served segment. -/
structure WatchIn where
  door : Bool
  weMaster : Bool
  pinned : Bool
  vacant : Bool
  verdict : HuntVerdict
  now : Nat
  /-- When the segment's sniffer opened. -/
  openedNs : Nat
  deriving DecidableEq, Repr

/-- A refused door's dwell, measured from when its sniffer opened. -/
def inDwell (staleNs now openedNs : Nat) : Bool :=
  decide (now ≤ openedNs) || decide (now - openedNs < staleNs)

/-- The whole table. -/
def reacWatchDecide (staleNs : Nat) (i : WatchIn) : WatchAct :=
  if i.door && i.vacant then
    if i.verdict = .hunting then .stand else .unrefuse
  else if i.door then
    if i.verdict = .refused then .stand
    else if inDwell staleNs i.now i.openedNs then .stand
    else .unrefuse
  -- a pin is the operator's answer about this wire
  else if i.pinned then .stand
  else match i.verdict with
    | .slave => if i.weMaster then .yield else .stand
    | .master => if i.weMaster then .stand else .retake
    | .hunting => .stand
    | .refused => .stand

/-- A kept sniffer, as far as the watch reads it. -/
structure Sniffer where
  verdict : HuntVerdict
  openedNs : Nat
  /-- We took this wire on silence and go on listening to it. -/
  watched : Bool
  deriving DecidableEq, Repr

/-- One poll: its clock, the verdict the hunt's step arrives at, and the listener a drop
and serve would leave. -/
structure WatchPoll where
  now : Nat
  fresh : HuntVerdict
  served : Listener
  deriving DecidableEq, Repr

/-- A tap masters nothing, whatever end its configuration was left at. -/
def listenerWeMaster (L : Listener) : Bool :=
  !L.cfg.doorOnly && !L.cfg.tap && L.cfg.role == .master

def watchIn (L : Listener) (sn : Sniffer) (now : Nat) : WatchIn :=
  { door := L.cfg.doorOnly, vacant := L.cfg.doorVacant, weMaster := listenerWeMaster L,
    pinned := L.cfg.rolePinned, verdict := sn.verdict, now := now, openedNs := sn.openedNs }

/-- What one poll of `hearing_yield` does about a segment.  A segment nobody watches and
a verdict that stands are not asked about. -/
def hearingYieldAct (staleNs : Nat) (L : Listener) (sn : Sniffer) (now : Nat)
    (fresh : HuntVerdict) : WatchAct :=
  if !L.cfg.doorOnly && !sn.watched then .stand
  else if fresh = sn.verdict then .stand
  else reacWatchDecide staleNs (watchIn L { sn with verdict := fresh } now)

/-- One segment's share of `hearing_yield`, and what it did.  Anything but standing
drops the segment and serves it on the fresh verdict. -/
def hearingYield (staleNs : Nat) (s : Listener × Sniffer) (p : WatchPoll) :
    (Listener × Sniffer) × WatchAct :=
  let (L, sn) := s
  if !L.opened then (s, .stand)
  else
    let act := hearingYieldAct staleNs L sn p.now p.fresh
    let stepped := L.cfg.doorOnly || sn.watched
    ((if act = .stand then L else p.served,
        if stepped then { sn with verdict := p.fresh } else sn), act)

/-- The polls of one segment's watch. -/
def watchMachine (staleNs : Nat) : StepMachine (Listener × Sniffer) WatchPoll WatchAct where
  step := hearingYield staleNs

end ReacPw
