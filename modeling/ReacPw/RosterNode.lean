/-
The roster's node (`reac_roster_node`) and the tick that keeps it
(`on_roster_timer`).

A PipeWire node's properties can be merged into and nothing can be taken out of
them, so a group that leaves takes the node with it: the tick destroys the node,
builds a fresh one and publishes the whole roster as sets.

What the graph answers on a tick is its input: whether the node is still on it,
whether a node can be built, whether a publish finds memory.  So are the segments
the tick finds in the daemon's tables, in the order it finds them.  Announcing the
node in the journal is not modelled.
-/
import ReacPw.Roster

namespace ReacPw

/-- What is on the node from the start. -/
def rosterCreateProps : PropMap String String :=
  PropMap.merge (fun _ => none)
    [("node.name", "reac-pw"), ("node.description", "REAC segments (reac-pw)"),
      ("media.class", "Reac/Roster"), ("reac.roster", "1")]

/-- A delta merged into the node.  One with a removal in it is refused whole. -/
def reacRosterNodePublish (node : PropMap String String) (kv : List RosterKv)
    (allocOk : Bool) : Option (PropMap String String) :=
  if kv = [] then none
  else if kv.any (·.remove) then none
  else if !allocOk then none
  else some (node.merge (kv.map fun e => (e.key, e.val)))

/-- One segment a tick finds in the daemon's tables. -/
structure RosterFound where
  name : IfName
  state : RosterState
  model : String
  role : String
  source : String
  in_ : Int
  out : Int
  /-- Empty when there is nothing to say over the state's own sentence. -/
  said : String
  deriving DecidableEq

/-- One found segment added, with its sentence. -/
def rosterCollectOne (r : Roster) (f : RosterFound) : Roster :=
  match reacRosterAdd r f.name f.state f.model f.role f.source f.in_ f.out with
  | (r, true) => if f.said = "" then r else reacRosterStatus r f.name f.said
  | (r, false) => r

/-- The whole wanted roster, derived afresh. -/
def rosterCollect (r : Roster) (found : List RosterFound) : Roster :=
  found.foldl rosterCollectOne (reacRosterBegin r)

/-- What a tick finds. -/
structure RosterTick where
  onGraph : Bool
  /-- A node can be built where none was. -/
  newOk : Bool
  found : List RosterFound
  /-- A node can be built in the place of one that must go. -/
  rebuildOk : Bool
  allocOk : Bool
  deriving DecidableEq

structure RosterWorld where
  roster : Roster
  node : Option (PropMap String String)
  /-- Ticks without a node. -/
  ticks : Nat

def RosterWorld.start : RosterWorld := { roster := reacRosterInit, node := none, ticks := 0 }

/-- What a tick did. -/
structure RosterReport where
  /-- The delta handed to publish. -/
  handed : Option (List RosterKv) := none
  /-- A delta that did not fit. -/
  unfit : Bool := false
  /-- It committed, or there was nothing to publish. -/
  settled : Bool := false

/-- The node the server took away is forgotten. -/
def rosterNodeLost (s : RosterWorld) (t : RosterTick) : RosterWorld :=
  if s.node.isSome && !t.onGraph then { s with node := none, roster := reacRosterForget s.roster }
  else s

/-- Every tenth tick without a node tries to build one. -/
def rosterNodeWanted (s : RosterWorld) (t : RosterTick) : RosterWorld :=
  if s.node.isSome then s
  else if s.ticks % 10 ≠ 0 then { s with ticks := s.ticks + 1 }
  else { s with ticks := s.ticks + 1, node := if t.newOk then some rosterCreateProps else none }

/-- A group that leaves takes the node with it. -/
def rosterNodeRebuilt (s : RosterWorld) (t : RosterTick) : RosterWorld :=
  if reacRosterShrank s.roster then
    { s with node := if t.rebuildOk then some rosterCreateProps else none,
             roster := reacRosterForget s.roster }
  else s

/-- The delta, published and committed. -/
def rosterPublish (s : RosterWorld) (node : PropMap String String) (t : RosterTick) :
    RosterWorld × RosterReport :=
  match reacRosterDelta s.roster reacRosterKvMax with
  | none => (s, { unfit := true })
  | some [] => (s, { settled := true })
  | some kv =>
      match reacRosterNodePublish node kv t.allocOk with
      | none => (s, { handed := some kv })
      | some node =>
          ({ s with node := some node, roster := reacRosterCommit s.roster },
            { handed := some kv, settled := true })

/-- One tick. -/
def onRosterTimer (s : RosterWorld) (t : RosterTick) : RosterWorld × RosterReport :=
  let s := rosterNodeWanted (rosterNodeLost s t) t
  if s.node.isNone then (s, {})
  else
    let s := rosterNodeRebuilt { s with roster := rosterCollect s.roster t.found } t
    match s.node with
    | none => (s, {})
    | some node => rosterPublish s node t

end ReacPw
