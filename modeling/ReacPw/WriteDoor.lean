/-
A master's write door, whole (`sink_door_assert`, `reac_role_cfg`).

One Props object may carry head-amp cells, a rate and a role at once.  Three readers walk the
same `params`, each for its own keys, and each answers on its own: the cells go to the pacer,
the rate and the role wait on the node for the poll.

The segment's role record is the transport library's; a node without one, as a harness has
it, answers by itself.
-/
import ReacPw.HeadampDoor

namespace ReacPw

/-! ### The role -/

/-- `enum reac_role_refuse`, as far as a write can be refused. -/
inductive RoleRefuse where
  | accepted
  | malformed
  deriving DecidableEq, Repr

/-- `reac.cfg.role.state`. -/
inductive RoleState where
  | applied
  | reestablishPending
  deriving DecidableEq, Repr

def reacRoleCfgChanges (current requested : ReacRole) : Bool := current != requested

def reacRoleCfgApplyState (current requested : ReacRole) : RoleState :=
  if reacRoleCfgChanges current requested then .reestablishPending else .applied

/-- What the reader makes of a pod. -/
inductive RoleParse where
  | absent
  | malformed
  | role (requested : ReacRole)
  deriving DecidableEq, Repr

/-- The values a rate may be sent as. -/
def valuePodToRoleFlag : ParamPod → Option Int := valuePodToHz

/-- `REAC_CFG_ROLE_VALUE_MASTER` and `_SLAVE`. -/
def roleOfFlag (flag : Int) : RoleParse :=
  if flag = 0 then .role .master else if flag = 1 then .role .slave else .malformed

/-- The walk over the struct; the first `reac.cfg.role` decides. -/
def roleWalk : Option String → List ParamPod → RoleParse
  | _, [] => .absent
  | none, .str s :: rest => roleWalk (some s) rest
  | none, _ :: rest => roleWalk none rest
  | some k, value :: rest =>
      if k ≠ "reac.cfg.role" then roleWalk none rest
      else match valuePodToRoleFlag value with
        | none => .malformed
        | some flag => roleOfFlag flag

def reacRolePropParse : PropsPod → RoleParse
  | .notProps => .malformed
  | .noParams => .absent
  | .params pods => roleWalk none pods

/-! ### The door -/

/-- What the door reads and writes of the node; `ω` is the role record's. -/
structure SinkDoor (ω : Type*) where
  headamp : HeadampDoor
  /-- What waits for the poll. -/
  node : SinkNode
  sampleRate : Nat
  rateRefused : RateRefuse
  roleRefused : RoleRefuse
  roleState : RoleState
  /-- `role_swap`. -/
  swap : Option ω

/-- What a write is decided by, besides the node. -/
structure DoorWrite where
  facts : HeadampFacts
  drivable : RateMask
  /-- What the pacer takes between the cells. -/
  drains : List Nat

section
variable {ω : Type*} (limits : HeadampLimits)
  -- `reac_role_swap_request`
  (request : ω → ReacRole → ω × Bool)

def doorAssertHeadamp (w : DoorWrite) (d : SinkDoor ω) (pod : PropsPod) : SinkDoor ω :=
  { d with headamp := (sinkDoorAssertHeadamp limits d.headamp w.facts pod w.drains).1 }

def doorAssertRate (w : DoorWrite) (d : SinkDoor ω) (pod : PropsPod) : SinkDoor ω :=
  let parsed := reacRatePropParse pod
  match rateRefusal w.drivable parsed with
  | none => d
  | some refusal =>
      { d with
        rateRefused := refusal
        node := d.node.rateAssert d.sampleRate parsed.requested (refusal == .accepted) }

def doorAssertRole (d : SinkDoor ω) (pod : PropsPod) : SinkDoor ω :=
  match reacRolePropParse pod with
  | .absent => d
  | .malformed => { d with roleRefused := .malformed }
  | .role requested =>
      match d.swap with
      | some swap =>
          let r := request swap requested
          { d with
            roleRefused := .accepted
            swap := some r.1
            node := d.node.doorAssert { role := requested, accepted := r.2 } }
      | none =>
          { d with
            roleRefused := .accepted
            roleState := reacRoleCfgApplyState .master requested
            node := d.node.doorAssert
              { role := requested, accepted := reacRoleCfgChanges .master requested } }

/-- `sink_door_assert`. -/
def sinkDoorAssert (w : DoorWrite) (d : SinkDoor ω) (pod : PropsPod) : SinkDoor ω :=
  doorAssertRole request (doorAssertRate w (doorAssertHeadamp limits w d pod) pod) pod

end

end ReacPw
