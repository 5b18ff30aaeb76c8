/-
A master's rate door.

A Props object may carry a `reac.cfg.rate` assertion.  It is read out of the flat list of
keys and values under `params`, decided against the closed list of paces and what the
engine can drive, and an accepted rate is left on the sink for the 200 ms poll, which
re-opens the segment at it (`on_rate_reopen_timer`).
-/
import ReacPw.Segment
import ReacPw.Lib.Run

namespace ReacPw

/-- `enum reac_rate_refuse`. -/
inductive RateRefuse where
  | accepted
  | notClosed
  | notDrivable
  | roleSlave
  | malformed
  deriving DecidableEq, Repr

/-- The bits of a `drivable_mask`. -/
structure RateMask where
  hz44100 : Bool
  hz48000 : Bool
  hz96000 : Bool
  deriving DecidableEq, Repr

def reacRateIsClosed (hz : Int) : Bool := hz == 44100 || hz == 48000 || hz == 96000

/-- The rate's bit (`reac_rate_bit`) is set in the mask; a rate not in the list has none. -/
def RateMask.drives (mask : RateMask) (hz : Int) : Bool :=
  if hz = 44100 then mask.hz44100
  else if hz = 48000 then mask.hz48000
  else if hz = 96000 then mask.hz96000
  else false

def reacRateCfgDecide (role : ReacRole) (requestedHz : Int) (drivable : RateMask) : RateRefuse :=
  if role = .slave then .roleSlave
  else if !reacRateIsClosed requestedHz then .notClosed
  else if !drivable.drives requestedHz then .notDrivable
  else .accepted

/-! ### Reading the assertion -/

/-- A pod of the `params` struct, as the readers of a door take it. -/
inductive ParamPod where
  | str (s : String)
  | bool (b : Bool)
  | int (i : Int)
  /-- A float, and its nearest integer when that is an `int`. -/
  | float (nearest : Option Int)
  | other
  deriving DecidableEq, Repr

/-- The pod a node is handed. -/
inductive PropsPod where
  /-- No Props object at all. -/
  | notProps
  /-- A Props object with no `params`, or one that is no struct. -/
  | noParams
  | params (pods : List ParamPod)
  deriving DecidableEq, Repr

/-- What a reader makes of a pod. -/
inductive RateParse where
  | absent
  | malformed
  | hz (requested : Int)
  deriving DecidableEq, Repr

def valuePodToHz : ParamPod → Option Int
  | .int i => some i
  | .float nearest => nearest
  | _ => none

/-- The walk over the struct; `key` is the key that awaits its value.  The first
`reac.cfg.rate` decides. -/
def rateWalk : Option String → List ParamPod → RateParse
  | _, [] => .absent
  | none, .str s :: rest => rateWalk (some s) rest
  | none, _ :: rest => rateWalk none rest
  | some k, value :: rest =>
      if k ≠ "reac.cfg.rate" then rateWalk none rest
      else match valuePodToHz value with
        | none => .malformed
        | some hz => .hz hz

def reacRatePropParse : PropsPod → RateParse
  | .notProps => .malformed
  | .noParams => .absent
  | .params pods => rateWalk none pods

/-- The answer to a Props object, none when it asserts no rate.  The door is a master's. -/
def rateRefusal (drivable : RateMask) : RateParse → Option RateRefuse
  | .absent => none
  | .malformed => some .malformed
  | .hz requested => some (reacRateCfgDecide .master requested drivable)

/-- What the parse left in `req_hz`. -/
def RateParse.requested : RateParse → Nat
  | .hz requested => requested.toNat
  | _ => 0

/-! ### The door and the poll -/

/-- The rate's half of `sink_door_assert`, and the answer it publishes. -/
def sinkDoorAssertRate (L : Listener) (pod : PropsPod) (drivable : RateMask) :
    Listener × Option RateRefuse :=
  let parsed := reacRatePropParse pod
  match rateRefusal drivable parsed with
  | none => (L, none)
  | some refusal =>
      (listenerRateWrite L parsed.requested (refusal == .accepted), some refusal)

/-- What happens to a master's segment while no role is asserted. -/
inductive RateEvent where
  | assertion (pod : PropsPod) (drivable : RateMask)
  /-- `on_rate_reopen_timer` comes to the listener. -/
  | tick (hearing : Bool) (t : TickAnswers)
  deriving DecidableEq, Repr

inductive RateOut where
  /-- The answer to a Props object, and the rate it asked for. -/
  | answered (refusal : Option RateRefuse) (hz : Nat)
  | polled (act : TickAct)
  deriving DecidableEq, Repr

def rateStep (L : Listener) : RateEvent → Listener × RateOut
  | .assertion pod drivable =>
      let r := sinkDoorAssertRate L pod drivable
      (r.1, .answered r.2 (reacRatePropParse pod).requested)
  | .tick hearing t =>
      let r := rateReopenTick hearing L t
      (r.1, .polled r.2)

/-- The last accepted rate, after one more answer. -/
def noteRate (last : Nat) : RateOut → Nat
  | .answered (some .accepted) hz => hz
  | _ => last

/-- A master's segment, and the last rate it accepted, or was booted at. -/
def rateMachine : StepMachine (Listener × Nat) RateEvent RateOut :=
  (StepMachine.mk rateStep).withHistory fun last _ _ out => noteRate last out

/-- The accepted rate that waits for the poll, 0 for none. -/
def waitingRate (L : Listener) : Nat := (L.sink.map (·.reopenRate)).getD 0

end ReacPw
