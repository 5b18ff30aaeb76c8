/-
Which peer the receive gate is locked to (`reac_rx_bind`).

On a segment somebody else masters, the gate compares source addresses once it is told
whose.  A hint, the address the hunt decided on, locks it at once and for good.  Without
one, every main-loop tick brings the address the slave engine has learned: it is timed,
and locks the gate when it has been the answer for the whole window and enough frames
have been decoded.

An address is its six bytes, packed; zero is none.
-/
import ReacPw.Lib.Run

namespace ReacPw

/-- `REAC_RX_BIND_FRAMES`. -/
def reacRxBindFrames : Nat := 8

/-- `REAC_RX_BIND_STABLE_NS`. -/
def reacRxBindStableNs : Nat := 500 * 1000000

/-- A packed address. -/
abbrev Mac48 := BitVec 48

structure RxBind where
  lockedMac : Mac48 := 0#48
  locked : Bool := false
  /-- The lock came from the hunt. -/
  fromHint : Bool := false
  /-- The learned address being timed. -/
  cand : Mac48 := 0#48
  haveCand : Bool := false
  candSinceNs : Nat := 0
  deriving DecidableEq, Repr

def reacRxBindInit : RxBind := {}

/-- What a call did: what it returned, and the addresses it reset the gate's peer to. -/
structure RxBindDone where
  moved : Bool := false
  resets : List Mac48 := []
  deriving DecidableEq, Repr

def lockTo (b : RxBind) (mac : Mac48) (fromHint : Bool) : RxBind :=
  { b with lockedMac := mac, locked := true, fromHint := fromHint }

def reacRxBindHint (b : RxBind) (mac : Mac48) : RxBind × RxBindDone :=
  (lockTo b mac true, { resets := [mac] })

/-- What a main-loop tick brings: the learned address, the gate's count of decoded frames
and the time. -/
structure RxBindTick where
  learnedMac48 : Mac48
  framesOk : Nat
  nowNs : Nat
  deriving DecidableEq, Repr

def reacRxBindTick (b : RxBind) (t : RxBindTick) : RxBind × RxBindDone :=
  if b.locked && b.fromHint then (b, {})
  else if t.learnedMac48 = 0#48 then ({ b with haveCand := false }, {})
  else if b.locked ∧ b.lockedMac = t.learnedMac48 then ({ b with haveCand := false }, {})
  else if !b.haveCand ∨ b.cand ≠ t.learnedMac48 then
    -- a different address restarts the clock
    ({ b with cand := t.learnedMac48, haveCand := true, candSinceNs := t.nowNs }, {})
  else if t.framesOk < reacRxBindFrames ∨ t.nowNs < b.candSinceNs ∨
      t.nowNs - b.candSinceNs < reacRxBindStableNs then
    (b, {})
  else
    ({ lockTo b t.learnedMac48 false with haveCand := false },
      { moved := true, resets := [t.learnedMac48] })

/-! ### Runs of the gate -/

inductive RxBindCall where
  | hint (mac : Mac48)
  | tick (t : RxBindTick)
  deriving DecidableEq, Repr

def rxBindMachine : StepMachine RxBind RxBindCall RxBindDone where
  step b
    | .hint mac => reacRxBindHint b mac
    | .tick t => reacRxBindTick b t

/-- The ticks of a run, oldest first. -/
def rxTicks (run : List RxBindCall) : List RxBindTick :=
  run.filterMap fun
    | .hint _ => none
    | .tick t => some t

/-- The ticks' clock never goes back. -/
def RxClock (run : List RxBindCall) : Prop :=
  ((rxTicks run).map (·.nowNs)).Pairwise (· ≤ ·)

instance (run : List RxBindCall) : Decidable (RxClock run) :=
  inferInstanceAs (Decidable (List.Pairwise _ _))

end ReacPw
