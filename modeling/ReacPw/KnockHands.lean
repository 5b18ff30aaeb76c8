/-
The knock's hands: the socket and the clock of one sniffer (`main.c`).

`reac_knock_wire` decides what goes out and when.  What it decides goes out through a
sender that is opened for a spell and closed with it, on a timer that is armed, once, at
the next frame's time.  The wire's frames are read dry in the socket's own callback and by
the poll before it decides; the poll also sees the trunk, and asks the wire for a knock.

One wire is followed: its sniffer is opened and closed, and all that is said of the
interface is an input, as are the socket's and the timer's own answers.
-/
import ReacPw.KnockWire

namespace ReacPw

/-- A frame of a batch that is REAC's: what it is, and whether the hunt has a role for it. -/
structure HeardFrame where
  frame : Frame
  evidence : Bool
  deriving DecidableEq, Repr

/-- The knock's side of `struct sniffer`. -/
structure KnockSniffer (μ κ : Type*) where
  kw : ReacKnockWire μ κ
  /-- The hunt's pin. -/
  pinned : Bool
  tapPinned : Bool
  watchSilence : Bool
  txOpen : Bool := false
  /-- There is a timer. -/
  timer : Bool := false
  /-- When it fires next, once. -/
  armed : Option Nat := none

section
variable {μ κ : Type*} (A : MasterApi μ) (K : LicenceApi κ) (isControl : Frame → Bool)

/-- What the interface is, as a sniffer finds it on opening. -/
structure ListenAs where
  pinned : Bool
  tapPinned : Bool
  wireless : Bool
  src : List UInt8
  fps : Nat
  now : Nat

/-- `sniffer_open_ex`, the knock's side. -/
def snifferOpenEx (l : ListenAs) : KnockSniffer μ κ where
  kw := reacKnockWireInit A K l.src l.fps l.now
  pinned := l.pinned
  tapPinned := l.tapPinned
  watchSilence := !l.pinned && !l.tapPinned && !l.wireless

/-- When the timer should fire: at the knock's next frame, while its sender is open. -/
def wantedAt (sn : KnockSniffer μ κ) : Option Nat :=
  if sn.txOpen ∧ sn.kw.state = .knocking ∧ sn.kw.dueNs ≠ 0 then some sn.kw.dueNs else none

/-- `knock_arm`. -/
def knockArm (sn : KnockSniffer μ κ) : KnockSniffer μ κ :=
  if sn.timer then { sn with armed := wantedAt sn } else sn

/-- `knock_start`: the sender first, and without it nothing else. -/
def knockStart (sn : KnockSniffer μ κ) (opens timerOk : Bool) : KnockSniffer μ κ :=
  if !sn.txOpen && !opens then sn
  else knockArm { sn with txOpen := true, timer := sn.timer || timerOk }

/-- `knock_stop`. -/
def knockStop (sn : KnockSniffer μ κ) : KnockSniffer μ κ := knockArm { sn with txOpen := false }

/-- One frame of a batch: the wire hears it, and evidence hushes the knock. -/
def drainFrame (now : Nat) (sn : KnockSniffer μ κ) (f : HeardFrame) : KnockSniffer μ κ :=
  let r := reacKnockWireHeard K isControl sn.kw now (some f.frame) f.evidence
  if r.2 = .hush then knockStop { sn with kw := r.1 } else { sn with kw := r.1 }

/-- `sniffer_drain`, of the frames that are REAC's. -/
def snifferDrain (now : Nat) (sn : KnockSniffer μ κ) (frames : List HeardFrame) :
    KnockSniffer μ κ :=
  frames.foldl (drainFrame K isControl now) sn

/-- What `hearing_hunt` finds of one sniffer. -/
structure HuntPoll where
  now : Nat
  /-- The interface is linked: no segment, and not held. -/
  linked : Bool
  queued : List HeardFrame
  drainedAt : Nat
  trunkNow : Bool
  /-- The tap has yet to place what was heard, or a refused serve is being waited out. -/
  waits : Bool
  /-- The kernel says the interface is the host's. -/
  hosts : Bool
  opens : Bool
  timerOk : Bool

/-- `hearing_hunt` on one sniffer, up to the hunt's own verdict. -/
def hearingHuntKnock (sn : KnockSniffer μ κ) (p : HuntPoll) : KnockSniffer μ κ :=
  if !p.linked then sn
  else
    let sn := snifferDrain K isControl p.drainedAt sn p.queued
    if p.trunkNow then
      if !sn.watchSilence then sn
      else
        let r := reacKnockWireStep A K sn.kw sn.pinned p.now true
        if r.2 = .trunk then knockStop { sn with kw := r.1 } else { sn with kw := r.1 }
    else if p.waits || sn.tapPinned || !sn.watchSilence then sn
    else
      let r := reacKnockWireStep A K sn.kw sn.pinned p.now false
      if r.2 = .knock then
        knockStart { sn with kw := reacKnockWireSetHost r.1 p.hosts } p.opens p.timerOk
      else { sn with kw := r.1 }

/-- What happens to the wire's sniffer. -/
inductive HandsEvent where
  /-- LISTEN, and every re-opening. -/
  | listen (l : ListenAs)
  /-- UNLISTEN, and every other closing. -/
  | close
  /-- The socket is readable. -/
  | io (frames : List HeardFrame) (now : Nat)
  | poll (p : HuntPoll)
  /-- `hearing_knock_wake` says whose the interface is. -/
  | wake (hosts : Bool)
  /-- SERVE takes the answer off a sniffer that is kept. -/
  | served
  /-- The loop runs the timer's callback, at or after its time. -/
  | timer (now : Nat) (send : Nat → Frame → Bool)

/-- The sniffer, when there is one; a run that does not come back leaves the loop hung. -/
structure KnockHands (μ κ : Type*) where
  sn : Option (KnockSniffer μ κ) := none
  hung : Bool := false

/-- `on_knock_timer`, on a timer that has fired. -/
def onKnockTimer (sn : KnockSniffer μ κ) (now : Nat) (send : Nat → Frame → Bool) :
    Option (KnockSniffer μ κ × List (KnockEvent μ κ)) :=
  if !sn.txOpen then some (sn, [])
  else
    (reacKnockWireRun A (turnsLeft A sn.kw now + 1) sn.kw now send).map fun r =>
      (knockArm { sn with kw := r.wire }, r.log)

/-- What one event does to a sniffer, and what its knock did in it; `none` hangs. -/
def handsOn (sn : KnockSniffer μ κ) :
    HandsEvent → Option (Option (KnockSniffer μ κ) × List (KnockEvent μ κ))
  | .listen _ => some (some sn, [])
  | .close => some (none, [])
  | .io frames now => some (some (snifferDrain K isControl now sn frames), [])
  | .poll p => some (some (hearingHuntKnock A K isControl sn p), [])
  | .wake hosts =>
    if sn.txOpen && sn.kw.state = .knocking then
      some (some { sn with kw := reacKnockWireSetHost sn.kw hosts }, [])
    else some (some sn, [])
  | .served =>
    if sn.kw.answer ≠ [] then some (some { sn with kw := reacKnockWireAnswerTaken sn.kw }, [])
    else some (some sn, [])
  | .timer now send =>
    match sn.armed with
    | none => some (some sn, [])
    | some due =>
      if now < due then some (some sn, [])
      else (onKnockTimer A { sn with armed := none } now send).map fun r => (some r.1, r.2)

/-- One event. -/
def handsStep (h : KnockHands μ κ) (e : HandsEvent) :
    KnockHands μ κ × List (KnockEvent μ κ) :=
  if h.hung then (h, [])
  else
    match h.sn with
    | none =>
      match e with
      | .listen l => ({ sn := some (snifferOpenEx A K l) }, [])
      | _ => (h, [])
    | some sn =>
      match handsOn A K isControl sn e with
      | none => ({ h with hung := true }, [])
      | some r => ({ sn := r.1 }, r.2)

/-- One wire's hands, event by event, with what its knock did. -/
def handsMachine : StepMachine (KnockHands μ κ) HandsEvent (List (KnockEvent μ κ)) where
  step := handsStep A K isControl

end

end ReacPw
