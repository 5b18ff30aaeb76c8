/-
What a box answers the knock with, and the master it is handed to.

The frames of the answer are kept on the wire (`reac_knock_wire`), loaded into the
daemon's carry by the SERVE verb (`hearing_apply`), and copied from the carry into
the configuration of the listener that is opened (`hearing_serve`), whose sink feeds
them to its master before the pacer starts.  `hearing_yield` serves too, over a
sniffer that was kept, and loads nothing.

One segment is followed here: its sniffer's wire, the slot that serves it, and the
carry, which no other segment leaves loaded.  What its hunt says, what the conf says
of it and what the world answers an open are inputs.
-/
import ReacPw.KnockWire
import ReacPw.Hearing

namespace ReacPw

/-- Whether a sniffer outlives the serve of its wire (`reac_watch_keep`). -/
def reacWatchKeep (served : HuntVerdict) (pinned : Bool) : Bool :=
  match served with
  | .refused => true
  | .hunting => true
  | .master => !pinned
  | .slave => false

/-- Only a master hears the answer. -/
def mastersWire (c : ListenerCfg) : Bool := c.role == .master && !c.tap && !c.doorOnly

/-- One segment of the hearing, as far as the answer travels. -/
structure KnockSegment (μ κ : Type*) where
  name : String
  /-- The knock of its sniffer, `none` when no sniffer is open. -/
  kw : Option (ReacKnockWire μ κ) := none
  /-- The slot that serves it. -/
  L : Listener := .zeroed
  carry : List Frame := []
  carryPushes : Nat := 0
  /-- The slot's `cfg.knock_answer`. -/
  knockAnswer : List Frame := []

/-- What a serve reads besides the hunt. -/
structure AnswerServe where
  conf : ListenerCfg
  forcedRate : Nat
  slotFree : Bool
  fits : Bool
  answers : OpenAnswers

/-- One open of a listener, and what its sink is given. -/
structure AnswerOpen where
  /-- By `hearing_serve`; else a re-open in place. -/
  serve : Bool
  /-- It came up, and it masters the wire. -/
  master : Bool
  /-- The frames the wire held when the serve was asked for. -/
  held : List Frame
  handed : List Frame
  pushes : Nat
  deriving DecidableEq, Repr

/-- What an act gives. -/
structure AnswerOut (μ κ : Type*) where
  act : KnockWireAct := .none
  log : List (KnockEvent μ κ) := []
  opened : Option AnswerOpen := none

section
variable {μ κ : Type*} (A : MasterApi μ) (K : LicenceApi κ)

/-- The frames a segment's wire holds. -/
def KnockSegment.held (s : KnockSegment μ κ) : List Frame :=
  match s.kw with
  | some w => w.answer
  | none => []

/-- `hearing_serve`: the carry goes to a master, and to nobody else. -/
def hearingServeAnswer (s : KnockSegment μ κ) (held : List Frame) (hunt : Option Hunt)
    (a : AnswerServe) : KnockSegment μ κ × Option AnswerOpen :=
  if s.L.opened then (s, none)
  else if !a.slotFree then (s, none)
  else
    let cfg := serveCfg s.name a.conf hunt a.forcedRate
    let hands := s.carry ≠ [] ∧ mastersWire cfg
    let r := listenerServe cfg a.fits a.answers
    ({ s with L := r.1, knockAnswer := [] },
      some { serve := true, master := r.2 && mastersWire cfg, held := held,
             handed := if hands then s.carry else [],
             pushes := if hands then s.carryPushes else 0 })

/-- The answer goes with the verdict: off the wire, into the carry. -/
def answerLoad (s : KnockSegment μ κ) (w : ReacKnockWire μ κ) : KnockSegment μ κ :=
  if w.answer ≠ [] then
    { s with carry := w.answer, carryPushes := w.pushes, kw := some (reacKnockWireAnswerTaken w) }
  else { s with carry := [], kw := some w }

/-- A sniffer that is not kept is closed. -/
def snifferKept (s : KnockSegment μ κ) (keep : Bool) : KnockSegment μ κ :=
  if keep then s else { s with kw := none }

/-- `hearing_apply` on SERVE. -/
def hearingApplyServe (s : KnockSegment μ κ) (hunt : Hunt) (pinned : Bool) (a : AnswerServe) :
    KnockSegment μ κ × Option AnswerOpen :=
  let r :=
    match s.kw with
    | none => hearingServeAnswer { s with carry := [] } [] none a
    | some w =>
        hearingServeAnswer (snifferKept (answerLoad s w) (reacWatchKeep hunt.verdict pinned))
          w.answer (some hunt) a
  ({ r.1 with carry := [] }, r.2)

/-- `hearing_yield`, once the verdict asks for another role: down, then up. -/
def hearingYieldServe (s : KnockSegment μ κ) (hunt : Hunt) (a : AnswerServe) :
    KnockSegment μ κ × Option AnswerOpen :=
  hearingServeAnswer { s with L := { listenerClose s.L with opened := false } } s.held
    (some hunt) a

/-- A re-open in place: the slot's configuration is opened as it stands. -/
def answerReopen (s : KnockSegment μ κ) (change : ListenerCfg → ListenerCfg) (fits : Bool)
    (a : OpenAnswers) : KnockSegment μ κ × Option AnswerOpen :=
  let L := listenerReopen s.L change fits a
  ({ s with L := L },
    some { serve := false, master := L.opened && mastersWire L.cfg, held := s.held,
           handed := s.knockAnswer, pushes := 0 })

/-- What the daemon does to one segment. -/
inductive AnswerAct where
  /-- LISTEN: a sniffer is opened when there is none. -/
  | listen (src : List UInt8) (fps now : Nat)
  /-- UNLISTEN. -/
  | unlisten
  /-- DROP: the sniffer goes with the segment. -/
  | linkLost
  /-- Dropped by anything else: a budget yielded, a wire heard again, a trunk. -/
  | dropped
  /-- The hunt's poll, on a wire that is not served. -/
  | poll (trunkNow : Bool) (now : Nat)
  | frame (f : Frame) (evidence : Bool) (now : Nat)
  | knockTimer (send : Nat → Frame → Bool) (fuel now : Nat)
  | setHost (host : Bool)
  | serve (hunt : Hunt) (pinned : Bool) (a : AnswerServe)
  | yield (staleNs : Nat) (sniffer : Sniffer) (hunt : Hunt) (a : AnswerServe) (now : Nat)
  | reopen (change : ListenerCfg → ListenerCfg) (fits : Bool) (a : OpenAnswers)

/-- Whether the yield's poll takes the segment down and serves it again. -/
def yieldServes (s : KnockSegment μ κ) (staleNs : Nat) (sniffer : Sniffer) (hunt : Hunt)
    (now : Nat) : Bool :=
  s.kw.isSome && s.L.opened && hearingYieldAct staleNs s.L sniffer now hunt.verdict != .stand

def answerAct (isControl : Frame → Bool) (s : KnockSegment μ κ) :
    AnswerAct → KnockSegment μ κ × AnswerOut μ κ
  | .listen src fps now =>
      match s.kw with
      | some _ => (s, {})
      | none => ({ s with kw := some (reacKnockWireInit A K src fps now) }, {})
  | .unlisten => ({ s with kw := none }, {})
  | .linkLost => ({ s with kw := none, L := { listenerClose s.L with opened := false } }, {})
  | .dropped => ({ s with L := { listenerClose s.L with opened := false } }, {})
  | .poll trunkNow now =>
      match s.kw with
      | none => (s, {})
      | some w =>
          let r := reacKnockWireStep A K w false now trunkNow
          ({ s with kw := some r.1 }, { act := r.2 })
  | .frame f evidence now =>
      match s.kw with
      | none => (s, {})
      | some w =>
          let r := reacKnockWireHeard K isControl w now (some f) evidence
          ({ s with kw := some r.1 }, { act := r.2 })
  | .knockTimer send fuel now =>
      match s.kw with
      | none => (s, {})
      | some w =>
          match reacKnockWireRun A fuel w now send with
          | none => (s, {})
          | some r => ({ s with kw := some r.wire }, { log := r.log })
  | .setHost host =>
      ({ s with kw := s.kw.map fun w => reacKnockWireSetHost w host }, {})
  | .serve hunt pinned a =>
      let r := hearingApplyServe s hunt pinned a
      (r.1, { opened := r.2 })
  | .yield staleNs sniffer hunt a now =>
      if yieldServes s staleNs sniffer hunt now then
        let r := hearingYieldServe s hunt a
        (r.1, { opened := r.2 })
      else (s, {})
  | .reopen change fits a =>
      if s.L.opened then
        let r := answerReopen s change fits a
        (r.1, { opened := r.2 })
      else (s, {})

/-- One segment, act by act. -/
def answerMachine (isControl : Frame → Bool) :
    StepMachine (KnockSegment μ κ) AnswerAct (AnswerOut μ κ) where
  step := answerAct A K isControl

end

end ReacPw
