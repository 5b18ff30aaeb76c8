/-
The knock on a silent wire (`reac_knock_wire`).

A wire nobody pinned is listened to, and knocked on once libreac's licence says it
has no master.  A knock is one cycle of libreac's master without its FILLER: the
master is stepped slot by slot at the wire's cadence, the slots it stamps with a
control block are sent, the others are left empty.  Unanswered knocks back off.
The first evidence heard ends the spell, and the box's control frames are kept for
the master that follows.

libreac is a parameter twice over: its master is a machine of slots, its licence a
machine of frames heard and time gone by.  The sender's answers are an input of
each `run`.  The counters of the wire are unbounded here.
-/
import ReacPw.LinkBudget
import ReacPw.Lib.Loop
import ReacPw.Lib.Run

namespace ReacPw

open Loop

/-- The bytes of a frame. -/
abbrev Frame := List UInt8

/-! ### libreac -/

/-- What a slot of the master's carries (`enum reac_master_emit`). -/
inductive MasterEmit where
  | filler
  | sceneHead
  | sceneChunk
  | sceneTail
  /-- Another control block: the channel map, an announce. -/
  | control (kind : Nat)
  deriving DecidableEq, Repr

def MasterEmit.isScene : MasterEmit → Bool
  | sceneHead | sceneChunk | sceneTail => true
  | filler | control _ => false

/-- What `reac_master_next` answers about one slot. -/
structure MasterSlot where
  emit : MasterEmit
  counter : Nat
  idx : Nat
  deriving DecidableEq, Repr

/-- libreac's master: a machine of slots. -/
structure MasterApi (μ : Type*) where
  /-- The zeroes of a fresh struct. -/
  zeroed : μ
  /-- `reac_master_init`, as the idle console with the pace code of the cadence. -/
  init : List UInt8 → Nat → μ
  cycleLen : μ → Nat
  cyclePos : μ → Nat
  sub01Off : μ → Nat
  next : μ → MasterSlot × μ
  /-- A silent downstream frame with this slot's counter and source. -/
  downstreamBuild : Nat → List UInt8 → Frame
  /-- The master's control block over it, `none` when there is none to stamp. -/
  stamp : μ → Frame → MasterEmit → Nat → Option Frame
  /-- How many chunks a scene transfer has. -/
  sceneChunks : Nat

/-- The cycle is set by init, and is not empty. -/
class LawfulMaster {μ : Type*} (A : MasterApi μ) : Prop where
  cycleLen_next : ∀ m, A.cycleLen (A.next m).2 = A.cycleLen m
  cycleLen_init : ∀ src fps, 0 < fps → 0 < A.cycleLen (A.init src fps)

/-- libreac's masterless licence, and the silence it asks for. -/
structure LicenceApi (κ : Type*) where
  init : Nat → κ
  /-- The licence, and whether it says to drive. -/
  step : κ → Nat → κ × Bool
  heard : κ → Nat → κ
  listenNs : Nat

/-! ### The wire -/

def reacKnockWirePeriodMaxNs : Nat := 30 * 1000000000
def reacKnockWireLateNs : Nat := 8 * 1000000
def reacKnockWireAnswers : Nat := 4

inductive KnockWireState where
  | listening
  | knocking
  | answered
  | trunk
  deriving DecidableEq, Repr

inductive KnockWireAct where
  | none
  | knock
  | hush
  | trunk
  | untrunk
  deriving DecidableEq, Repr

structure ReacKnockWire (μ κ : Type*) where
  state : KnockWireState := .listening
  licence : κ
  master : μ
  src : List UInt8
  fps : Nat
  host : Bool := false
  /-- Knocks since the backoff was reset. -/
  unanswered : Nat := 0
  /-- Between two knocks. -/
  resting : Bool := false
  nextNs : Nat := 0
  /-- When slot 0 of this knock fell. -/
  t0Ns : Nat := 0
  /-- The next slot the master is stepped through. -/
  slot : Nat := 0
  /-- When the next frame falls due, 0 for none. -/
  dueNs : Nat := 0
  sent : Nat := 0
  spellSent : Nat := 0
  sendErrors : Nat := 0
  late : Nat := 0
  /-- Whole transfers sent. -/
  pushes : Nat := 0
  /-- Knocks opened in this spell. -/
  cycles : Nat := 0
  headSent : Bool := false
  chunksSent : Nat := 0
  /-- Spells. -/
  knocks : Nat := 0
  /-- The last frame heard, 0 for none. -/
  lastHeardNs : Nat := 0
  /-- The first `n_answer` rows of the C array. -/
  answer : List Frame := []
  answerSrc : List UInt8 := []
  answeredCycle : Nat := 0

section
variable {μ κ : Type*} (A : MasterApi μ) (K : LicenceApi κ)

def reacKnockWireInit (src : List UInt8) (fps now : Nat) : ReacKnockWire μ κ :=
  { licence := K.init now, master := A.zeroed, src := src.take 6, fps := fps }

def reacKnockWireSetHost (w : ReacKnockWire μ κ) (host : Bool) : ReacKnockWire μ κ :=
  { w with host := host }

def backoffReset (w : ReacKnockWire μ κ) : ReacKnockWire μ κ := { w with unanswered := 0 }

def slotNs (w : ReacKnockWire μ κ) (slot : Nat) : Nat :=
  w.t0Ns + slot * 1000000000 / w.fps

/-- The walk to the transfer's header, `n` slots at most. -/
def toHeader : Nat → μ → μ
  | 0, m => m
  | n + 1, m => if A.cyclePos m = A.sub01Off m then m else toHeader n (A.next m).2

/-- A fresh master, stepped without a clock to the transfer's header. -/
def masterAtHeader (src : List UInt8) (fps : Nat) : μ :=
  toHeader A (A.cycleLen (A.init src fps)) (A.init src fps)

def reacKnockWireCycleSlots (fps : Nat) : Nat :=
  if fps = 0 then 0 else A.cycleLen (masterAtHeader A [2, 0, 0, 0, 0, 0] fps)

/-- A period doubled `n` times, or until it is over the ceiling. -/
def doubled : Nat → Nat → Nat
  | 0, p => p
  | n + 1, p => if p < reacKnockWirePeriodMaxNs then doubled n (p * 2) else p

/-- The period between unanswered knock `n` and the next. -/
def reacKnockWirePeriodNs (w : ReacKnockWire μ κ) (n : Nat) : Nat :=
  let slots :=
    if 0 < A.cycleLen w.master then A.cycleLen w.master else reacKnockWireCycleSlots A w.fps
  if w.fps = 0 ∨ slots = 0 then reacKnockWirePeriodMaxNs
  else min (doubled n (slots * 1000000000 / w.fps)) reacKnockWirePeriodMaxNs

/-- The first slot from `s` on that is not FILLER, asked of a copy of the master that `n`
slots are left of; past them it is the knock's end. -/
def peekDue (w : ReacKnockWire μ κ) : Nat → Nat → μ → Nat
  | 0, _, _ => slotNs w (A.cycleLen w.master)
  | n + 1, s, peek =>
      if (A.next peek).1.emit ≠ .filler then slotNs w s
      else peekDue w n (s + 1) (A.next peek).2

def knockPeek (w : ReacKnockWire μ κ) : ReacKnockWire μ κ :=
  if w.resting then { w with dueNs := w.nextNs }
  else { w with dueNs := peekDue A w (A.cycleLen w.master - w.slot) w.slot w.master }

def knockOpen (w : ReacKnockWire μ κ) (atNs : Nat) : ReacKnockWire μ κ :=
  knockPeek A { w with
    master := masterAtHeader A w.src w.fps
    resting := false
    t0Ns := atNs
    slot := 0
    headSent := false
    chunksSent := 0
    cycles := w.cycles + 1 }

def knockRest (w : ReacKnockWire μ κ) : ReacKnockWire μ κ :=
  knockPeek A { w with
    nextNs := w.t0Ns + reacKnockWirePeriodNs A w w.unanswered
    unanswered := w.unanswered + 1
    resting := true }

/-! ### The poll, the frames and the hand-over -/

/-- One step of the poll; `pinned` is that there is a hunt and it is pinned. -/
def reacKnockWireStep (w : ReacKnockWire μ κ) (pinned : Bool) (now : Nat) (trunkNow : Bool) :
    ReacKnockWire μ κ × KnockWireAct :=
  if trunkNow then
    if w.state = .trunk then (w, .none)
    else ({ w with state := .trunk, dueNs := 0 }, .trunk)
  else if w.state = .trunk then
    (backoffReset { w with state := .listening, licence := K.init now }, .untrunk)
  else if pinned then (w, .none)
  else if w.state = .knocking then (w, .none)
  else
    let w' := { w with licence := (K.step w.licence now).1 }
    if (K.step w.licence now).2 then
      (knockOpen A { w' with
          state := .knocking
          knocks := w.knocks + 1
          cycles := 0
          spellSent := 0
          answer := [] } now, .knock)
    else (w', .none)

/-- A frame heard after a silence starts the backoff again, and ends a rest. -/
def heardSilence (w : ReacKnockWire μ κ) (now : Nat) : ReacKnockWire μ κ :=
  let after := w.lastHeardNs = 0 ∨ K.listenNs ≤ now - w.lastHeardNs
  let w := { w with lastHeardNs := now }
  if after then
    if w.state = .knocking ∧ w.resting then
      { backoffReset w with nextNs := now, dueNs := now }
    else backoffReset w
  else w

/-- Evidence ends the knock. -/
def heardEvidence (w : ReacKnockWire μ κ) (frame : Option Frame) (evidence : Bool) :
    ReacKnockWire μ κ × KnockWireAct :=
  if w.state = .knocking ∧ evidence then
    ({ w with
        state := .answered
        dueNs := 0
        answer := []
        answeredCycle := w.cycles
        answerSrc :=
          match frame with
          | some f => if 12 ≤ f.length then (f.drop 6).take 6 else w.answerSrc
          | none => w.answerSrc }, .hush)
  else (w, .none)

/-- Control frames are kept from the answer on (`isControl` is `reac_ctrl_parse`). -/
def heardKeep (isControl : Frame → Bool) (w : ReacKnockWire μ κ) (frame : Option Frame) :
    ReacKnockWire μ κ :=
  match frame with
  | none => w
  | some f =>
      if w.state = .answered ∧ f ≠ [] ∧ w.answer.length < reacKnockWireAnswers ∧ isControl f then
        { w with answer := w.answer ++ [f.take reacFrameBytes] }
      else w

def reacKnockWireHeard (isControl : Frame → Bool) (w : ReacKnockWire μ κ) (now : Nat)
    (frame : Option Frame) (evidence : Bool) : ReacKnockWire μ κ × KnockWireAct :=
  if w.state = .trunk then (w, .none)
  else
    let w := heardSilence K w now
    let w := { w with licence := K.heard w.licence now }
    ((heardKeep isControl (heardEvidence w frame evidence).1 frame),
      (heardEvidence w frame evidence).2)

def reacKnockWireAnswerTaken (w : ReacKnockWire μ κ) : ReacKnockWire μ κ :=
  if w.state = .answered then { w with answer := [], state := .listening }
  else { w with answer := [] }

/-! ### The run -/

/-- A slot the master was stepped through. -/
structure SlotStep (μ κ : Type*) where
  /-- The wire as the slot came up. -/
  wire : ReacKnockWire μ κ
  now : Nat
  emit : MasterEmit
  /-- The frame given to the sender, if one was. -/
  handed : Option Frame
  /-- The sender said it left. -/
  left : Bool

/-- What a knock does, for the record. -/
inductive KnockEvent (μ κ : Type*) where
  | opened (atNs : Nat)
  | stepped (s : SlotStep μ κ)

/-- What the loop carries, with the record of what it did, newest first. -/
structure KnockRun (μ κ : Type*) where
  wire : ReacKnockWire μ κ
  sent : Nat := 0
  log : List (KnockEvent μ κ) := []

/-- A transfer counts only if its FIRST, every MIDDLE and its LAST left. -/
def sceneStep (w : ReacKnockWire μ κ) (emit : MasterEmit) (left : Bool) : ReacKnockWire μ κ :=
  if !emit.isScene then w
  else if !left then { w with headSent := false }
  else
    match emit with
    | .sceneHead => { w with headSent := true, chunksSent := 0 }
    | .sceneChunk => { w with chunksSent := w.chunksSent + 1 }
    | _ =>
        if w.headSent ∧ w.chunksSent = A.sceneChunks then
          { w with pushes := w.pushes + 1, headSent := false }
        else w

/-- The slot that has come: the master is stepped through it, and what it stamps is sent
unless it is late.  `send` is asked with how much this run has done so far. -/
def sendSlot (now : Nat) (send : Nat → Frame → Bool) (r : KnockRun μ κ) : KnockRun μ κ :=
  let s := (A.next r.wire.master).1
  let w := { r.wire with master := (A.next r.wire.master).2, slot := r.wire.slot + 1 }
  let note (handed : Option Frame) (left : Bool) : List (KnockEvent μ κ) :=
    .stepped { wire := r.wire, now := now, emit := s.emit, handed := handed, left := left } :: r.log
  if s.emit = .filler then { r with wire := w, log := note none false }
  else if reacKnockWireLateNs < now - slotNs r.wire r.wire.slot then
    { r with
      wire := sceneStep A { w with late := w.late + 1 } s.emit false
      log := note none false }
  else
    match A.stamp w.master (A.downstreamBuild s.counter w.src) s.emit s.idx with
    | none => { r with wire := sceneStep A w s.emit false, log := note none false }
    | some f =>
        if send r.log.length f then
          { wire := sceneStep A { w with sent := w.sent + 1, spellSent := w.spellSent + 1 }
              s.emit true
            sent := r.sent + 1
            log := note (some f) true }
        else
          { r with
            wire := sceneStep A { w with sendErrors := w.sendErrors + 1 } s.emit false
            log := note (some f) false }

/-- The loop's body past the rest; `false` is the `break`. -/
def runSlot (now : Nat) (send : Nat → Frame → Bool) (r : KnockRun μ κ) : KnockRun μ κ × Bool :=
  if A.cycleLen r.wire.master ≤ r.wire.slot then ({ r with wire := knockRest A r.wire }, true)
  else if now < slotNs r.wire r.wire.slot then (r, false)
  else (sendSlot A now send r, true)

/-- A rest that is over opens the next knock, at the time it was due. -/
def restOver (r : KnockRun μ κ) : KnockRun μ κ :=
  { r with
    wire := knockOpen A r.wire r.wire.nextNs
    log := .opened r.wire.nextNs :: r.log }

def runTurn (now : Nat) (send : Nat → Frame → Bool) (r : KnockRun μ κ) : KnockRun μ κ × Bool :=
  if r.wire.resting then
    if now < r.wire.nextNs then (r, false) else runSlot A now send (restOver A r)
  else runSlot A now send r

/-- The schedule's `for (;;)`, for as many turns as there is fuel. -/
def reacKnockWireRun (fuel : Nat) (w : ReacKnockWire μ κ) (now : Nat)
    (send : Nat → Frame → Bool) : Option (KnockRun μ κ) :=
  if w.state ≠ .knocking ∨ w.fps = 0 then some { wire := w }
  else
    (loop (runTurn A now send) fuel { wire := w }).map fun r => { r with wire := knockPeek A r.wire }

/-! ### A wire's life -/

/-- How many turns the loop can still take: a knock has its slots and its rest, and no two
open at one time. -/
def turnsLeft (w : ReacKnockWire μ κ) (now : Nat) : Nat :=
  if w.resting then (now + 1 - w.nextNs) * (A.cycleLen w.master + 1) + 1
  else A.cycleLen w.master - w.slot + 2 + (now - w.t0Ns) * (A.cycleLen w.master + 1)

/-- A call of the wire's. -/
inductive KnockCall where
  | init (src : List UInt8) (fps now : Nat)
  | step (pinned trunkNow : Bool) (now : Nat)
  | heard (frame : Option Frame) (evidence : Bool) (now : Nat)
  | answerTaken (now : Nat)
  | setHost (host : Bool) (now : Nat)
  | run (send : Nat → Frame → Bool) (now : Nat)

def KnockCall.now : KnockCall → Nat
  | init _ _ now => now
  | step _ _ now => now
  | heard _ _ now => now
  | answerTaken now => now
  | setHost _ now => now
  | run _ now => now

/-- A wire and the record of its knocks, newest first. -/
structure KnockLife (μ κ : Type*) where
  wire : ReacKnockWire μ κ
  log : List (KnockEvent μ κ) := []

/-- A poll that knocks opens one. -/
def stepEvents (act : KnockWireAct) (now : Nat) : List (KnockEvent μ κ) :=
  if act = .knock then [.opened now] else []

/-- One call; `none` when it never comes back. -/
def knockCall (isControl : Frame → Bool) (l : KnockLife μ κ) :
    KnockCall → Option (KnockLife μ κ)
  | .init src fps now => some { l with wire := reacKnockWireInit A K src fps now }
  | .step pinned trunkNow now =>
      let stepped := reacKnockWireStep A K l.wire pinned now trunkNow
      some { wire := stepped.1, log := stepEvents stepped.2 now ++ l.log }
  | .heard frame evidence now =>
      some { l with wire := (reacKnockWireHeard K isControl l.wire now frame evidence).1 }
  | .answerTaken _ => some { l with wire := reacKnockWireAnswerTaken l.wire }
  | .setHost host _ => some { l with wire := reacKnockWireSetHost l.wire host }
  | .run send now =>
      (reacKnockWireRun A (turnsLeft A l.wire now + 1) l.wire now send).map fun r =>
        { wire := r.wire, log := r.log ++ l.log }

/-- A wire's life, call by call; `none` once a call never came back. -/
def wireMachine (isControl : Frame → Bool) :
    StepMachine (Option (KnockLife μ κ)) KnockCall Unit where
  step l c := (l.bind fun l => knockCall A K isControl l c, ())

end

end ReacPw
