/-
What each listener of the daemon holds, resource by resource (`listener_open`,
`listener_close`, `hearing_serve`, the re-opens, and main's own opens and shutdown).

Every resource is acquired into a field of its listener's struct, and each way out of an
open releases by hand what that way has acquired.  A holder is a listener as far as that
goes: its configuration, the flags its teardown goes by, and the account of its
resources.  The account is kept for the slot and not for what is served in it, so a slot
written over keeps what it had lost.

What the world answers at each acquisition is an input, and so is which segments a link's
budget takes from the others while a listener opens.
-/
import ReacPw.Hearing
import ReacPw.Lib.Ledger

namespace ReacPw

variable {n m : Nat}

/-! ### The resources -/

/-- Everything a listener acquires; a tap serves at most `m` streams. -/
inductive Resource (m : Nat) where
  | rx
  /-- The capture ring, which the receiver's open sizes. -/
  | ring
  /-- The receiver's thread. -/
  | feeder
  | txRing
  | seglock
  | slave
  /-- The slave engine's thread. -/
  | slaveThread
  | sink
  | src
  | tap
  /-- `tap_src[i]`. -/
  | tapSrc (i : Fin m)
  | adTimer
  deriving DecidableEq, Repr

/-- What a resource was handed when it was acquired, and reads while it lives. -/
def Resource.uses : Resource m → Resource m → Bool
  | .rx, .ring => true
  | .feeder, .rx => true
  | .feeder, .ring => true
  | .slave, .txRing => true
  | .slaveThread, .slave => true
  | .slaveThread, .txRing => true
  | .sink, .txRing => true
  | .sink, .rx => true
  | .sink, .seglock => true
  | .src, .ring => true
  | .src, .rx => true
  -- a master's capture node publishes the graph clock to the sink's pacer
  | .src, .sink => true
  | .tapSrc _, .tap => true
  | .adTimer, .sink => true
  | _, _ => false

structure Holder (m : Nat) where
  cfg : ListenerCfg
  opened : Bool
  rxStarted : Bool
  slaveOpen : Bool
  txRingInit : Bool
  tapOpen : Bool
  own : Account (Resource m)
  deriving DecidableEq

/-- What the world answers while a listener opens, for each thing it acquires. -/
structure HolderAnswers (m : Nat) where
  tapOpens : Bool
  /-- The streams the tap heard (`tap.n`). -/
  streams : Fin (m + 1)
  tapNode : Fin m → Bool
  tapStarts : Bool
  rxOpens : Bool
  /-- The node of a refused segment. -/
  doorNode : Bool
  /-- The link's budget admits the master, after those that yield to it. -/
  fits : Bool
  claim : SeglockClaim
  sinkMade : Bool
  slaveOpens : Bool
  slaveStarts : Bool
  /-- The send of a joined slave, or of a box. -/
  sendMade : Bool
  timerMade : Bool
  pinSource : Bool
  pinSink : Bool
  capture : Bool
  /-- `reac_rx_start`, which the caller makes. -/
  rxStarts : Bool

namespace Holder

/-- The holder with its account as that leaves it. -/
def books (f : Account (Resource m) → Account (Resource m)) (H : Holder m) : Holder m :=
  { H with own := f H.own }

section
variable (f : Account (Resource m) → Account (Resource m)) (H : Holder m)

@[simp] theorem books_own : (H.books f).own = f H.own := rfl

@[simp] theorem books_cfg : (H.books f).cfg = H.cfg := rfl

@[simp] theorem books_tapOpen : (H.books f).tapOpen = H.tapOpen := rfl

end

/-! ### Closing -/

def tapNodes (m : Nat) : List (Resource m) := (List.finRange m).map .tapSrc

/-- Every node, after the timer that rebuilds them. -/
def graphNodes (m : Nat) : List (Resource m) := .adTimer :: .src :: .sink :: tapNodes m

def listenerDropNodes (H : Holder m) : Holder m :=
  H.books (Account.freeAll Resource.uses (graphNodes m))

def listenerCloseTap (H : Holder m) : Holder m :=
  let H := H.books (Account.freeAll Resource.uses (tapNodes m))
  if H.tapOpen then { H.books (Account.stop Resource.uses .tap) with tapOpen := false } else H

def listenerClose (H : Holder m) : Holder m :=
  if H.cfg.tap then
    (listenerDropNodes (listenerCloseTap H)).books (Account.freeAll Resource.uses [.rx, .ring])
  else
    H.books fun A =>
      -- only a feeder that was started is joined
      let A := if H.rxStarted then A.stop Resource.uses .feeder else A
      let A := A.freeAll Resource.uses (graphNodes m)
      let A :=
        if H.slaveOpen then (A.stop Resource.uses .slaveThread).stop Resource.uses .slave else A
      let A := if H.txRingInit then A.free Resource.uses .txRing else A
      A.freeAll Resource.uses [.rx, .ring, .seglock]

/-! ### Opening -/

/-- A node for each stream, until one does not come up. -/
def tapServe (a : HolderAnswers m) : List (Fin m) → Holder m → Holder m × Bool
  | [], H => (H, true)
  | i :: rest, H =>
      if a.tapNode i then tapServe a rest (H.books (Account.take [.tap] (.tapSrc i))) else (H, false)

def listenerOpenTap (H : Holder m) (a : HolderAnswers m) : Holder m × TapOpen :=
  if !a.tapOpens then (H, .failed)
  else
    let H := { H.books (Account.take [] .tap) with tapOpen := true }
    if (a.streams : Nat) = 0 then (listenerCloseTap H, .vacant)
    else
      let served := tapServe a ((List.finRange m).take a.streams) H
      if served.2 && a.tapStarts then (served.1, .up) else (listenerCloseTap served.1, .failed)

/-- A refused segment's door, or the nothing of a vacant one. -/
def listenerDoor (H : Holder m) (a : HolderAnswers m) : Holder m × Bool :=
  if H.cfg.doorVacant then (H, true)
  else if !a.doorNode then (H.books (Account.freeAll Resource.uses [.rx, .ring]), false)
  else (H.books (Account.take [.ring, .rx] .src), true)

/-- The nodes of a listener whose engine is up. -/
def listenerFinish (H : Holder m) (a : HolderAnswers m) : Holder m × Bool :=
  -- the receiver is the sink's clock reference
  let H := if .sink ∈ H.own.held then H.books (Account.touch [.sink, .rx]) else H
  let pacer := if .sink ∈ H.own.held then [Resource.sink] else []
  if H.cfg.role = .master ∧ .sink ∈ H.own.held then
    let H := if a.timerMade then H.books (Account.take [.sink] .adTimer) else H
    if !H.cfg.pinModel then (H, true)
    else if !a.pinSource then (listenerClose H, false)
    else
      let H := H.books (Account.take ([.ring, .rx] ++ pacer) .src)
      if !a.pinSink then (listenerClose H, false) else (H, true)
  else if !a.capture then (listenerClose H, false)
  else (H.books (Account.take ([.ring, .rx] ++ pacer) .src), true)

/-- The master's branch: the budget, the segment lock, the sink. -/
def listenerMaster (H : Holder m) (a : HolderAnswers m) : Holder m × Bool :=
  let H := { H.books (Account.take [] .txRing) with txRingInit := true }
  if !a.fits then (H.books (Account.freeAll Resource.uses [.rx, .ring, .txRing]), false)
  else if a.claim = .held then
    (H.books (Account.freeAll Resource.uses [.rx, .ring, .txRing]), false)
  else
    let H := if a.claim = .claimed then H.books (Account.take [] .seglock) else H
    if !a.sinkMade then
      (H.books (Account.freeAll Resource.uses [.seglock, .rx, .ring, .txRing]), false)
    else listenerFinish (H.books (Account.take [.txRing] .sink)) a

/-- The slave's branch: an engine that does not come up leaves the listener without one. -/
def listenerSlave (H : Holder m) (a : HolderAnswers m) : Holder m :=
  let H := { H.books (Account.take [] .txRing) with txRingInit := true }
  if !a.slaveOpens then H
  else
    let H := { H.books (Account.take [.txRing] .slave) with slaveOpen := true }
    if !a.slaveStarts then { H.books (Account.stop Resource.uses .slave) with slaveOpen := false }
    else
      let H := H.books (Account.take [.slave] .slaveThread)
      if (H.cfg.joinBoxMaster || H.cfg.boxModel) && a.sendMade then
        H.books (Account.take [.txRing] .sink)
      else H

/-- The open from the receiver on. -/
def listenerReceive (H : Holder m) (a : HolderAnswers m) : Holder m × Bool :=
  if !a.rxOpens then (H, false)
  else
    let H := H.books fun A => (A.take [] .ring).take [.ring] .rx
    if H.cfg.doorOnly then listenerDoor H a
    else if H.cfg.txIf = none then listenerFinish H a
    else match H.cfg.role with
      | .master => listenerMaster H a
      | .slave => listenerFinish (listenerSlave H a) a

/-- Whether it holds anything the graph can see. -/
def listenerHoldsNodes (H : Holder m) : Bool :=
  decide (.src ∈ H.own.held ∨ .sink ∈ H.own.held ∨ ∃ i, .tapSrc i ∈ H.own.held)

/-- The fields an open clears before it starts. -/
def listenerCleared (H : Holder m) : Holder m :=
  let H := if listenerHoldsNodes H then listenerDropNodes H else H
  { H.books (Account.forget {.src, .sink, .seglock, .adTimer}) with
    slaveOpen := false, txRingInit := false }

/-- Open a listener on its configuration, and whether it came up.  The callers set
`opened`. -/
def listenerOpen (H : Holder m) (a : HolderAnswers m) : Holder m × Bool :=
  let H := listenerCleared H
  if H.cfg.tap then
    let r := listenerOpenTap H a
    match r.2 with
    | .failed => (r.1, false)
    | .up => (r.1, true)
    -- nothing on the mirror yet: the tap is a vacant door
    | .vacant => listenerReceive { r.1 with cfg := cfgVacated r.1.cfg } a
  else listenerReceive H a

/-- Start the receiver's thread, and whether it started. -/
def reacRxStart (H : Holder m) (ok : Bool) : Holder m × Bool :=
  let H := H.books (Account.touch [.rx])
  if ok then (H.books (Account.take [.rx, .ring] .feeder), true) else (H, false)

/-! ### The callers -/

/-- The slot written over by `memset`, for that configuration. -/
def memset (H : Holder m) (cfg : ListenerCfg) : Holder m :=
  { cfg := cfg, opened := false, rxStarted := false, slaveOpen := false, txRingInit := false,
    tapOpen := false, own := H.own.forget H.own.held }

/-- What `hearing_serve` does in its free slot. -/
def serveIn (H : Holder m) (cfg : ListenerCfg) (a : HolderAnswers m) : Holder m :=
  let r := listenerOpen (H.memset cfg) a
  if !r.2 then r.1.memset .zeroed
  else if r.1.cfg.doorOnly || r.1.cfg.tap then { r.1 with opened := true, rxStarted := false }
  else
    let s := reacRxStart r.1 a.rxStarts
    if s.2 then { s.1 with opened := true, rxStarted := true }
    else (listenerClose s.1).memset .zeroed

def drop (H : Holder m) : Holder m := { listenerClose H with opened := false, rxStarted := false }

/-- What a re-open opens: the slot closed, on the changed configuration. -/
def reopening (H : Holder m) (change : ListenerCfg → ListenerCfg) : Holder m :=
  let H := if H.opened then listenerClose H else H
  { H with opened := false, rxStarted := false, cfg := change H.cfg }

/-- The open and the start of a re-open. -/
def reopened (H : Holder m) (a : HolderAnswers m) : Holder m :=
  let r := listenerOpen H a
  if !r.2 then r.1
  else
    let s := reacRxStart r.1 a.rxStarts
    if s.2 then { s.1 with opened := true, rxStarted := true }
    else { listenerClose s.1 with opened := false }

/-- The autodetect timer, as far as it takes the capture node away and builds it. -/
def autodetect (H : Holder m) (takesAway builds : Bool) : Holder m :=
  if .adTimer ∉ H.own.held then H
  else
    let H := if takesAway then H.books (Account.free Resource.uses .src) else H
    if builds ∧ .src ∉ H.own.held then H.books (Account.take [.ring, .rx, .sink] .src) else H

end Holder

/-! ### The daemon's slots -/

/-- Where the daemon's main is: its loop of opens, its loop of starts, or the main loop. -/
inductive MainStage where
  | opening (i : Nat)
  | starting (i : Nat)
  | looping
  | ended
  deriving DecidableEq, Repr

structure HolderTable (n m : Nat) where
  /-- The hearing runs, and the slots are its own. -/
  hearing : Bool
  slots : Fin n → Holder m
  stage : MainStage

namespace HolderTable

def setSlot (h : HolderTable n m) (i : Fin n) (H : Holder m) : HolderTable n m :=
  { h with slots := Function.update h.slots i H }

def serves (H : Holder m) (name : String) : Bool := H.opened && H.cfg.source == some name

def hearingListener (h : HolderTable n m) (name : String) : Option (Fin n) :=
  if h.hearing then (List.finRange n).find? fun i => serves (h.slots i) name else none

def freeSlot (h : HolderTable n m) : Option (Fin n) :=
  (List.finRange n).find? fun i => !(h.slots i).opened

def hearingDrop (h : HolderTable n m) (name : String) : HolderTable n m :=
  match hearingListener h name with
  | none => h
  | some i => h.setSlot i (h.slots i).drop

/-- Those that yield the link's budget are dropped. -/
def linkBudgetYield (h : HolderTable n m) (names : List String) : HolderTable n m :=
  names.foldl hearingDrop h

def hearingServe (h : HolderTable n m) (name : String) (cfg : ListenerCfg) (a : HolderAnswers m)
    (yielding : List String) : HolderTable n m :=
  if (hearingListener h name).isSome then h
  else match freeSlot h with
    | none => h
    | some i => (linkBudgetYield h yielding).setSlot i ((h.slots i).serveIn cfg a)

/-- Re-open a slot in place (`listener_reopen_at_rate`, `listener_reopen_at_role`). -/
def slotReopen (h : HolderTable n m) (i : Fin n) (change : ListenerCfg → ListenerCfg)
    (a : HolderAnswers m) (yielding : List String) : HolderTable n m :=
  let H := (h.slots i).reopening change
  (linkBudgetYield (h.setSlot i H) yielding).setSlot i (H.reopened a)

/-- Main opens the segments of its command line in order, then starts each that came up.
A lone segment that does not come up or start ends the daemon. -/
def mainStep (h : HolderTable n m) (a : HolderAnswers m) : HolderTable n m :=
  match h.stage with
  | .opening k =>
      if hk : k < n then
        let r := (h.slots ⟨k, hk⟩).listenerOpen a
        if r.2 then
          { h.setSlot ⟨k, hk⟩ { r.1 with opened := true } with stage := .opening (k + 1) }
        else { h.setSlot ⟨k, hk⟩ r.1 with stage := if n = 1 then .ended else .opening (k + 1) }
      else
        { h with stage := if ∃ i, (h.slots i).opened then .starting 0 else .ended }
  | .starting k =>
      if hk : k < n then
        let H := h.slots ⟨k, hk⟩
        if !H.opened then { h with stage := .starting (k + 1) }
        else
          let s := H.reacRxStart a.rxStarts
          if s.2 then
            { h.setSlot ⟨k, hk⟩ { s.1 with rxStarted := true } with stage := .starting (k + 1) }
          else if n = 1 then { h.setSlot ⟨k, hk⟩ s.1.listenerClose with stage := .ended }
          else
            { h.setSlot ⟨k, hk⟩ { s.1.listenerClose with opened := false } with
              stage := .starting (k + 1) }
      else
        { h with stage := if ∃ i, (h.slots i).rxStarted then .looping else .ended }
  | .looping => h
  | .ended => h

/-- Every opened listener is closed, and the daemon ends. -/
def shutdown (h : HolderTable n m) : HolderTable n m :=
  { h with
    slots := fun i => if (h.slots i).opened then (h.slots i).listenerClose else h.slots i
    stage := .ended }

end HolderTable

/-- What happens to the slots; all but main's own steps are its loop's. -/
inductive HolderAct (n m : Nat) where
  | main (a : HolderAnswers m)
  | serve (name : String) (conf : ListenerCfg) (hunt : Option Hunt) (forcedRate : Nat)
    (a : HolderAnswers m) (yielding : List String)
  | drop (name : String)
  | reopenRate (i : Fin n) (hz : Nat) (a : HolderAnswers m) (yielding : List String)
  | reopenRole (i : Fin n) (role : ReacRole) (a : HolderAnswers m) (yielding : List String)
  | autodetect (i : Fin n) (takesAway builds : Bool)
  | shutdown

def HolderTable.act (h : HolderTable n m) : HolderAct n m → HolderTable n m
  | .main a => h.mainStep a
  | .serve name conf hunt forcedRate a yielding =>
      if h.hearing then h.hearingServe name (serveCfg name conf hunt forcedRate) a yielding else h
  | .drop name => h.hearingDrop name
  | .reopenRate i hz a yielding => h.slotReopen i (rateChange hz) a yielding
  | .reopenRole i role a yielding => h.slotReopen i (roleChange role) a yielding
  | .autodetect i takesAway builds => h.setSlot i ((h.slots i).autodetect takesAway builds)
  | .shutdown => h.shutdown

/-- Main's own steps come first, and nothing comes after the end. -/
def holderStep (h : HolderTable n m) (e : HolderAct n m) : HolderTable n m :=
  match h.stage, e with
  | .looping, e => h.act e
  | .ended, _ => h
  | _, .main a => h.mainStep a
  | _, _ => h

def holderMachine (n m : Nat) : StepMachine (HolderTable n m) (HolderAct n m) Unit where
  step h e := (holderStep h e, ())

/-- A zeroed slot on that configuration, with nothing ever acquired in it. -/
def Holder.fresh (m : Nat) (cfg : ListenerCfg) : Holder m :=
  { cfg := cfg, opened := false, rxStarted := false, slaveOpen := false, txRingInit := false,
    tapOpen := false, own := .straight ∅ }

/-- The daemon as it starts: with the segments of its command line, or hearing for them. -/
def holdersStart (live : Option (Fin n → ListenerCfg)) : HolderTable n m :=
  match live with
  | none => { hearing := true, slots := fun _ => .fresh m .zeroed, stage := .looping }
  | some cfgs => { hearing := false, slots := fun i => .fresh m (cfgs i), stage := .opening 0 }

end ReacPw
