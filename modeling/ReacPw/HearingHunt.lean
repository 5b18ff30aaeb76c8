/-
The hunt's own clock (`hearing_hunt`), and what moves a sniffer between two of its
turns.

A turn asks one wire that is linked and not yet a segment.  Every verdict but hunting
hands the wire to the interface table to be served.  A master's does not where the
segment gave its port's budget up and its hunt has heard nothing: the latch on its
sniffer is read there, and cleared on every other hand-back of a master.

A frame, a sniffer opened or closed, the poll that watches a served wire, the table's
own acts with the yields inside them, and the interface table's own moves come in any
order.  The knock only reads the hunt here, except that its answer is a licence; the
trunk, the tap's wait and the hold after a failed serve are inputs of a turn.
-/
import ReacPw.BudgetYield
import ReacPw.KnockAnswer

namespace ReacPw

/-- What a turn of the hunt finds about one wire, beside its hunt. -/
structure HuntTurn where
  now : Nat
  /-- The interface is a trunk's parent now. -/
  trunk : Bool
  /-- A sighting is waiting for the tap to place it (`reac_tapwait_binds`). -/
  tapBinds : Bool
  /-- A failed serve is being held. -/
  retryHeld : Bool
  deriving DecidableEq, Repr

/-- What a turn handed to the interface table to be served as. -/
inductive HandedAs where
  | tap
  | slave
  | master
  | refused
  /-- A door, for a wire nothing decides. -/
  | door
  deriving DecidableEq, Repr

/-- The sniffer of one wire as it opens (`sniffer_open_ex`). -/
def snifferFresh {η : Type*} (A : HuntApi η) (role : Option ReacRole) (tapPin : Bool)
    (now : Nat) : SniffSlot η :=
  let hunt := A.init now
  { hunt := match role with
      | some role => A.pin hunt role
      | none => hunt
    tapPinned := tapPin, watched := false, budgetYielded := false, budgetYieldSaid := false
    undecidedSaid := false }

/-- What can happen to the tables and the sniffers. -/
inductive HuntMove (σ : Type*) (n : Nat) where
  | table (act : TableAct n)
  /-- The interface table is told something else. -/
  | scan (s : σ)
  | openSniffer (name : String) (role : Option ReacRole) (tapPin : Bool) (now : Nat)
  | closeSniffer (name : String)
  /-- A frame off the wire, and whether the knock takes it for its answer. -/
  | frame (name : String) (bytes : List UInt8) (now : Nat) (answers : Bool)
  /-- The poll steps the hunt of a wire it serves. -/
  | watch (name : String) (now : Nat)
  | turn (name : String) (w : HuntTurn)

section
variable {σ : Type*} {n : Nat} {η : Type*} (S : IfScan σ) (speed : String → Nat)
  (A : HuntApi η) (windowNs : Nat)

/-- One frame of `sniffer_drain`: the hunt observes it, and an answered knock proves the
silence before it. -/
def snifferHears (sn : SniffSlot η) (bytes : List UInt8) (now : Nat) (answers : Bool) :
    SniffSlot η :=
  let r := A.observe sn.hunt bytes now
  { sn with hunt := if r.2 && answers then A.silenceProven r.1 else r.1 }

/-- `reac_ifscan_heard`, with the sniffer as the turn leaves it. -/
def HuntTable.handBack (t : HuntTable σ n η) (name : String) (sn : SniffSlot η) (now : Nat) :
    HuntTable σ n η :=
  { t with hear := { t.hear with scan := S.heard t.hear.scan name now } }.setSniff name (some sn)

/-- A master's verdict: the wire is watched while nobody pinned it, and a segment that
yielded is held back until it has heard something. -/
def huntMaster (t : HuntTable σ n η) (name : String) (sn : SniffSlot η) (now : Nat) :
    HuntTable σ n η × Option HandedAs :=
  let sn := { sn with watched := reacWatchKeep .master (A.pinned sn.hunt) }
  if sn.budgetYielded && !A.heardAnything sn.hunt then
    (t.setSniff name (some { sn with budgetYieldSaid := true }), none)
  else (t.handBack S name { sn with budgetYielded := false } now, some .master)

/-- A wire nothing decides gets its door once. -/
def huntUndecided (t : HuntTable σ n η) (name : String) (sn : SniffSlot η) (now : Nat) :
    HuntTable σ n η × Option HandedAs :=
  if !sn.undecidedSaid && !A.pinned sn.hunt && A.heardAnything sn.hunt &&
      decide (windowNs ≤ now - A.openedNs sn.hunt) then
    (t.handBack S name { sn with undecidedSaid := true } now, some .door)
  else (t.setSniff name (some sn), none)

/-- The verdict of a hunt that was stepped, carried out. -/
def huntRules (t : HuntTable σ n η) (name : String) (sn : SniffSlot η) (now : Nat) :
    HuntTable σ n η × Option HandedAs :=
  match (A.said sn.hunt).verdict with
  | .slave => (t.handBack S name sn now, some .slave)
  | .master => huntMaster S A t name sn now
  | .refused => (t.handBack S name sn now, some .refused)
  | .hunting => huntUndecided S A windowNs t name sn now

/-- One sniffer's share of `hearing_hunt`, its socket drained. -/
def hearingHunt (t : HuntTable σ n η) (name : String) (w : HuntTurn) :
    HuntTable σ n η × Option HandedAs :=
  match t.sniff name with
  | none => (t, none)
  | some sn =>
      if S.state t.hear.scan name ≠ .linked then (t, none)
      else if w.trunk || w.tapBinds || w.retryHeld then (t, none)
      else if sn.tapPinned then (t.handBack S name sn w.now, some .tap)
      else huntRules S A windowNs t name { sn with hunt := A.step sn.hunt w.now } w.now

/-- The table as a slot of it is being opened, by an act that opens one. -/
def slotOpening (h : Hearing σ n) : TableAct n → Option (Hearing σ n × Fin n × SlotAnswers n)
  | .serve name conf hunt forcedRate a =>
      if h.enabled && (hearingListener h name).isNone then
        (freeSlot h).map fun i =>
          (h.setSlot i { Listener.zeroed with cfg := serveCfg name conf hunt forcedRate }, i, a)
      else none
  | .reopenRate i hz a =>
      if (h.listeners i).opened then
        some (h.setSlot i (listenerReopening (h.listeners i) (rateChange hz)), i, a)
      else none
  | .reopenRole i role a =>
      if (h.listeners i).opened then
        some (h.setSlot i (listenerReopening (h.listeners i) (roleChange role)), i, a)
      else none
  | .openLive i a => if h.enabled || (h.listeners i).opened then none else some (h, i, a)
  | _ => none

/-- The segments that yield in an act. -/
def tableYields (h : Hearing σ n) (act : TableAct n) : List String :=
  match slotOpening h act with
  | none => []
  | some (opening, i, a) => slotYielders speed opening i a

/-- What a move does, and what a turn hands back. -/
def huntStep (t : HuntTable σ n η) : HuntMove σ n → HuntTable σ n η × Option (String × HandedAs)
  | .table act =>
      ({ hear := tableStep S speed t.hear act
         sniff := sniffersTold (tableYields speed t.hear act) t.sniff }, none)
  | .scan s => ({ t with hear := { t.hear with scan := s } }, none)
  | .openSniffer name role tapPin now =>
      if (t.sniff name).isSome then (t, none)
      else (t.setSniff name (some (snifferFresh A role tapPin now)), none)
  | .closeSniffer name => (t.setSniff name none, none)
  | .frame name bytes now answers =>
      (t.setSniff name ((t.sniff name).map fun sn => snifferHears A sn bytes now answers), none)
  | .watch name now =>
      (t.setSniff name ((t.sniff name).map fun sn => { sn with hunt := A.step sn.hunt now }), none)
  | .turn name w =>
      let r := hearingHunt S A windowNs t name w
      (r.1, r.2.map fun as => (name, as))

/-- The tables and the sniffers, move by move. -/
def huntMachine : StepMachine (HuntTable σ n η) (HuntMove σ n) (Option (String × HandedAs)) where
  step := huntStep S speed A windowNs

/-! ### The yields inside the table's acts -/

/-- An open that is not admitted and whose wire was heard asks for a yield of its port. -/
theorem slotYielders_asked {h : Hearing σ n} {i : Fin n} {a : SlotAnswers n}
    (hasks : listenerAsksBudget (h.listeners i) a.open_ = true)
    (hfits : slotFits speed h i a.open_.sampleRate = false)
    (hheard : (h.listeners i).cfg.wireHeard = true) :
    slotYielders speed h i a =
      budgetYielders h ((h.listeners i).cfg.source.getD ((h.listeners i).cfg.txIf.getD ""))
        (linkPortOf ((h.listeners i).cfg.txIf.getD "")) a.facts := by
  simp [slotYielders, hasks, hfits, hheard]

/-- **The yield inside an open is `link_budget_yield`**, sniffers and all. -/
theorem slotAdmitted_yield {t : HuntTable σ n η} {i : Fin n} {a : SlotAnswers n}
    (hasks : listenerAsksBudget (t.hear.listeners i) a.open_ = true)
    (hfits : slotFits speed t.hear i a.open_.sampleRate = false)
    (hheard : (t.hear.listeners i).cfg.wireHeard = true) :
    (budgetYield S t
        ((t.hear.listeners i).cfg.source.getD ((t.hear.listeners i).cfg.txIf.getD ""))
        ((t.hear.listeners i).cfg.txIf.getD "") a.facts a.now).1 =
      { hear := (slotAdmitted S speed t.hear i a).1
        sniff := sniffersTold (slotYielders speed t.hear i a) t.sniff } := by
  rw [budgetYield_parts, ← slotYielders_asked speed hasks hfits hheard]
  rfl

end

end ReacPw
