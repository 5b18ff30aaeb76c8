/-
One segment of the daemon: its listener (`struct listener` of the daemon's main).

A listener is opened on a configuration and holds what that shape needs: a
capture node, a master's engine or a slave's with the send it was given, and the
master's autodetect timer.  It is closed and re-opened in place at a new rate or
in the other role, and two of its nodes take role assertions, which a poll
carries out.

What the world answers while a listener opens (does the tap hear anything, does
the source open, is the segment lock free, do the nodes come up) is an input.
So is whether the link's budget admits it: that is the listener table's to say.
The PipeWire nodes are kept as far as their doors go; audio is not modelled, and
neither are the journal's texts.
-/
import ReacPw.WakeDriver
import ReacPw.EmptyMaster

namespace ReacPw

inductive ReacRole where
  | master
  | slave
  deriving DecidableEq, Repr

/-- The parts of `listener_cfg` that decide which engine comes up and who may take it. -/
structure ListenerCfg where
  /-- `rxcfg.source`. -/
  source : Option String
  /-- `rxcfg.kind` is a live wire. -/
  live : Bool
  txIf : Option String
  role : ReacRole
  rolePinned : Bool
  /-- Serve what is heard and transmit nothing. -/
  tap : Bool
  /-- A refused segment: one node, no engine. -/
  doorOnly : Bool
  /-- A door put up because nothing was heard, with no node at all. -/
  doorVacant : Bool
  joinBoxMaster : Bool
  /-- `role = box`: the row presented to the mixer. -/
  boxModel : Bool
  pinModel : Bool
  /-- REAC gear was heard on this wire. -/
  wireHeard : Bool
  /-- 0 for the wire's own cadence. -/
  forcedRate : Nat
  deriving DecidableEq, Repr

/-- `reac-capture`, as far as its door goes. -/
structure SourceNode where
  /-- The segment's role record is bound, so a role asserted here is decided. -/
  roleSwap : Bool
  /-- An accepted role waiting for the poll. -/
  reopenRole : Option ReacRole
  deriving DecidableEq, Repr

def SourceNode.blank : SourceNode := { roleSwap := false, reopenRole := none }

/-- The sink node: a master's engine, or the send of a slave (`upstream_ring`). -/
structure SinkNode where
  upstream : Bool
  reopenRole : Option ReacRole
  /-- An accepted rate waiting for the poll, 0 for none. -/
  reopenRate : Nat
  deriving DecidableEq, Repr

def SinkNode.fresh (upstream : Bool) : SinkNode :=
  { upstream := upstream, reopenRole := none, reopenRate := 0 }

structure Listener where
  cfg : ListenerCfg
  opened : Bool
  rxStarted : Bool
  /-- The rate the receiver runs at. -/
  sampleRate : Nat
  src : Option SourceNode
  sink : Option SinkNode
  slaveOpen : Bool
  /-- The master's 200 ms timer is in the loop. -/
  adTimer : Bool
  /-- What that timer's callback holds. -/
  adc : AutodetectCtx
  empty : ReacEmptyMaster
  emptyOpen : Bool
  deriving DecidableEq, Repr

def ListenerCfg.zeroed : ListenerCfg :=
  { source := none, live := false, txIf := none, role := .master, rolePinned := false,
    tap := false, doorOnly := false, doorVacant := false, joinBoxMaster := false,
    boxModel := false, pinModel := false, wireHeard := false, forcedRate := 0 }

/-- A slot as `memset` leaves it. -/
def Listener.zeroed : Listener :=
  { cfg := .zeroed, opened := false, rxStarted := false, sampleRate := 0, src := none,
    sink := none, slaveOpen := false, adTimer := false, adc := .fresh false "",
    empty := .zeroed, emptyOpen := false }

/-! ### Opening -/

/-- What a tap finds on its wire. -/
inductive TapOpen where
  | failed
  | vacant
  | up
  deriving DecidableEq, Repr

/-- The segment lock: taken, held by another process, or not to be had at all. -/
inductive SeglockClaim where
  | claimed
  | held
  | unprotected
  deriving DecidableEq, Repr

/-- What the world answers while a listener opens. -/
structure OpenAnswers where
  tap : TapOpen
  /-- `listener_resolve_rate`. -/
  resolvedRate : Nat
  rxOpens : Bool
  /-- The rate the opened receiver recovered. -/
  sampleRate : Nat
  claim : SeglockClaim
  sinkMade : Bool
  slaveOpens : Bool
  slaveStarts : Bool
  /-- The nodes could be sized and put on the graph. -/
  nodesEnsured : Bool
  /-- `reac_rx_start`, which the caller makes. -/
  rxStarts : Bool
  deriving DecidableEq, Repr

/-- Everything a listener put on the graph leaves it, and its timer the loop. -/
def listenerDropNodes (L : Listener) : Listener :=
  { L with adTimer := false, src := none, sink := none }

/-- Close what an open brought up.  The callers clear `opened`. -/
def listenerClose (L : Listener) : Listener := listenerDropNodes L

/-- A tap that hears nothing becomes a vacant door. -/
def cfgVacated (c : ListenerCfg) : ListenerCfg :=
  if c.tap then { c with doorOnly := true, doorVacant := true } else c

/-- A master's or a door's rate is resolved when none was forced. -/
def cfgRated (c : ListenerCfg) (resolvedRate : Nat) : ListenerCfg :=
  if (c.role = .master ∨ c.doorOnly) ∧ c.forcedRate = 0 then
    { c with forcedRate := resolvedRate }
  else c

/-- The open as far as the receiver. -/
def listenerPrepared (L : Listener) (a : OpenAnswers) : Listener :=
  { L with
    cfg := cfgRated (cfgVacated L.cfg) a.resolvedRate
    src := none, sink := none, slaveOpen := false, adTimer := false }

/-- The master's branch: admitted by the link's budget, then by the segment lock. -/
def listenerMasterEngine (fits : Bool) (a : OpenAnswers) : Option SinkNode :=
  if !fits then none
  else if a.claim = .held then none
  else if !a.sinkMade then none
  else some (.fresh false)

/-- The slave's branch: the engine, and the send of a joined slave or of a box. -/
def listenerSlaveEngine (L : Listener) (a : OpenAnswers) : Option SinkNode × Bool :=
  if a.slaveOpens ∧ a.slaveStarts then
    (if (L.cfg.joinBoxMaster ∨ L.cfg.boxModel) ∧ a.sinkMade then some (.fresh true) else none,
      true)
  else (none, false)

/-- The engine is up: the autodetect context is bound, and the nodes come up. -/
def listenerFinish (L : Listener) (a : OpenAnswers) : Listener × Bool :=
  let L := { L with adc := .fresh false "" }
  if L.cfg.role = .master ∧ L.sink.isSome then
    let L := { L with adc := .fresh true (L.cfg.txIf.getD ""), adTimer := true }
    if !L.cfg.pinModel then (L, true)
    else if !a.nodesEnsured then (listenerClose L, false)
    else ({ L with src := some .blank }, true)
  else if !a.nodesEnsured then (listenerClose L, false)
  else ({ L with src := some { SourceNode.blank with roleSwap := L.cfg.role = .slave } }, true)

/-- The engine of the listener's role. -/
def listenerEngine (L : Listener) (fits : Bool) (a : OpenAnswers) : Listener × Bool :=
  if L.cfg.txIf = none then listenerFinish L a
  else match L.cfg.role with
    | .master =>
        match listenerMasterEngine fits a with
        | none => (L, false)
        | some sink => listenerFinish { L with sink := some sink } a
    | .slave =>
        let engine := listenerSlaveEngine L a
        listenerFinish { L with sink := engine.1, slaveOpen := engine.2 } a

/-- A refused segment's door, or the nothing of a vacant one. -/
def listenerDoor (L : Listener) (a : OpenAnswers) : Listener × Bool :=
  if L.cfg.doorVacant then (L, true)
  else if !a.nodesEnsured then (L, false)
  else ({ L with src := some { SourceNode.blank with roleSwap := true } }, true)

/-- Whether the open gets as far as asking the link's budget. -/
def listenerAsksBudget (L : Listener) (a : OpenAnswers) : Bool :=
  let P := listenerPrepared L a
  (!L.cfg.tap || a.tap == .vacant) && a.rxOpens && !P.cfg.doorOnly && P.cfg.txIf.isSome &&
    P.cfg.role == .master

/-- Open a listener on its configuration, and whether it came up.  The callers set
`opened`. -/
def listenerOpen (L : Listener) (fits : Bool) (a : OpenAnswers) : Listener × Bool :=
  let bare := { L with src := none, sink := none, slaveOpen := false, adTimer := false }
  if L.cfg.tap ∧ a.tap = .failed then (bare, false)
  else if L.cfg.tap ∧ a.tap = .up then (bare, true)
  else
    let P := listenerPrepared L a
    if !a.rxOpens then (P, false)
    else
      let P := { P with sampleRate := a.sampleRate }
      if P.cfg.doorOnly then listenerDoor P a else listenerEngine P fits a

/-- Serve a segment on a free slot (`hearing_serve`): a slot that does not come up is
left zeroed. -/
def listenerServe (cfg : ListenerCfg) (fits : Bool) (a : OpenAnswers) : Listener × Bool :=
  let r := listenerOpen { Listener.zeroed with cfg := cfg } fits a
  let feeds := !r.1.cfg.doorOnly && !r.1.cfg.tap
  if r.2 ∧ (feeds → a.rxStarts) then ({ r.1 with opened := true, rxStarted := feeds }, true)
  else (.zeroed, false)

/-- The listener as its open has it once the receiver is up. -/
def listenerReceiving (L : Listener) (a : OpenAnswers) : Listener :=
  { listenerPrepared L a with sampleRate := a.sampleRate }

/-- **What an open that came up leaves**, one constructor for each shape. -/
inductive ListenerUp (L : Listener) (fits : Bool) (a : OpenAnswers) : Listener → Prop
  | tap (htap : L.cfg.tap = true) :
      ListenerUp L fits a { L with src := none, sink := none, slaveOpen := false, adTimer := false }
  | vacant (hdoor : (listenerReceiving L a).cfg.doorOnly = true) :
      ListenerUp L fits a (listenerReceiving L a)
  | door (hdoor : (listenerReceiving L a).cfg.doorOnly = true) :
      ListenerUp L fits a { listenerReceiving L a with
        src := some { SourceNode.blank with roleSwap := true } }
  | master (dev : String) (src : Option SourceNode) (htap : L.cfg.tap = false)
      (hasks : listenerAsksBudget L a = true) (hfits : fits = true) (htx : L.cfg.txIf = some dev)
      (hrole : L.cfg.role = .master) (hsrc : src = none ∨ src = some .blank) :
      ListenerUp L fits a { listenerReceiving L a with
        sink := some (.fresh false), adc := .fresh true dev, adTimer := true, src := src }
  | slave (dev : String) (sink : Option SinkNode) (slaveOpen : Bool) (htap : L.cfg.tap = false)
      (hdoor : L.cfg.doorOnly = false) (htx : L.cfg.txIf = some dev)
      (hrole : L.cfg.role = .slave)
      (hsink : sink = none ∨
        sink = some (.fresh true) ∧ (L.cfg.joinBoxMaster = true ∨ L.cfg.boxModel = true)) :
      ListenerUp L fits a { listenerReceiving L a with
        sink := sink, slaveOpen := slaveOpen, adc := .fresh false "",
        src := some { SourceNode.blank with roleSwap := true } }
  | silent (htap : L.cfg.tap = false) (hdoor : L.cfg.doorOnly = false) (htx : L.cfg.txIf = none) :
      ListenerUp L fits a { listenerReceiving L a with
        adc := .fresh false "",
        src := some { SourceNode.blank with roleSwap := L.cfg.role = .slave } }

theorem cfgRated_eq (c : ListenerCfg) (resolvedRate : Nat) :
    ∃ hz, cfgRated c resolvedRate = { c with forcedRate := hz } := by
  unfold cfgRated
  split
  · exact ⟨resolvedRate, rfl⟩
  · exact ⟨c.forcedRate, rfl⟩

theorem listenerPrepared_cfg (L : Listener) (a : OpenAnswers) :
    (listenerPrepared L a).cfg.source = L.cfg.source ∧
    (listenerPrepared L a).cfg.txIf = L.cfg.txIf ∧
    (listenerPrepared L a).cfg.role = L.cfg.role ∧
    (listenerPrepared L a).cfg.tap = L.cfg.tap ∧
    (listenerPrepared L a).cfg.doorOnly = (L.cfg.doorOnly || L.cfg.tap) ∧
    (listenerPrepared L a).cfg.joinBoxMaster = L.cfg.joinBoxMaster ∧
    (listenerPrepared L a).cfg.boxModel = L.cfg.boxModel := by
  obtain ⟨hz, hrated⟩ := cfgRated_eq (cfgVacated L.cfg) a.resolvedRate
  have hcfg : (listenerPrepared L a).cfg = { cfgVacated L.cfg with forcedRate := hz } := hrated
  rw [hcfg]
  unfold cfgVacated
  cases htap : L.cfg.tap <;> simp [htap]

theorem listenerFinish_master {L : Listener} {a : OpenAnswers} (hrole : L.cfg.role = .master)
    (hsink : L.sink.isSome = true) (hup : (listenerFinish L a).2 = true) :
    ∃ src, (src = L.src ∨ src = some .blank) ∧ (listenerFinish L a).1 =
      { L with adc := .fresh true (L.cfg.txIf.getD ""), adTimer := true, src := src } := by
  unfold listenerFinish at hup ⊢
  dsimp only at hup ⊢
  rw [if_pos ⟨hrole, hsink⟩] at hup ⊢
  split at hup
  · rename_i hpin
    rw [if_pos hpin]
    exact ⟨L.src, Or.inl rfl, rfl⟩
  · rename_i hpin
    rw [if_neg hpin]
    split at hup
    · exact absurd hup Bool.false_ne_true
    · rename_i hnodes
      rw [if_neg hnodes]
      exact ⟨some .blank, Or.inr rfl, rfl⟩

theorem listenerFinish_other {L : Listener} {a : OpenAnswers}
    (hother : ¬ (L.cfg.role = .master ∧ L.sink.isSome = true))
    (hup : (listenerFinish L a).2 = true) :
    (listenerFinish L a).1 = { L with
      adc := .fresh false ""
      src := some { SourceNode.blank with roleSwap := L.cfg.role = .slave } } := by
  unfold listenerFinish at hup ⊢
  dsimp only at hup ⊢
  rw [if_neg hother] at hup ⊢
  split at hup
  · exact absurd hup Bool.false_ne_true
  · rename_i hnodes
    rw [if_neg hnodes]

theorem listenerMasterEngine_some {fits : Bool} {a : OpenAnswers} {sink : SinkNode}
    (h : listenerMasterEngine fits a = some sink) : fits = true ∧ sink = .fresh false := by
  unfold listenerMasterEngine at h
  cases fits with
  | false => exact absurd h (by simp)
  | true =>
      refine ⟨rfl, ?_⟩
      split at h
      · exact absurd h (by simp)
      · split at h
        · exact absurd h (by simp)
        · split at h
          · exact absurd h (by simp)
          · exact (Option.some.inj h).symm

theorem listenerSlaveEngine_sink (L : Listener) (a : OpenAnswers) :
    (listenerSlaveEngine L a).1 = none ∨
      (listenerSlaveEngine L a).1 = some (.fresh true) ∧
        (L.cfg.joinBoxMaster = true ∨ L.cfg.boxModel = true) := by
  unfold listenerSlaveEngine
  split
  · by_cases hsend : (L.cfg.joinBoxMaster = true ∨ L.cfg.boxModel = true) ∧ a.sinkMade = true
    · exact Or.inr ⟨if_pos hsend, hsend.1⟩
    · exact Or.inl (if_neg hsend)
  · exact Or.inl rfl

/-- **An open that came up left one of the shapes.** -/
theorem listenerOpen_up {L : Listener} {fits : Bool} {a : OpenAnswers}
    (hup : (listenerOpen L fits a).2 = true) :
    ListenerUp L fits a (listenerOpen L fits a).1 := by
  obtain ⟨hsource, htxP, hroleP, htapP, hdoorP, hjoinP, hboxP⟩ := listenerPrepared_cfg L a
  unfold listenerOpen at hup ⊢
  dsimp only at hup ⊢
  by_cases hfailed : L.cfg.tap = true ∧ a.tap = .failed
  · rw [if_pos hfailed] at hup
    exact absurd hup Bool.false_ne_true
  rw [if_neg hfailed] at hup ⊢
  by_cases htapUp : L.cfg.tap = true ∧ a.tap = .up
  · rw [if_pos htapUp]
    exact .tap htapUp.1
  rw [if_neg htapUp] at hup ⊢
  by_cases hrx : a.rxOpens = true
  · rw [if_neg (by simp [hrx])] at hup ⊢
    by_cases hdoor : (listenerPrepared L a).cfg.doorOnly = true
    · -- a door, vacant or refused
      rw [if_pos hdoor] at hup ⊢
      unfold listenerDoor at hup ⊢
      split at hup
      · rename_i hvacant
        rw [if_pos hvacant]
        exact .vacant hdoor
      · rename_i hvacant
        rw [if_neg hvacant]
        split at hup
        · exact absurd hup Bool.false_ne_true
        · rename_i hnodes
          rw [if_neg hnodes]
          exact .door hdoor
    · -- an engine, or none where nothing may be sent
      rw [if_neg hdoor] at hup ⊢
      have hno : L.cfg.doorOnly = false ∧ L.cfg.tap = false := by
        rw [hdoorP] at hdoor
        simpa using hdoor
      unfold listenerEngine at hup ⊢
      dsimp only at hup ⊢
      by_cases htx : (listenerPrepared L a).cfg.txIf = none
      · rw [if_pos htx] at hup ⊢
        rw [listenerFinish_other (by simp [listenerPrepared]) hup, hroleP]
        exact .silent hno.2 hno.1 (by rw [← htxP]; exact htx)
      rw [if_neg htx] at hup ⊢
      obtain ⟨dev, hdev⟩ : ∃ dev, L.cfg.txIf = some dev :=
        Option.ne_none_iff_exists'.mp (by rw [← htxP]; exact htx)
      cases hrole : L.cfg.role with
      | master =>
          rw [hrole] at hroleP
          rw [hroleP] at hup ⊢
          dsimp only at hup ⊢
          cases hengine : listenerMasterEngine fits a with
          | none =>
              rw [hengine] at hup
              exact absurd hup Bool.false_ne_true
          | some sink =>
              obtain ⟨hfits, rfl⟩ := listenerMasterEngine_some hengine
              rw [hengine] at hup
              obtain ⟨src, hsrc, hres⟩ := listenerFinish_master
                (L := { listenerReceiving L a with sink := some (.fresh false) }) hroleP rfl hup
              have htxR : (listenerReceiving L a).cfg.txIf.getD "" = dev := by
                rw [show (listenerReceiving L a).cfg.txIf = L.cfg.txIf from htxP, hdev]
                rfl
              rw [htxR] at hres
              refine hres.symm ▸ ?_
              refine .master dev src hno.2 ?_ hfits hdev hrole ?_
              · simp [listenerAsksBudget, hno.2, hrx, hdoorP, hno.1, htxP, hdev, hroleP]
              · exact hsrc
      | slave =>
          rw [hrole] at hroleP
          rw [hroleP] at hup ⊢
          dsimp only at hup ⊢
          rw [listenerFinish_other (by simp [hroleP]) hup]
          have hsink := listenerSlaveEngine_sink
            { listenerPrepared L a with sampleRate := a.sampleRate } a
          rw [show ({ listenerPrepared L a with sampleRate := a.sampleRate } : Listener).cfg =
            (listenerPrepared L a).cfg from rfl, hjoinP, hboxP] at hsink
          have hnode : ({ SourceNode.blank with
              roleSwap := (listenerPrepared L a).cfg.role = .slave } : SourceNode) =
              { SourceNode.blank with roleSwap := true } := by rw [hroleP]; rfl
          dsimp only
          rw [hnode]
          exact .slave dev _ _ hno.2 hno.1 hdev hrole hsink
  · rw [if_pos (by simpa using hrx)] at hup
    exact absurd hup Bool.false_ne_true

theorem listenerUp_source {L M : Listener} {fits : Bool} {a : OpenAnswers}
    (hup : ListenerUp L fits a M) : M.cfg.source = L.cfg.source := by
  have hprepared : (listenerReceiving L a).cfg.source = L.cfg.source :=
    (listenerPrepared_cfg L a).1
  cases hup with
  | tap => rfl
  | _ => exact hprepared

theorem listenerFinish_opened (L : Listener) (a : OpenAnswers) :
    (listenerFinish L a).1.opened = L.opened := by
  simp only [listenerFinish]
  split
  · split
    · rfl
    · split <;> rfl
  · split <;> rfl

/-- The open itself leaves `opened` to its caller. -/
theorem listenerOpen_opened (L : Listener) (fits : Bool) (a : OpenAnswers) :
    (listenerOpen L fits a).1.opened = L.opened := by
  have hengine : ∀ P : Listener, (listenerEngine P fits a).1.opened = P.opened := by
    intro P
    unfold listenerEngine
    split
    · exact listenerFinish_opened P a
    · split
      · split
        · rfl
        · exact listenerFinish_opened _ a
      · exact listenerFinish_opened _ a
  have hdoor : ∀ P : Listener, (listenerDoor P a).1.opened = P.opened := by
    intro P
    unfold listenerDoor
    split
    · rfl
    · split <;> rfl
  simp only [listenerOpen]
  split
  · rfl
  · split
    · rfl
    · split
      · rfl
      · split
        · exact hdoor _
        · exact hengine _

/-- A served slot is zeroed, or one of the shapes is up in it. -/
theorem listenerServe_cases (cfg : ListenerCfg) (fits : Bool) (a : OpenAnswers) :
    listenerServe cfg fits a = (.zeroed, false) ∨
    ∃ M feeds, ListenerUp { Listener.zeroed with cfg := cfg } fits a M ∧
      listenerServe cfg fits a = ({ M with opened := true, rxStarted := feeds }, true) := by
  unfold listenerServe
  dsimp only
  split
  · rename_i hup
    exact Or.inr ⟨_, _, listenerOpen_up hup.1, rfl⟩
  · exact Or.inl rfl

/-! ### Re-opening in place -/

/-- What a re-open opens: the slot closed, on the changed configuration. -/
def listenerReopening (L : Listener) (change : ListenerCfg → ListenerCfg) : Listener :=
  let closed := if L.opened then listenerClose L else L
  { closed with opened := false, rxStarted := false, cfg := change closed.cfg }

/-- Close, then open with what the caller changed, then start the receiver. -/
def listenerReopen (L : Listener) (change : ListenerCfg → ListenerCfg) (fits : Bool)
    (a : OpenAnswers) : Listener :=
  let r := listenerOpen (listenerReopening L change) fits a
  if !r.2 then r.1
  else if !a.rxStarts then { listenerClose r.1 with opened := false }
  else { r.1 with opened := true, rxStarted := true }

/-- **A re-open leaves the listener down, or one of the shapes up.** -/
theorem listenerReopen_cases (L : Listener) (change : ListenerCfg → ListenerCfg) (fits : Bool)
    (a : OpenAnswers) :
    (listenerReopen L change fits a).opened = false ∨
    ∃ M, ListenerUp (listenerReopening L change) fits a M ∧
      listenerReopen L change fits a = { M with opened := true, rxStarted := true } := by
  have hopened := listenerOpen_opened (listenerReopening L change) fits a
  unfold listenerReopen
  dsimp only
  cases hup : (listenerOpen (listenerReopening L change) fits a).2 with
  | false => exact Or.inl hopened
  | true =>
      cases hrx : a.rxStarts with
      | false => exact Or.inl rfl
      | true => exact Or.inr ⟨_, listenerOpen_up hup, rfl⟩

def rateChange (hz : Nat) (c : ListenerCfg) : ListenerCfg := { c with forcedRate := hz }

def roleChange (role : ReacRole) (c : ListenerCfg) : ListenerCfg := { c with role := role }

def listenerReopenAtRate (L : Listener) (hz : Nat) : Bool → OpenAnswers → Listener :=
  listenerReopen L (rateChange hz)

def listenerReopenAtRole (L : Listener) (role : ReacRole) : Bool → OpenAnswers → Listener :=
  listenerReopen L (roleChange role)

/-! ### A segment and a world for it -/

/-- An unpinned segment of the hearing, in that role. -/
def segmentCfg (ifname : String) (role : ReacRole) : ListenerCfg :=
  { ListenerCfg.zeroed with
    source := some ifname, live := true, txIf := some ifname, role := role, wireHeard := true }

/-- A world in which every open comes up, at that rate. -/
def opensAt (rate : Nat) : OpenAnswers :=
  { tap := .vacant, resolvedRate := rate, rxOpens := true, sampleRate := rate,
    claim := .claimed, sinkMade := true, slaveOpens := true, slaveStarts := true,
    nodesEnsured := true, rxStarts := true }

end ReacPw
