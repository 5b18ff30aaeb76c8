/-
The 200 ms timer of the daemon with its hearing running (`on_rate_reopen_timer`,
which ends in `hearing_poll`), and what comes between two of its turns.

Two tables have to agree: the interface table's states and the listener slots.  A
dozen places close a listener, and each has to tell the interface table that the
wire is to be heard again, or serve it at once.  Every one of them is an act here,
and a turn of the timer is a list of acts in the source's order.

The sniffers are inputs: what a hunt says of a wire when its segment is served,
that it wants one served, and what a kept one's verdict has become.  So are the
trunk's verdicts.  The knock's ladders touch neither table and are left out.
-/
import ReacPw.Hearing

namespace ReacPw

/-- A write on a node of a segment. -/
inductive NodeWrite where
  | capture (bound : Bool) (r : RoleAssert)
  | playback (r : RoleAssert)
  | rate (hz : Nat) (accepted : Bool)

def listenerWrite (L : Listener) : NodeWrite → Listener
  | .capture bound r => listenerCaptureWrite L bound r
  | .playback r => listenerPlaybackWrite L r
  | .rate hz accepted => listenerRateWrite L hz accepted

/-- A write leaves a listener opened or not, on its configuration. -/
theorem listenerWrite_shape (L : Listener) (w : NodeWrite) :
    (listenerWrite L w).opened = L.opened ∧ (listenerWrite L w).cfg = L.cfg := by
  cases w with
  | capture bound r =>
      simp only [listenerWrite, listenerCaptureWrite]
      split <;> exact ⟨rfl, rfl⟩
  | playback r => exact ⟨rfl, rfl⟩
  | rate hz accepted => exact ⟨rfl, rfl⟩

/-- What a serve reads besides the hunt. -/
structure ServeArgs (n : Nat) where
  conf : ListenerCfg
  forcedRate : Nat
  answers : SlotAnswers n

/-- A kept sniffer whose hunt has been stepped. -/
structure YieldArgs (n : Nat) where
  staleNs : Nat
  name : String
  /-- As the last poll left it. -/
  sniffer : Sniffer
  /-- What its hunt says now. -/
  hunt : Hunt
  serve : ServeArgs n

/-- What a turn of the timer, or the loop between two turns, does to the tables. -/
inductive HearAct (n : Nat) where
  /-- A slot's own share of the turn, before the poll. -/
  | slotTick (i : Fin n) (ifaceLost : Bool) (a : SlotAnswers n)
  /-- A receiver found its interface gone. -/
  | ifaceGone (i : Fin n) (now : Nat)
  /-- A sniffer's hunt wants its wire served (`hearing_hunt`). -/
  | hunt (name : String) (now : Nat)
  /-- A pinned master's engine found a box mastering its wire. -/
  | join (i : Fin n) (hunt : Hunt) (s : ServeArgs n)
  /-- A segment that follows has been following nobody for long enough. -/
  | reevaluate (i : Fin n) (now : Nat)
  | rehearEmpty (i : Fin n) (now : Nat) (obs : Option EngineObs)
  | yield (v : YieldArgs n) (now : Nat)
  | scanTick (now : Nat)
  /-- The oldest event is popped and carried out (`hearing_apply`). -/
  | apply (hunt : Option Hunt) (s : ServeArgs n)
  /-- An interface is a trunk's parent (`topo_apply`). -/
  | trunk (name : String)
  | write (i : Fin n) (w : NodeWrite)
  | drain (bytes : List UInt8) (now : Nat)
  | confEdit (ignored : String → Bool)

section
variable {σ : Type*} {n : Nat} (S : IfScan σ) (speed : String → Nat)

/-- Drop a segment and serve it again at once, on another verdict. -/
def hearingReserve (h : Hearing σ n) (name : String) (hunt : Hunt) (s : ServeArgs n) :
    Hearing σ n :=
  hearingServe S speed (hearingDrop h name) name
    (serveCfg name s.conf (some hunt) s.forcedRate) s.answers

theorem hearingReserve_enabled (h : Hearing σ n) (name : String) (hunt : Hunt)
    (s : ServeArgs n) : (hearingReserve S speed h name hunt s).enabled = h.enabled := by
  unfold hearingReserve
  rw [hearingServe_enabled, hearingDrop_enabled]

/-- What a slot's nodes ask of its tick; it does not read the answers of an open. -/
def slotAsked (h : Hearing σ n) (i : Fin n) (ifaceLost : Bool) (a : SlotAnswers n) : TickAct :=
  (rateReopenTick h.enabled (h.listeners i)
    { ifaceLost := ifaceLost, fits := true, reopen := a.open_ }).2

/-- One slot of `on_rate_reopen_timer`. -/
def slotTick (h : Hearing σ n) (i : Fin n) (ifaceLost : Bool) (a : SlotAnswers n) :
    Hearing σ n :=
  match slotAsked h i ifaceLost a with
  | .reclassify _ => hearingRehear S h ((h.listeners i).cfg.source.getD "") a.now
  | .reopenRole role => slotReopen S speed h i (roleChange role) a
  | .reopenRate hz => slotReopen S speed h i (rateChange hz) a
  | _ => h

/-- A pinned master on a live engine, which a box's own mastering ends. -/
def joinApplies (L : Listener) : Bool :=
  L.opened && !L.cfg.doorOnly && L.sink.isSome && L.cfg.rolePinned && L.cfg.role == .master

/-- A segment that follows: a tap, or a slave. -/
def followApplies (L : Listener) : Bool :=
  L.opened && !L.cfg.doorOnly && (L.cfg.tap || L.cfg.role == .slave)

/-- One turn of the loop in `hearing_apply`. -/
def hearingApply (h : Hearing σ n) (hunt : Option Hunt) (s : ServeArgs n) : Hearing σ n :=
  match S.next h.scan with
  | none => h
  | some (e, scan) =>
      let h := { h with scan := scan }
      match e.verb with
      | .serve =>
          -- an ignored segment is never touched
          if h.ignored e.name then h
          else hearingServe S speed h e.name (serveCfg e.name s.conf hunt s.forcedRate) s.answers
      | .drop => hearingDrop h e.name
      | _ => h

def hearStep (h : Hearing σ n) : HearAct n → Hearing σ n
  | .slotTick i ifaceLost a => slotTick S speed h i ifaceLost a
  | .ifaceGone i now =>
      let L := h.listeners i
      if L.opened && L.rxStarted then { h with scan := S.gone h.scan (L.cfg.source.getD "") now }
      else h
  | .hunt name now =>
      if S.state h.scan name = .linked then { h with scan := S.heard h.scan name now } else h
  | .join i hunt s =>
      match (h.listeners i).cfg.source with
      | none => h
      | some name => if joinApplies (h.listeners i) then hearingReserve S speed h name hunt s else h
  | .reevaluate i now =>
      match (h.listeners i).cfg.source with
      | none => h
      | some name => if followApplies (h.listeners i) then hearingRehear S h name now else h
  | .rehearEmpty i now obs =>
      let L := h.listeners i
      let r := rehearEmptyMaster L now obs
      if r.2 then hearingRehear S h (L.cfg.source.getD "") now else h.setSlot i r.1
  | .yield v now =>
      match hearingListener h v.name with
      | none => h
      | some i =>
          if hearingYieldAct v.staleNs (h.listeners i) v.sniffer now v.hunt.verdict = .stand then h
          else hearingReserve S speed h v.name v.hunt v.serve
  | .scanTick now => { h with scan := S.tick h.scan now }
  | .apply hunt s => hearingApply S speed h hunt s
  | .trunk name => hearingDrop h name
  | .write i w =>
      if (h.listeners i).opened then h.setSlot i (listenerWrite (h.listeners i) w) else h
  | .drain bytes now => { h with scan := S.drain h.scan bytes now }
  | .confEdit ignored => { h with ignored := ignored }

/-- The daemon with its hearing running, act by act. -/
def hearMachine : StepMachine (Hearing σ n) (HearAct n) Unit where
  step h act := (hearStep S speed h act, ())

end

/-! ### A turn of the timer -/

/-- What one turn of the timer finds. -/
structure TimerTurn (n : Nat) where
  now : Nat
  ifaceLost : Fin n → Bool
  /-- What the world answers to a slot re-opened in place. -/
  answers : Fin n → SlotAnswers n
  hunts : List String
  /-- A box's mastering, as a slot's own engine sees it. -/
  rivals : Fin n → Option (Hunt × ServeArgs n)
  followsNobody : Fin n → Bool
  engines : Fin n → Option EngineObs
  verdicts : List (YieldArgs n)
  /-- One for each event that is popped. -/
  events : List (Option Hunt × ServeArgs n)
  trunks : List String

/-- The turn's acts: the slots' own re-opens, then `hearing_poll`. -/
def timerTurn {n : Nat} (t : TimerTurn n) : List (HearAct n) :=
  let slots := List.finRange n
  List.flatten [
    slots.map fun i => .slotTick i (t.ifaceLost i) (t.answers i),
    (slots.filter t.ifaceLost).map fun i => .ifaceGone i t.now,
    t.hunts.map fun name => .hunt name t.now,
    slots.filterMap fun i => (t.rivals i).map fun r => .join i r.1 r.2,
    (slots.filter t.followsNobody).map fun i => .reevaluate i t.now,
    slots.map fun i => .rehearEmpty i t.now (t.engines i),
    t.verdicts.map fun v => .yield v t.now,
    [.scanTick t.now],
    t.events.map fun e => .apply e.1 e.2,
    t.trunks.map .trunk ]

end ReacPw
