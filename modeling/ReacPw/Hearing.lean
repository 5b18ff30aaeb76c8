/-
The daemon's listener table and the interface table it serves from (`struct
hearing`).

The interface table is a library's (`reac_ifscan`): it keeps one state for each
interface and a queue of what is to be done about it.  Here it is a parameter, and
`IfScan.Lawful` is what the daemon relies on.  The listeners are slots; a segment
is served on a free one, is found again by its source's name, and is dropped by
closing it.  In the shape with its segments given on the command line the table is
not the hearing's, and what walks it finds nothing.

A master's open asks the table whether its port's budget admits it, and may take
the budget from neighbours that carry nothing.  What the wire shows of those, like
everything else the world answers, is an input.
-/
import ReacPw.LinkBudget
import ReacPw.Watch
import Mathlib.Algebra.BigOperators.Group.Finset.Basic
import Mathlib.Data.Fintype.Basic

namespace ReacPw

/-! ### The interface table -/

inductive IfState where
  | absent
  | down
  | linked
  | segment
  /-- A segment whose link is gone, and not yet for long. -/
  | hold
  deriving DecidableEq, Repr

inductive IfVerb where
  | listen
  | unlisten
  | serve
  | drop
  | kept
  deriving DecidableEq, Repr

structure IfEvent where
  verb : IfVerb
  name : String
  deriving DecidableEq, Repr

/-- The interface table's operations, over its states `σ`. -/
structure IfScan (σ : Type*) where
  state : σ → String → IfState
  /-- What is queued, oldest first. -/
  events : σ → List IfEvent
  /-- Pop the oldest event. -/
  next : σ → Option (IfEvent × σ)
  heard : σ → String → Nat → σ
  serveFailed : σ → String → Nat → σ
  gone : σ → String → Nat → σ
  tick : σ → Nat → σ
  /-- Read what the kernel has sent about the interfaces. -/
  drain : σ → List UInt8 → Nat → σ

/-- Queued things about an interface's segment. -/
def IfEvent.about (name : String) (e : IfEvent) : Bool :=
  e.name == name && (e.verb == .serve || e.verb == .drop)

section
variable {σ : Type*} (S : IfScan σ)

/-- The world moved: a segment was in one of those states before, and nothing has been
queued about it. -/
def IfScan.Moved (before : List IfState) (s s' : σ) : Prop :=
  ∃ extra, S.events s' = S.events s ++ extra ∧
    ∀ name, S.state s' name = .segment →
      S.state s name ∈ before ∧ ∀ e ∈ extra, e.about name = false

/-- What the daemon relies on, of a table whose queue has room: the events that a full queue
loses, counted and reported by `hearing_apply`, are not modelled. -/
structure IfScan.Lawful : Prop where
  next_none : ∀ s, S.next s = none → S.events s = []
  next_some : ∀ s e s', S.next s = some (e, s') →
    S.events s = e :: S.events s' ∧ ∀ name, S.state s' name = S.state s name
  /-- A linked interface that hears REAC is a segment, and its serve is queued. -/
  heard : ∀ s name now,
    (S.events (S.heard s name now) = S.events s ∧
      ∀ k, S.state (S.heard s name now) k = S.state s k) ∨
    (S.state s name = .linked ∧ S.state (S.heard s name now) name = .segment ∧
      (∀ k, k ≠ name → S.state (S.heard s name now) k = S.state s k) ∧
      S.events (S.heard s name now) = S.events s ++ [⟨.serve, name⟩])
  /-- A failed serve takes the interface out of SEGMENT, to be listened to again. -/
  serveFailed : ∀ s name now,
    S.state (S.serveFailed s name now) name ≠ .segment ∧
    (∀ k, k ≠ name → S.state (S.serveFailed s name now) k = S.state s k) ∧
    (S.events (S.serveFailed s name now) = S.events s ∨
      S.events (S.serveFailed s name now) = S.events s ++ [⟨.listen, name⟩])
  gone : ∀ s name now, S.Moved [.segment] s (S.gone s name now)
  tick : ∀ s now, S.Moved [.segment] s (S.tick s now)
  /-- A link may come back inside its hold. -/
  drain : ∀ s bytes now, S.Moved [.segment, .hold] s (S.drain s bytes now)

end

/-! ### The table of listeners -/

/-- The daemon's tables; the listener slots are `n`. -/
structure Hearing (σ : Type*) (n : Nat) where
  /-- The hearing runs, and the slots are its own. -/
  enabled : Bool
  listeners : Fin n → Listener
  scan : σ
  /-- What the conf switches off now. -/
  ignored : String → Bool

/-- What the wire shows of a listener that may have to give its port's budget up. -/
structure SinkFacts where
  heard : Bool
  pastProbing : Bool
  recognizedBox : Bool
  deriving DecidableEq, Repr

section
variable {σ : Type*} {n : Nat}

def Hearing.setSlot (h : Hearing σ n) (i : Fin n) (L : Listener) : Hearing σ n :=
  { h with listeners := Function.update h.listeners i L }

/-- An opened listener on that source. -/
def serves (L : Listener) (name : String) : Bool := L.opened && L.cfg.source == some name

/-- The slot an interface is served on (`hearing_listener`). -/
def hearingListener (h : Hearing σ n) (name : String) : Option (Fin n) :=
  if h.enabled then (List.finRange n).find? fun i => serves (h.listeners i) name else none

def hearingDrop (h : Hearing σ n) (name : String) : Hearing σ n :=
  match hearingListener h name with
  | none => h
  | some i => h.setSlot i (listenerDropped (h.listeners i))

/-! ### The port's budget -/

/-- A listener that transmits on that port. -/
def sendsOn (L : Listener) (port : String) : Bool :=
  L.opened && L.sink.isSome && linkPortOf (L.cfg.txIf.getD "") == port

/-- The other slots that transmit on a port, as the walk over the table finds them. -/
def portHolders (h : Hearing σ n) (self : Fin n) (port : String) : Finset (Fin n) :=
  Finset.univ.filter fun i => i ≠ self ∧ sendsOn (h.listeners i) port = true

/-- What they cost. -/
def portUsedKbit (h : Hearing σ n) (self : Fin n) (port : String) : Nat :=
  ∑ i ∈ portHolders h self port, masterCostKbit (h.listeners i).sampleRate

/-- What is committed on the port of the slot being opened (`link_used_kbit`). -/
def linkUsedKbit (h : Hearing σ n) (self : Fin n) : Nat :=
  if h.enabled then portUsedKbit h self (linkPortOf ((h.listeners self).cfg.txIf.getD ""))
  else 0

/-- A holder that carries nothing at all. -/
def listenerBudgetEmpty (L : Listener) (f : SinkFacts) : Bool :=
  L.opened && L.sink.isSome && !L.cfg.tap && !f.heard && !f.pastProbing && !f.recognizedBox

/-- The slots that hold the port of a taker: opened, transmitting, on a source of their
own. -/
def budgetHolders (h : Hearing σ n) (taker port : String) : List (Fin n) :=
  if h.enabled then
    (List.finRange n).filter fun i =>
      sendsOn (h.listeners i) port && (h.listeners i).cfg.source.isSome &&
        (h.listeners i).cfg.source != some taker
  else []

/-- The segments that yield a port to its taker: all that hold it, when none of them
carries anything and none is pinned, and otherwise nobody. -/
def budgetYielders (h : Hearing σ n) (taker port : String) (facts : Fin n → SinkFacts) :
    List String :=
  let holders := budgetHolders h taker port
  if holders.all fun i =>
      listenerBudgetEmpty (h.listeners i) (facts i) && !(h.listeners i).cfg.rolePinned then
    holders.filterMap fun i => (h.listeners i).cfg.source
  else []

variable (S : IfScan σ)

def Hearing.serveFailed (h : Hearing σ n) (name : String) (now : Nat) : Hearing σ n :=
  { h with scan := S.serveFailed h.scan name now }

/-- Drop a segment and hear its wire again. -/
def hearingRehear (h : Hearing σ n) (name : String) (now : Nat) : Hearing σ n :=
  (hearingDrop h name).serveFailed S name now

/-- Every yielding segment is dropped and heard again (`link_budget_yield`). -/
def linkBudgetYield (h : Hearing σ n) (names : List String) (now : Nat) : Hearing σ n :=
  names.foldl (fun h name => hearingRehear S h name now) h

/-- What the world answers while a slot is opened. -/
structure SlotAnswers (n : Nat) where
  facts : Fin n → SinkFacts
  open_ : OpenAnswers
  now : Nat

variable (speed : String → Nat)

/-- Whether the budget of the slot's port admits it as the table stands. -/
def slotFits (h : Hearing σ n) (i : Fin n) (sampleRate : Nat) : Bool :=
  reacLinkBudgetFits (speed (linkPortOf ((h.listeners i).cfg.txIf.getD ""))) (linkUsedKbit h i)
    (masterCostKbit sampleRate)

/-- The segments an open of the slot takes the budget from: nobody when it is admitted
as it is, or when its own wire was never heard. -/
def slotYielders (h : Hearing σ n) (i : Fin n) (a : SlotAnswers n) : List String :=
  let L := h.listeners i
  if !listenerAsksBudget L a.open_ || slotFits speed h i a.open_.sampleRate || !L.cfg.wireHeard then
    []
  else
    let dev := L.cfg.txIf.getD ""
    budgetYielders h (L.cfg.source.getD dev) (linkPortOf dev) a.facts

/-- The table as the open of the slot leaves it, and whether the budget admits it. -/
def slotAdmitted (h : Hearing σ n) (i : Fin n) (a : SlotAnswers n) : Hearing σ n × Bool :=
  let h' := linkBudgetYield S h (slotYielders speed h i a) a.now
  (h', slotFits speed h' i a.open_.sampleRate)

/-! ### Serving, and opening in place -/

/-- What a hunt says of a wire, as far as a serve reads it. -/
structure Hunt where
  verdict : HuntVerdict
  /-- `reac_hunt_role`. -/
  role : ReacRole
  /-- The rival is a box, of a width that can be joined. -/
  boxRival : Bool
  /-- A desk masters the wire and the conf does not ask for the recorder. -/
  defersAsTap : Bool
  heardAnything : Bool
  deriving DecidableEq, Repr

/-- What the verdict makes of the conf's configuration: a tap, a door, a join. -/
def cfgOnVerdict (c : ListenerCfg) (w : Hunt) : ListenerCfg :=
  if c.tap || w.defersAsTap then { c with tap := true }
  else match w.verdict with
    | .hunting => { c with doorOnly := true, doorVacant := true }
    | .refused => { c with doorOnly := true }
    | .slave => if w.boxRival then { c with joinBoxMaster := true, role := .slave } else c
    | .master => c

/-- The conf's configuration, overlaid by the hunt: an unpinned role is the wire's. -/
def cfgOnHunt (c : ListenerCfg) (w : Hunt) : ListenerCfg :=
  let c := cfgOnVerdict c w
  { c with role := if c.rolePinned then c.role else w.role, wireHeard := w.heardAnything }

/-- The configuration a segment is served on. -/
def serveCfg (name : String) (conf : ListenerCfg) (hunt : Option Hunt) (forcedRate : Nat) :
    ListenerCfg :=
  let c := match hunt with
    | none => { conf with wireHeard := false }
    | some w => cfgOnHunt conf w
  { c with
    source := some name, live := true
    forcedRate := if forcedRate ≠ 0 then forcedRate else c.forcedRate }

@[simp] theorem serveCfg_source (name : String) (conf : ListenerCfg) (hunt : Option Hunt)
    (forcedRate : Nat) : (serveCfg name conf hunt forcedRate).source = some name := rfl

def freeSlot (h : Hearing σ n) : Option (Fin n) :=
  (List.finRange n).find? fun i => !(h.listeners i).opened

/-- Serve a segment (`hearing_serve`): never twice, on a free slot, and heard again when
it does not come up. -/
def hearingServe (h : Hearing σ n) (name : String) (cfg : ListenerCfg) (a : SlotAnswers n) :
    Hearing σ n :=
  if (hearingListener h name).isSome then h
  else match freeSlot h with
    | none => h.serveFailed S name a.now
    | some i =>
        let r := slotAdmitted S speed (h.setSlot i { Listener.zeroed with cfg := cfg }) i a
        let served := listenerServe cfg r.2 a.open_
        if served.2 then r.1.setSlot i served.1
        else (r.1.setSlot i served.1).serveFailed S name a.now

/-- Re-open a slot in place (`listener_reopen_at_rate`, `listener_reopen_at_role`). -/
def slotReopen (h : Hearing σ n) (i : Fin n) (change : ListenerCfg → ListenerCfg)
    (a : SlotAnswers n) : Hearing σ n :=
  let L := h.listeners i
  let r := slotAdmitted S speed (h.setSlot i (listenerReopening L change)) i a
  r.1.setSlot i (listenerReopen L change r.2 a.open_)

/-- The first open of a segment given on the command line; its receiver starts later. -/
def slotOpenLive (h : Hearing σ n) (i : Fin n) (a : SlotAnswers n) : Hearing σ n :=
  let r := slotAdmitted S speed h i a
  let up := listenerOpen (h.listeners i) r.2 a.open_
  r.1.setSlot i { up.1 with opened := up.2 }

/-! ### What happens to the table -/

/-- Every way a slot is opened, re-opened or closed. -/
inductive TableAct (n : Nat) where
  | serve (name : String) (conf : ListenerCfg) (hunt : Option Hunt) (forcedRate : Nat)
    (a : SlotAnswers n)
  | drop (name : String)
  | reopenRate (i : Fin n) (hz : Nat) (a : SlotAnswers n)
  | reopenRole (i : Fin n) (role : ReacRole) (a : SlotAnswers n)
  | openLive (i : Fin n) (a : SlotAnswers n)
  /-- Its receiver, which closes the listener when it does not start. -/
  | startLive (i : Fin n) (ok : Bool)

def tableStep (h : Hearing σ n) : TableAct n → Hearing σ n
  | .serve name conf hunt forcedRate a =>
      if h.enabled then hearingServe S speed h name (serveCfg name conf hunt forcedRate) a else h
  | .drop name => hearingDrop h name
  | .reopenRate i hz a =>
      if (h.listeners i).opened then slotReopen S speed h i (rateChange hz) a else h
  | .reopenRole i role a =>
      if (h.listeners i).opened then slotReopen S speed h i (roleChange role) a else h
  | .openLive i a =>
      if h.enabled || (h.listeners i).opened then h else slotOpenLive S speed h i a
  | .startLive i ok =>
      if h.enabled || !(h.listeners i).opened then h
      else if ok then h.setSlot i { h.listeners i with rxStarted := true }
      else h.setSlot i (listenerDropped (h.listeners i))

end

/-! ### Walking the table -/

section
variable {σ : Type*} {n : Nat}

@[simp] theorem setSlot_enabled (h : Hearing σ n) (i : Fin n) (L : Listener) :
    (h.setSlot i L).enabled = h.enabled := rfl

@[simp] theorem setSlot_scan (h : Hearing σ n) (i : Fin n) (L : Listener) :
    (h.setSlot i L).scan = h.scan := rfl

@[simp] theorem setSlot_ignored (h : Hearing σ n) (i : Fin n) (L : Listener) :
    (h.setSlot i L).ignored = h.ignored := rfl

@[simp] theorem setSlot_same (h : Hearing σ n) (i : Fin n) (L : Listener) :
    (h.setSlot i L).listeners i = L := by
  simp [Hearing.setSlot]

theorem setSlot_ne (h : Hearing σ n) {i j : Fin n} (L : Listener) (hne : j ≠ i) :
    (h.setSlot i L).listeners j = h.listeners j := by
  simp [Hearing.setSlot, hne]

theorem hearingListener_some {h : Hearing σ n} {name : String} {i : Fin n}
    (hfound : hearingListener h name = some i) :
    h.enabled = true ∧ serves (h.listeners i) name = true := by
  unfold hearingListener at hfound
  split at hfound
  · rename_i hen
    exact ⟨hen, by simpa using List.find?_some hfound⟩
  · exact absurd hfound (by simp)

theorem hearingListener_none {h : Hearing σ n} {name : String} (hen : h.enabled = true)
    (hnone : hearingListener h name = none) (i : Fin n) : serves (h.listeners i) name = false := by
  rw [hearingListener, if_pos hen, List.find?_eq_none] at hnone
  simpa using hnone i (List.mem_finRange i)

theorem freeSlot_some {h : Hearing σ n} {i : Fin n} (hfree : freeSlot h = some i) :
    (h.listeners i).opened = false := by
  simpa using List.find?_some hfree

/-- A drop closes the slot it finds, or finds none. -/
theorem hearingDrop_cases (h : Hearing σ n) (name : String) :
    (hearingListener h name = none ∧ hearingDrop h name = h) ∨
    ∃ i, serves (h.listeners i) name = true ∧
      hearingDrop h name = h.setSlot i (listenerDropped (h.listeners i)) := by
  unfold hearingDrop
  cases hfound : hearingListener h name with
  | none => exact Or.inl ⟨rfl, rfl⟩
  | some i => exact Or.inr ⟨i, (hearingListener_some hfound).2, rfl⟩

/-- Slot `j` is as it was, or it was opened on one of those sources and has been dropped. -/
def KeptOrDropped (h h' : Hearing σ n) (names : List String) (j : Fin n) : Prop :=
  h'.listeners j = h.listeners j ∨
    ((∃ name ∈ names, serves (h.listeners j) name = true) ∧
      h'.listeners j = listenerDropped (h.listeners j))

theorem hearingDrop_slot (h : Hearing σ n) (name : String) (j : Fin n) :
    KeptOrDropped h (hearingDrop h name) [name] j := by
  rcases hearingDrop_cases h name with ⟨-, hres⟩ | ⟨i, hserves, hres⟩
  · exact Or.inl (by rw [hres])
  · by_cases hj : j = i
    · subst hj
      exact Or.inr ⟨⟨name, List.mem_cons_self, hserves⟩, by rw [hres, setSlot_same]⟩
    · exact Or.inl (by rw [hres, setSlot_ne _ _ hj])

theorem serves_dropped (L : Listener) (name : String) : serves (listenerDropped L) name = false :=
  rfl

@[simp] theorem hearingDrop_enabled (h : Hearing σ n) (name : String) :
    (hearingDrop h name).enabled = h.enabled := by
  rcases hearingDrop_cases h name with ⟨-, hres⟩ | ⟨i, -, hres⟩ <;> rw [hres]
  rfl

@[simp] theorem hearingDrop_scan (h : Hearing σ n) (name : String) :
    (hearingDrop h name).scan = h.scan := by
  rcases hearingDrop_cases h name with ⟨-, hres⟩ | ⟨i, -, hres⟩ <;> rw [hres]
  rfl

@[simp] theorem hearingDrop_ignored (h : Hearing σ n) (name : String) :
    (hearingDrop h name).ignored = h.ignored := by
  rcases hearingDrop_cases h name with ⟨-, hres⟩ | ⟨i, -, hres⟩ <;> rw [hres]
  rfl

variable (S : IfScan σ) (speed : String → Nat)

/-- Every slot a yield closes was opened on a source that yields. -/
theorem linkBudgetYield_slot (now : Nat) :
    ∀ (names : List String) (h : Hearing σ n),
      (linkBudgetYield S h names now).enabled = h.enabled ∧
      ∀ j, KeptOrDropped h (linkBudgetYield S h names now) names j := by
  intro names
  induction names with
  | nil => intro h; exact ⟨rfl, fun j => Or.inl rfl⟩
  | cons name rest ih =>
      intro h
      obtain ⟨hen, hslots⟩ := ih (hearingRehear S h name now)
      refine ⟨hen.trans (hearingDrop_enabled h name), fun j => ?_⟩
      have hfirst : KeptOrDropped h (hearingRehear S h name now) [name] j :=
        hearingDrop_slot h name j
      have hrest : KeptOrDropped (hearingRehear S h name now)
          (linkBudgetYield S h (name :: rest) now) rest j := hslots j
      rcases hfirst with hkept | ⟨⟨m, hm, hserves⟩, hdropped⟩
      · rcases hrest with hkept' | ⟨⟨m, hm, hserves⟩, hdropped⟩
        · exact Or.inl (hkept'.trans hkept)
        · rw [hkept] at hserves hdropped
          exact Or.inr ⟨⟨m, List.mem_cons_of_mem _ hm, hserves⟩, hdropped⟩
      · -- a slot dropped once is on no source any more
        have hname : m = name := List.mem_singleton.mp hm
        rcases hrest with hkept' | ⟨⟨k, -, hserves'⟩, -⟩
        · exact Or.inr ⟨⟨m, hname ▸ List.mem_cons_self, hserves⟩, hkept'.trans hdropped⟩
        · rw [hdropped, serves_dropped] at hserves'
          exact absurd hserves' Bool.false_ne_true

theorem slotAdmitted_enabled (h : Hearing σ n) (i : Fin n) (a : SlotAnswers n) :
    (slotAdmitted S speed h i a).1.enabled = h.enabled :=
  (linkBudgetYield_slot S a.now _ h).1

theorem hearingServe_enabled (h : Hearing σ n) (name : String) (cfg : ListenerCfg)
    (a : SlotAnswers n) : (hearingServe S speed h name cfg a).enabled = h.enabled := by
  unfold hearingServe
  split
  · rfl
  · split
    · rfl
    · dsimp only
      split <;> exact slotAdmitted_enabled S speed _ _ a

/-- What an open's admission does to the slots: the yielding ones are dropped. -/
theorem slotAdmitted_slot (h : Hearing σ n) (i : Fin n) (a : SlotAnswers n) (j : Fin n) :
    KeptOrDropped h (slotAdmitted S speed h i a).1 (slotYielders speed h i a) j :=
  (linkBudgetYield_slot S a.now _ h).2 j

end

/-! ### A small interface table -/

/-- Interface states in a list, the latest first, and a queue; it keeps no clock and the
kernel tells it nothing. -/
structure ScanTable where
  ifs : List (String × IfState)
  queue : List IfEvent
  deriving DecidableEq, Repr

def ScanTable.state (t : ScanTable) (name : String) : IfState := (t.ifs.lookup name).getD .absent

/-- An interface moves, and an event is queued. -/
def ScanTable.move (t : ScanTable) (name : String) (dest : IfState) (verb : IfVerb) : ScanTable :=
  { ifs := (name, dest) :: t.ifs, queue := t.queue ++ [⟨verb, name⟩] }

def scanTable : IfScan ScanTable where
  state := ScanTable.state
  events := ScanTable.queue
  next t := match t.queue with
    | [] => none
    | e :: rest => some (e, { t with queue := rest })
  heard t name _ := if t.state name = .linked then t.move name .segment .serve else t
  serveFailed t name _ := if t.state name = .segment then t.move name .linked .listen else t
  gone t name _ :=
    if t.state name = .segment ∨ t.state name = .hold then t.move name .absent .drop
    else if t.state name = .linked then t.move name .absent .unlisten
    else t
  tick t _ := t
  drain t _ _ := t

theorem ScanTable.move_state (t : ScanTable) (name k : String) (dest : IfState) (verb : IfVerb) :
    (t.move name dest verb).state k = if k = name then dest else t.state k := by
  unfold ScanTable.state ScanTable.move
  by_cases hk : k = name
  · simp [hk]
  · simp [hk, List.lookup_cons, beq_eq_false_iff_ne.mpr hk]

theorem scanTable_still (t : ScanTable) : scanTable.Moved [.segment] t t :=
  ⟨[], (List.append_nil _).symm,
    fun _ hk => ⟨List.mem_singleton.mpr hk, fun _ he => absurd he List.not_mem_nil⟩⟩

/-- It is what the daemon relies on. -/
theorem scanTable_lawful : scanTable.Lawful where
  next_none t hnone := by
    cases hq : t.queue with
    | nil => exact hq
    | cons e rest => exact absurd hnone (by simp [scanTable, hq])
  next_some t e t' hsome := by
    cases hq : t.queue with
    | nil => exact absurd hsome (by simp [scanTable, hq])
    | cons first rest =>
        simp only [scanTable, hq, Option.some.injEq, Prod.mk.injEq] at hsome
        obtain ⟨rfl, rfl⟩ := hsome
        exact ⟨hq, fun _ => rfl⟩
  heard t name now := by
    by_cases hlinked : t.state name = .linked
    · refine Or.inr ⟨hlinked, ?_, fun k hk => ?_, ?_⟩
      · show (if t.state name = .linked then _ else t : ScanTable).state name = _
        rw [if_pos hlinked, ScanTable.move_state, if_pos rfl]
      · show (if t.state name = .linked then _ else t : ScanTable).state k = _
        rw [if_pos hlinked, ScanTable.move_state, if_neg hk]
        rfl
      · show (if t.state name = .linked then _ else t : ScanTable).queue = _
        rw [if_pos hlinked]
        rfl
    · have hsame : scanTable.heard t name now = t := if_neg hlinked
      exact Or.inl ⟨by rw [hsame], fun k => by rw [hsame]⟩
  serveFailed t name now := by
    by_cases hseg : t.state name = .segment
    · have hmoved : scanTable.serveFailed t name now = t.move name .linked .listen := if_pos hseg
      refine ⟨?_, fun k hk => ?_, Or.inr ?_⟩
      · rw [hmoved]
        show (t.move name .linked .listen).state name ≠ .segment
        rw [ScanTable.move_state, if_pos rfl]
        decide
      · rw [hmoved]
        show (t.move name .linked .listen).state k = t.state k
        rw [ScanTable.move_state, if_neg hk]
      · rw [hmoved]
        rfl
    · have hsame : scanTable.serveFailed t name now = t := if_neg hseg
      exact ⟨by rw [hsame]; exact hseg, fun k _ => by rw [hsame], Or.inl (by rw [hsame])⟩
  gone t name now := by
    have hmoved : ∀ verb, scanTable.Moved [.segment] t (t.move name .absent verb) := by
      intro verb
      refine ⟨[⟨verb, name⟩], rfl, fun k hk => ?_⟩
      have hk' : (t.move name .absent verb).state k = .segment := hk
      rw [ScanTable.move_state] at hk'
      split at hk'
      · exact absurd hk' (by decide)
      · rename_i hne
        refine ⟨List.mem_singleton.mpr hk', fun e he => ?_⟩
        obtain rfl := List.mem_singleton.mp he
        have hname : (name == k) = false := beq_eq_false_iff_ne.mpr (Ne.symm hne)
        rw [IfEvent.about, hname, Bool.false_and]
    show scanTable.Moved [.segment] t (if _ then _ else if _ then _ else t)
    split
    · exact hmoved .drop
    · split
      · exact hmoved .unlisten
      · exact scanTable_still t
  tick t now := scanTable_still t
  drain t bytes now := by
    obtain ⟨extra, hevents, hseg⟩ := scanTable_still t
    refine ⟨extra, hevents, fun k hk => ⟨?_, (hseg k hk).2⟩⟩
    rw [List.mem_singleton.mp (hseg k hk).1]
    exact List.mem_cons_self

end ReacPw
