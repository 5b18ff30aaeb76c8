/-
The trunk's verdict: the topology taps, what they read, and what the hearing asks of
them (`on_topo_io`, `topo_watch_iface`, `topo_trunk_now`, `topo_apply`).

The topology table is a library's (`reac_topo`): it keeps a row for each parent that
is watched, and never forgets that tagged REAC was heard there.  It is a parameter
here, and `TopoApi.Lawful` is what the daemon relies on.  A tap is the daemon's own: it
stamps its opening and the last tag it read, and the verdict is the table's word while
one of the two is recent.

The hearing's acts are those of its poll.  Two of them ask the verdict: a hunt passes a
trunk's parent over, and the poll ends by dropping what is served on one.  An event that
is carried out opens and closes the taps.  Each act has the poll's own `now`, sampled
when the poll began, and what the monotonic clock reads at the act.
-/
import ReacPw.HearingPoll
import ReacPw.Lib.Run
import ReacPw.Lib.Slots

namespace ReacPw

/-! ### The library's table -/

/-- `enum reac_topo_kind`. -/
inductive TopoKind where
  | notReac
  | untagged
  /-- A REAC frame with a tag. -/
  | tagged
  /-- A tag on some other ethertype. -/
  | taggedOther
  deriving DecidableEq, Repr

/-- A classified frame, as the tap reads it (`struct reac_topo_frame`). -/
structure TopoFrame where
  kind : TopoKind
  vid : Nat
  ifindex : Nat
  outgoing : Bool
  deriving DecidableEq, Repr

inductive TopoVerb where
  | ensure
  | release
  deriving DecidableEq, Repr

structure TopoEvent where
  verb : TopoVerb
  parent : String
  vid : Nat
  deriving DecidableEq, Repr

/-- The topology table's operations, over its states `τ`. -/
structure TopoApi (τ : Type*) where
  /-- The parent has a row (`reac_topo_find`). -/
  found : τ → String → Bool
  /-- Tagged REAC frames heard on it. -/
  tagged : τ → String → Nat
  isTrunk : τ → String → Bool
  watch : τ → String → τ × Bool
  unwatch : τ → String → UInt64 → τ
  saw : τ → String → TopoKind → Nat → UInt64 → τ
  untaggedOnTrunk : τ → String → τ × Bool
  tick : τ → UInt64 → τ
  /-- Pop the oldest event. -/
  next : τ → Option (TopoEvent × τ)
  ensured : τ → String → Nat → Bool → τ
  ensureFailed : τ → String → Nat → UInt64 → τ

section
variable {τ : Type*} (T : TopoApi τ)

/-- Which parents are trunks is as it was. -/
def TopoApi.SameTrunks (t t' : τ) : Prop := ∀ parent, T.isTrunk t' parent = T.isTrunk t parent

/-- What the daemon relies on: a trunk is a parent on which tagged REAC was ever heard, and
nothing the poll does to the table makes one or forgets one. -/
structure TopoApi.Lawful : Prop where
  isTrunk_iff : ∀ t parent,
    T.isTrunk t parent = true ↔ T.found t parent = true ∧ 0 < T.tagged t parent
  untaggedOnTrunk : ∀ t parent, T.SameTrunks t (T.untaggedOnTrunk t parent).1
  tick : ∀ t now, T.SameTrunks t (T.tick t now)
  next : ∀ t e t', T.next t = some (e, t') → T.SameTrunks t t'
  ensured : ∀ t parent vid minted, T.SameTrunks t (T.ensured t parent vid minted)
  ensureFailed : ∀ t parent vid now, T.SameTrunks t (T.ensureFailed t parent vid now)

end

/-! ### The taps -/

/-- An opened tap (`struct topo_tap`). -/
structure TopoTap where
  parent : String
  ifindex : Nat
  linkupNs : UInt64
  /-- 0 while no tag has been read. -/
  lastTaggedNs : UInt64
  deriving DecidableEq, Repr

/-- The topology table, and the taps in their `m` slots. -/
structure Topo (τ : Type*) (m : Nat) where
  table : τ
  taps : Fin m → Option TopoTap

/-- What the world answers while a tap is opened. -/
structure WatchAnswers where
  /-- `reac_topo_is_stacked`. -/
  stacked : Bool
  opens : Bool
  /-- `if_nametoindex`, 0 for an interface that is gone. -/
  ifindex : Nat
  ioAdded : Bool
  deriving DecidableEq, Repr

/-- Frames one callback reads at most. -/
def topoReadMax : Nat := 256

section
variable {τ : Type*} {m : Nat}

/-- The slot of a parent's tap (`tap_find`). -/
def tapFind (t : Topo τ m) (parent : String) : Option (Fin m) :=
  Slots.find TopoTap.parent t.taps parent

/-- The tap of a parent. -/
def Topo.tapOf (t : Topo τ m) (parent : String) : Option TopoTap :=
  Slots.entry TopoTap.parent t.taps parent

def Topo.setTap (t : Topo τ m) (i : Fin m) (tap : Option TopoTap) : Topo τ m :=
  { t with taps := Function.update t.taps i tap }

variable (T : TopoApi τ)

/-- A frame is evidence about the parent when it came in, and on the tap's own interface. -/
def TopoTap.evidence (tap : TopoTap) (f : TopoFrame) : Bool :=
  f.ifindex == tap.ifindex && !f.outgoing

/-- One frame of `on_topo_io`: what is not evidence decides nothing, and only tagged REAC
is stamped. -/
def topoRead (now : UInt64) (st : TopoTap × τ) (f : TopoFrame) : TopoTap × τ :=
  let (tap, table) := st
  if !tap.evidence f then st
  else
    let tap := if f.kind = .tagged then { tap with lastTaggedNs := now } else tap
    (tap, T.saw table tap.parent f.kind f.vid now)

/-- A tap is readable; `frames` is what it has queued. -/
def onTopoIo (t : Topo τ m) (i : Fin m) (frames : List TopoFrame) (now : UInt64) : Topo τ m :=
  match t.taps i with
  | none => t
  | some tap =>
      let r := (frames.take topoReadMax).foldl (topoRead T now) (tap, t.table)
      { t with table := r.2 }.setTap i (some r.1)

/-- What stands before the last dot of an interface's name. -/
def vlanParent (name : String) : Option String :=
  let cs := name.toList.reverse
  let suffix := cs.takeWhile (· != '.')
  let parent := String.ofList ((cs.dropWhile (· != '.')).drop 1).reverse
  if suffix.isEmpty || parent.isEmpty || ifnamsiz ≤ parent.utf8ByteSize then none
  else some parent

def tapIsVlanOfWatched (table : τ) (name : String) : Bool :=
  (vlanParent name).any (T.found table)

/-- Open a tap on an interface: every exit but the last leaves the taps alone. -/
def topoWatchIface (t : Topo τ m) (name : String) (a : WatchAnswers) (now : UInt64) : Topo τ m :=
  if (tapFind t name).isSome || a.stacked || tapIsVlanOfWatched T t.table name then t
  else match Slots.free t.taps with
    | none => t
    | some i =>
        if !a.opens then t
        else
          let watched := T.watch t.table name
          let t := { t with table := watched.1 }
          if !watched.2 then t
          -- the interface went away, or the loop takes no source for it
          else if a.ifindex = 0 || !a.ioAdded then
            { t with table := T.unwatch t.table name now }
          else
            t.setTap i (some
              { parent := name, ifindex := a.ifindex, linkupNs := now, lastTaggedNs := 0 })

/-- The link is down: the tap goes, and the table keeps its row. -/
def topoUnwatchIface (t : Topo τ m) (name : String) : Topo τ m :=
  match tapFind t name with
  | none => t
  | some i => t.setTap i none

/-- The parent is gone, and its row goes with the tap. -/
def topoForgetIface (t : Topo τ m) (name : String) (now : UInt64) : Topo τ m :=
  let t := topoUnwatchIface t name
  { t with table := T.unwatch t.table name now }

/-- Whether a tap's verdict stands: a tag was read recently, or none was and the tap is
young.  Unsigned time subtracts in the right order or not at all. -/
def TopoTap.fresh (tap : TopoTap) (windowNs now : UInt64) : Bool :=
  if tap.lastTaggedNs ≠ 0 then
    if now ≤ tap.lastTaggedNs then true else decide (now - tap.lastTaggedNs < windowNs)
  else if now ≤ tap.linkupNs then true
  else decide (now - tap.linkupNs < windowNs)

variable (windowNs : UInt64)

/-- `topo_trunk_now`; the window is `REACPW_TRUNK_RECLASSIFY_NS`. -/
def topoTrunkNow (t : Topo τ m) (parent : String) (now : UInt64) : Bool :=
  if !T.isTrunk t.table parent then false
  else match t.tapOf parent with
    | none => true
    | some tap => tap.fresh windowNs now

end

/-! ### The hearing with its taps -/

/-- The hearing's tables, and the topology's. -/
structure Trunks (σ τ : Type*) (n m : Nat) where
  hear : Hearing σ n
  topo : Topo τ m

/-- What became of one VLAN's netdev (`topo_ensure`). -/
inductive EnsureAnswer where
  /-- It is there already, ours or the host's. -/
  | present (ours : Bool)
  | created
  /-- Its name does not fit, or it cannot be made. -/
  | failed
  deriving DecidableEq, Repr

/-- An act that neither asks the trunk's verdict nor touches a tap. -/
def HearAct.plain {n : Nat} : HearAct n → Bool
  | .hunt .. | .apply .. | .trunk .. => false
  | _ => true

/-- What happens to the tables; a hunt, an event that is carried out and the verdict at the
poll's end are the topology's business as well. -/
inductive TrunkAct (n m : Nat) where
  /-- A tap is readable. -/
  | io (i : Fin m) (frames : List TopoFrame)
  | hear (act : HearAct n) (plain : act.plain = true)
  | hunt (name : String)
  | apply (hunt : Option Hunt) (s : ServeArgs n) (a : WatchAnswers)
  /-- The end of the poll, and what became of each netdev it was asked for. -/
  | topoApply (made : List EnsureAnswer)

/-- What `hearing_poll` does; the slots' own re-opens, the writes on the nodes, the kernel's
messages and the conf come from elsewhere. -/
def TrunkAct.ofPoll {n m : Nat} : TrunkAct n m → Bool
  | .io .. | .hear (.slotTick ..) _ | .hear (.write ..) _ | .hear (.drain ..) _
  | .hear (.confEdit _) _ => false
  | _ => true

/-- The act a poll ends with. -/
def TrunkAct.endsPoll {n m : Nat} : TrunkAct n m → Bool
  | .topoApply _ => true
  | _ => false

structure TrunkInput (n m : Nat) where
  /-- What the monotonic clock reads at the act. -/
  clock : UInt64
  /-- The poll's own `now`. -/
  now : UInt64
  act : TrunkAct n m

section
variable {σ τ : Type*} {n m : Nat} (S : IfScan σ) (speed : String → Nat) (T : TopoApi τ)
  (windowNs : UInt64)

/-- A hunt passes the parent of a trunk over. -/
def huntsPastTrunk (d : Trunks σ τ n m) (name : String) (now : UInt64) : Bool :=
  T.found d.topo.table name && decide (0 < T.tagged d.topo.table name) &&
    topoTrunkNow T windowNs d.topo name now

/-- What the oldest event does to the taps (`hearing_apply`). -/
def topoOnEvent (d : Trunks σ τ n m) (a : WatchAnswers) (clock : UInt64) : Topo τ m :=
  match S.next d.hear.scan with
  | none => d.topo
  | some (e, _) =>
      match e.verb with
      | .listen =>
          if d.hear.ignored e.name then d.topo else topoWatchIface T d.topo e.name a clock
      | .unlisten => topoUnwatchIface d.topo e.name
      | .drop => topoForgetIface T d.topo e.name clock
      | _ => d.topo

/-- One tap's share of `topo_apply`: what is served on the parent of a trunk is dropped. -/
def topoApplyTap (now : UInt64) (d : Trunks σ τ n m) (i : Fin m) : Trunks σ τ n m :=
  match d.topo.taps i with
  | none => d
  | some tap =>
      if !topoTrunkNow T windowNs d.topo tap.parent now then d
      else
        { hear := hearingDrop d.hear tap.parent
          topo := { d.topo with table := (T.untaggedOnTrunk d.topo.table tap.parent).1 } }

def topoEnsure (table : τ) (parent : String) (vid : Nat) (now : UInt64) : EnsureAnswer → τ
  | .present ours => T.ensured table parent vid ours
  | .created => T.ensured table parent vid true
  | .failed => T.ensureFailed table parent vid now

/-- The events of the topology table, one answer for each that is popped. -/
def topoEvents (now : UInt64) : List EnsureAnswer → τ → τ
  | [], table => table
  | made :: rest, table =>
      match T.next table with
      | none => table
      | some (e, table) =>
          topoEvents now rest
            (match e.verb with
              | .ensure => topoEnsure T table e.parent e.vid now made
              | .release => table)

def topoApply (d : Trunks σ τ n m) (made : List EnsureAnswer) (now : UInt64) : Trunks σ τ n m :=
  let d := (List.finRange m).foldl (topoApplyTap T windowNs now) d
  { d with topo := { d.topo with table := topoEvents T now made (T.tick d.topo.table now) } }

def trunkStep (d : Trunks σ τ n m) (i : TrunkInput n m) : Trunks σ τ n m :=
  match i.act with
  | .io tap frames => { d with topo := onTopoIo T d.topo tap frames i.clock }
  | .hear act _ => { d with hear := hearStep S speed d.hear act }
  | .hunt name =>
      if huntsPastTrunk T windowNs d name i.now then d
      else { d with hear := hearStep S speed d.hear (.hunt name i.now.toNat) }
  | .apply hunt s a =>
      { hear := hearStep S speed d.hear (.apply hunt s), topo := topoOnEvent S T d a i.clock }
  | .topoApply made => topoApply T windowNs d made i.now

/-! ### What a step did -/

/-- What a tap went through. -/
inductive TapLog where
  | opened (parent : String) (ifindex : Nat) (now : UInt64)
  | closed (parent : String)
  | read (parent : String) (f : TopoFrame) (now : UInt64)
  deriving DecidableEq, Repr

/-- The tap that was opened on an interface, when there was none and there is one. -/
def tapOpened (t t' : Topo τ m) (name : String) (clock : UInt64) : List TapLog :=
  match t.tapOf name, t'.tapOf name with
  | none, some tap => [.opened name tap.ifindex clock]
  | _, _ => []

/-- What a step did with the taps, read off what it was given. -/
def tapLog (d : Trunks σ τ n m) (i : TrunkInput n m) : List TapLog :=
  match i.act with
  | .io tap frames =>
      match d.topo.taps tap with
      | none => []
      | some tp => (frames.take topoReadMax).map fun f => .read tp.parent f i.clock
  | .apply _ _ a =>
      match S.next d.hear.scan with
      | none => []
      | some (e, _) =>
          match e.verb with
          | .listen => tapOpened d.topo (topoOnEvent S T d a i.clock) e.name i.clock
          | .unlisten | .drop => [.closed e.name]
          | _ => []
  | _ => []

/-- What the trunk's verdict reads. -/
structure TrunkAsked where
  now : UInt64
  /-- The table calls the parent a trunk. -/
  trunk : Bool
  tap : Option TopoTap
  deriving DecidableEq, Repr

def trunkAsked (t : Topo τ m) (parent : String) (now : UInt64) : TrunkAsked :=
  { now := now, trunk := T.isTrunk t.table parent, tap := t.tapOf parent }

/-- The wire a step handed over, to be served by the event it queued. -/
def handedOver (d : Trunks σ τ n m) (i : TrunkInput n m) : Option String :=
  match i.act with
  | .hunt name =>
      if S.state d.hear.scan name ≠ .segment ∧
        S.state (trunkStep S speed T windowNs d i).hear.scan name = .segment
      then some name
      else none
  | _ => none

/-- Where a poll serves a wire again without asking the trunk's verdict: on what a box's
mastering says, and on what a kept sniffer says. -/
def reserves (d : Trunks σ τ n m) (act : TrunkAct n m) : Option String :=
  match act with
  | .hear (.join i _ _) _ =>
      if joinApplies (d.hear.listeners i) then (d.hear.listeners i).cfg.source else none
  | .hear (.yield v now) _ =>
      match hearingListener d.hear v.name with
      | none => none
      | some i =>
          if hearingYieldAct v.staleNs (d.hear.listeners i) v.sniffer now v.hunt.verdict = .stand
          then none
          else some v.name
  | _ => none

/-- The wire that a popped event serves. -/
def servesEvent (d : Trunks σ τ n m) (act : TrunkAct n m) : Option String :=
  match act with
  | .apply _ _ _ =>
      match S.next d.hear.scan with
      | none => none
      | some (e, _) =>
          if e.verb = .serve ∧ d.hear.ignored e.name = false ∧
            hearingListener d.hear e.name = none
          then some e.name
          else none
  | _ => none

/-- What became of the taps, and what the hunt that last handed a wire over had asked. -/
structure TrunkHistory where
  log : List TapLog := []
  handed : String → Option TrunkAsked := fun _ => none

def TrunkHistory.hand (hist : TrunkHistory) (asked : String → TrunkAsked) :
    Option String → TrunkHistory
  | none => hist
  | some name => { hist with handed := Function.update hist.handed name (some (asked name)) }

/-- The hearing and its taps, step by step. -/
def trunkMachine : StepMachine (Trunks σ τ n m) (TrunkInput n m) (List TapLog) where
  step d i := (trunkStep S speed T windowNs d i, tapLog S T d i)

/-- The same, with what became of the taps and of the wires written down. -/
def loggedTrunkMachine :
    StepMachine (Trunks σ τ n m × TrunkHistory) (TrunkInput n m) (List TapLog) :=
  (trunkMachine S speed T windowNs).withHistory fun hist d i did =>
    { hist with log := hist.log ++ did }.hand (fun name => trunkAsked T d.topo name i.now)
      (handedOver S speed T windowNs d i)

end

/-! ### A turn of the timer, with its taps -/

/-- An act of a turn of the timer; its events come with what a tap's open answers, and the
trunks are not its to say. -/
def TrunkAct.ofHear {n m : Nat} (act : HearAct n) : Option (TrunkAct n m) :=
  if plain : act.plain = true then some (.hear act plain)
  else match act with
    | .hunt name _ => some (.hunt name)
    | _ => none

/-- What one turn finds: the hearing's own, the events it carries out and the netdevs its
end asks for. -/
structure TrunkTurn (n : Nat) where
  clock : UInt64
  now : UInt64
  hearing : TimerTurn n
  events : List (Option Hunt × ServeArgs n × WatchAnswers)
  made : List EnsureAnswer

/-- The turn's acts, in the source's order. -/
def trunkTurn {n m : Nat} (t : TrunkTurn n) : List (TrunkInput n m) :=
  let acts : List (TrunkAct n m) :=
    (timerTurn t.hearing).filterMap TrunkAct.ofHear ++
      t.events.map (fun e => .apply e.1 e.2.1 e.2.2) ++ [.topoApply t.made]
  acts.map fun act => { clock := t.clock, now := t.now, act := act }

/-! ### A small topology table -/

/-- The parents watched with the tagged REAC frames heard on each, the VLANs heard and what
is asked for; it retires nothing. -/
structure TopoRows where
  rows : List (String × Nat)
  vlans : List (String × Nat)
  queue : List TopoEvent
  deriving DecidableEq, Repr

def TopoRows.tagged (t : TopoRows) (parent : String) : Nat := (t.rows.lookup parent).getD 0

/-- A tag names a VLAN whatever it carries, and a fresh one is asked for once. -/
def TopoRows.saw (t : TopoRows) (parent : String) (kind : TopoKind) (vid : Nat) : TopoRows :=
  if (t.rows.lookup parent).isNone || !(kind == .tagged || kind == .taggedOther) then t
  else
    let t :=
      if kind == .tagged then { t with rows := (parent, t.tagged parent + 1) :: t.rows } else t
    if t.vlans.contains (parent, vid) then t
    else
      { t with
        vlans := (parent, vid) :: t.vlans
        queue := t.queue ++ [{ verb := .ensure, parent := parent, vid := vid }] }

def topoRows : TopoApi TopoRows where
  found t parent := (t.rows.lookup parent).isSome
  tagged := TopoRows.tagged
  isTrunk t parent := decide (0 < t.tagged parent)
  watch t parent :=
    if (t.rows.lookup parent).isSome then (t, true)
    else ({ t with rows := (parent, 0) :: t.rows }, true)
  unwatch t parent _ :=
    { t with
      rows := t.rows.filter (·.1 != parent)
      vlans := t.vlans.filter (·.1 != parent) }
  saw t parent kind vid _ := t.saw parent kind vid
  untaggedOnTrunk t _ := (t, false)
  tick t _ := t
  next t := match t.queue with
    | [] => none
    | e :: rest => some (e, { t with queue := rest })
  ensured t _ _ _ := t
  ensureFailed t _ _ _ := t

/-- It is what the daemon relies on. -/
theorem topoRows_lawful : topoRows.Lawful where
  isTrunk_iff t parent := by
    show decide (0 < (t.rows.lookup parent).getD 0) = true ↔
      (t.rows.lookup parent).isSome = true ∧ 0 < (t.rows.lookup parent).getD 0
    cases t.rows.lookup parent <;> simp
  untaggedOnTrunk t parent _ := rfl
  tick t now _ := rfl
  next t e t' hnext parent := by
    cases hqueue : t.queue with
    | nil => exact absurd hnext (by simp [topoRows, hqueue])
    | cons first rest =>
        simp only [topoRows, hqueue, Option.some.injEq, Prod.mk.injEq] at hnext
        obtain ⟨-, rfl⟩ := hnext
        rfl
  ensured t parent vid minted _ := rfl
  ensureFailed t parent vid now _ := rfl

end ReacPw
