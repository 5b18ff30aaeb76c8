/-
What the hearing listens with: which interfaces have a sniffer and which a topology tap.

The interface table says when to listen to a wire and when to stop, and what it says is
carried out at the end of a poll (`hearing_apply`).  Others touch a sniffer by themselves: a
serve may close the one whose hunt it has read, and a segment whose verdict has gone stale is
given a fresh one as its wire is heard again (`listener_reopen_role_reclassify`,
`hearing_reevaluate`, `hearing_rehear_empty_masters`).

A hunt is its sniffer's: a wire without one asks for nothing, and its serve reads no verdict.
Whether a socket can be opened is an input.
-/
import ReacPw.HearingPoll
import ReacPw.KnockAnswer

namespace ReacPw

/-! ### What the interface table says as it moves -/

/-- How an interface moves in the table, and what is queued of it. -/
inductive IfTold : IfState → List IfVerb → IfState → Prop where
  | still (st : IfState) : IfTold st [] st
  | found : IfTold .absent [] .down
  | linked {st : IfState} (hout : st = .absent ∨ st = .down) : IfTold st [.listen] .linked
  | unlinked {st : IfState} (hout : st = .absent ∨ st = .down) : IfTold .linked [.unlisten] st
  | held : IfTold .segment [] .hold
  | kept : IfTold .hold [.kept] .segment
  | dropped {st st' : IfState} (hin : st = .segment ∨ st = .hold)
      (hout : st' = .absent ∨ st' = .down) : IfTold st [.drop] st'
  | left : IfTold .down [] .absent
  | andThen {st st' st'' : IfState} {verbs more : List IfVerb} (hfirst : IfTold st verbs st')
      (hrest : IfTold st' more st'') : IfTold st (verbs ++ more) st''

/-- What is queued about one interface. -/
def verbsOf (name : String) (events : List IfEvent) : List IfVerb :=
  (events.filter fun e => e.name == name).map (·.verb)

section
variable {σ : Type*} (S : IfScan σ)

/-- The table has moved, and every interface by its own steps. -/
def IfScan.Told (s s' : σ) : Prop :=
  ∃ extra, S.events s' = S.events s ++ extra ∧
    ∀ name, IfTold (S.state s name) (verbsOf name extra) (S.state s' name)

/-- No interface moves without a word: none that a full queue lost, as in `IfScan.Lawful`. -/
structure IfScan.Voiced : Prop where
  gone : ∀ s name now, S.Told s (S.gone s name now)
  tick : ∀ s now, S.Told s (S.tick s now)
  drain : ∀ s bytes now, S.Told s (S.drain s bytes now)
  /-- What is taken out of SEGMENT is to be listened to. -/
  serveFailed : ∀ s name now,
    (S.state (S.serveFailed s name now) name = S.state s name ∧
      S.events (S.serveFailed s name now) = S.events s) ∨
    ((S.state s name = .segment ∨ S.state s name = .hold) ∧
      S.state (S.serveFailed s name now) name = .linked ∧
      S.events (S.serveFailed s name now) = S.events s ++ [⟨.listen, name⟩])

/-- The table as its first dump of the interfaces leaves it. -/
def IfScan.Dumped (s : σ) : Prop :=
  ∀ name, IfTold .absent (verbsOf name (S.events s)) (S.state s name)

end

/-! ### The sniffers and the taps -/

structure Listening (σ : Type*) (n : Nat) where
  table : Hearing σ n
  sniffed : String → Bool
  tapped : String → Bool

/-- An act, with what the world answers to the ears it opens. -/
structure ListenInput (n : Nat) where
  act : HearAct n
  sniffOpens : Bool
  tapOpens : Bool
  /-- The conf pinned the sniffer's hunt. -/
  pinned : Bool

section
variable {σ : Type*} {n : Nat} (S : IfScan σ) (speed : String → Nat)

/-- The wire that an act hears again on a fresh sniffer. -/
def rehearsOn (h : Hearing σ n) : HearAct n → Option String
  | .slotTick i ifaceLost a =>
      match slotAsked h i ifaceLost a with
      | .reclassify _ => some ((h.listeners i).cfg.source.getD "")
      | _ => none
  | .reevaluate i _ =>
      if followApplies (h.listeners i) then (h.listeners i).cfg.source else none
  | .rehearEmpty i now obs =>
      if (rehearEmptyMaster (h.listeners i) now obs).2 then
        some ((h.listeners i).cfg.source.getD "")
      else none
  | _ => none

namespace Listening

/-- The hunt's own acts are its sniffer's. -/
def hasHunt (L : Listening σ n) : HearAct n → Bool
  | .hunt name _ => L.sniffed name
  | .yield v _ => L.sniffed v.name
  | _ => true

/-- What a popped event does to the ears of its interface. -/
def onEvent (L : Listening σ n) (e : IfEvent) (hunt : Option Hunt) (x : ListenInput n) :
    Listening σ n :=
  match e.verb with
  | .listen =>
      -- an ignored segment is never touched
      if L.table.ignored e.name then L
      else { L with
        sniffed := Function.update L.sniffed e.name (L.sniffed e.name || x.sniffOpens)
        tapped := Function.update L.tapped e.name (L.tapped e.name || x.tapOpens) }
  | .unlisten | .drop => { L with
      sniffed := Function.update L.sniffed e.name false
      tapped := Function.update L.tapped e.name false }
  | .serve =>
      if L.table.ignored e.name then L
      else
        let keep := hunt.any fun w => reacWatchKeep w.verdict x.pinned
        { L with sniffed := Function.update L.sniffed e.name (L.sniffed e.name && keep) }
  | .kept => L

/-- The event that an act carries out. -/
def popped (L : Listening σ n) : HearAct n → Option (IfEvent × Option Hunt)
  | .apply hunt _ => (S.next L.table.scan).map fun p => (p.1, hunt)
  | _ => none

/-- A serve reads the verdict of the sniffer that is there. -/
def seenBy (L : Listening σ n) : HearAct n → HearAct n
  | .apply hunt s =>
      .apply (hunt.filter fun _ => (S.next L.table.scan).any fun p => L.sniffed p.1.name) s
  | act => act

/-- What an act does to the ears. -/
def ears (L : Listening σ n) (x : ListenInput n) : Listening σ n :=
  match L.popped S x.act with
  | some (e, hunt) => L.onEvent e hunt x
  | none =>
      match rehearsOn L.table x.act with
      | some name => { L with sniffed := Function.update L.sniffed name x.sniffOpens }
      | none => L

end Listening

/-- One act of the daemon, with what it listens with. -/
def listenStep (L : Listening σ n) (x : ListenInput n) : Listening σ n :=
  if !L.hasHunt x.act then L
  else { L.ears S x with table := hearStep S speed L.table (L.seenBy S x.act) }

def listenMachine : StepMachine (Listening σ n) (ListenInput n) Unit where
  step L x := (listenStep S speed L x, ())

end

end ReacPw
