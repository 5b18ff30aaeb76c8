/-
The daemon around its tables: the links it takes down and up, the knock's ladders,
and its end.

Two drivers make PHY edges.  A master's runs on its listener's timer and keeps its
edge in flight in the listener's autodetect context; the knock's runs on the
hearing's poll and keeps its own in a ladder of the interface's name, which no
close of a listener touches.  The administrative state of the links is the
kernel's, as the daemon's own writes leave it.

How many ladders there are is a library's constant, and a parameter here.
-/
import ReacPw.Hearing

namespace ReacPw

/-- The daemon's tables and the links it has taken down. -/
structure Daemon (σ : Type*) (n : Nat) where
  hear : Hearing σ n
  /-- The ladders in use, each under its interface's name. -/
  ladders : List KnockLadder
  ladderPolls : UInt32
  down : String → Bool

/-- One write's effect on the link's administrative state. -/
def linkAdmin (name : String) (down : String → Bool) (w : LinkWrite) : String → Bool :=
  if w.ok then Function.update down name (!w.up) else down

def linkWrites (name : String) (down : String → Bool) (writes : List LinkWrite) :
    String → Bool :=
  writes.foldl (linkAdmin name) down

/-! ### The knock's ladders -/

/-- Every ladder's edge whose time has come is finished. -/
def laddersFinish (now : Nat) (upOk : String → Bool) :
    List KnockLadder → (String → Bool) → List KnockLadder × (String → Bool)
  | [], down => ([], down)
  | kl :: rest, down =>
      let fin := knockFinish kl now (upOk kl.name)
      let more := laddersFinish now upOk rest (linkWrites kl.name down fin.2)
      (fin.1 :: more.1, more.2)

/-- An interface's ladder (`knock_ladder_of`): its own, or a free one, if there is one. -/
def knockLadderOf (maxLadders : Nat) (ladders : List KnockLadder) (name : String) :
    Option KnockLadder :=
  match ladders.find? fun kl => kl.name == name with
  | some kl => some kl
  | none => if ladders.length < maxLadders then some (.blank name) else none

/-- The ladder put back in its slot, or taken into use. -/
def putLadder : List KnockLadder → KnockLadder → List KnockLadder
  | [], kl => [kl]
  | k :: rest, kl => if k.name == kl.name then kl :: rest else k :: putLadder rest kl

/-- The body of the loop over the sniffers. -/
def knockSniffer (maxLadders now : Nat) (s : List KnockLadder × (String → Bool))
    (sn : KnockSniff) : List KnockLadder × (String → Bool) :=
  if sn.name = "" then s
  else match knockLadderOf maxLadders s.1 sn.name with
    | none => s
    | some kl =>
        let r := knockTurn kl sn now
        (putLadder s.1 r.1, linkWrites sn.name s.2 r.2.writes)

/-- One poll of the knock's driver: its clock, the kernel's answers to the links brought
back up, and the sniffers whose wires are being knocked on. -/
structure LadderPoll where
  now : Nat
  upOk : String → Bool
  sniffs : List KnockSniff

section
variable {σ : Type*} {n : Nat} (maxLadders : Nat)

/-- `hearing_knock_wake`, which a poll of a hearing that does not run leaves out. -/
def hearingKnockWake (d : Daemon σ n) (p : LadderPoll) : Daemon σ n :=
  if !d.hear.enabled then d
  else
    let fin := laddersFinish p.now p.upOk d.ladders d.down
    let polls := d.ladderPolls + 1
    let r := if ladderPollsDue polls then
        p.sniffs.foldl (knockSniffer maxLadders p.now) fin
      else fin
    { d with ladders := r.1, ladderPolls := polls, down := r.2 }

/-- A master's timer, as far as its wake ladder goes (`wake_step`). -/
def listenerTimer (d : Daemon σ n) (i : Fin n) (t : WakeTurn) : Daemon σ n :=
  let L := d.hear.listeners i
  if !(L.opened && L.adTimer) then d
  else
    let r := wakeStep L.adc t
    { d with
      hear := d.hear.setSlot i { L with adc := r.1 }
      down := linkWrites L.adc.ifname d.down r.2.writes }

/-- A clean end: the hearing stops, and every listener still open is closed. -/
def daemonStop (d : Daemon σ n) : Daemon σ n :=
  { d with
    hear := { d.hear with
      enabled := false
      listeners := fun i =>
        if (d.hear.listeners i).opened then listenerClose (d.hear.listeners i)
        else d.hear.listeners i } }

/-- What happens to the daemon. -/
inductive DaemonAct (n : Nat) where
  | timer (i : Fin n) (t : WakeTurn)
  | poll (p : LadderPoll)
  | table (act : TableAct n)

variable (S : IfScan σ) (speed : String → Nat)

def daemonStep (d : Daemon σ n) : DaemonAct n → Daemon σ n
  | .timer i t => listenerTimer d i t
  | .poll p => hearingKnockWake maxLadders d p
  | .table act => { d with hear := tableStep S speed d.hear act }

/-- The daemon as a machine. -/
def daemonMachine : StepMachine (Daemon σ n) (DaemonAct n) Unit where
  step d act := (daemonStep maxLadders S speed d act, ())

end

end ReacPw
