/-
What a roster tick finds (`roster_collect`): the segments the conf switched off, those with
an engine, and the wires that are listened to and have decided nothing.

The three come from tables of their own, added one after another.  The conf is read again
at every sniffed wire, so it may change between two rows.

An interface name is a text of the conf and of the tables both; the conf here comes with
the names its sections spell.  The box rows and the wires' counters are what the tick is
shown.
-/
import ReacPw.Autodetect
import ReacPw.KnockWire
import ReacPw.Listener
import ReacPw.RosterNode
import ReacPw.Segconf

namespace ReacPw

/-! ### The conf's answers -/

/-- The role a segment is pinned to (`reac_segconf_role`). -/
def reacSegconfRole (c : Segconf) (name : Text) : Option RoleIntent :=
  (reacSegconfFind c name).bind fun s => if s.roleSet then some s.role else none

def reacSegconfRoleFile (c : Segconf) (name : Text) : Option Text :=
  (reacSegconfFind c name).bind fun s =>
    if s.roleSet ∧ s.roleFile ≠ [] then some s.roleFile else none

def reacSegconfIgnoreFile (c : Segconf) (name : Text) : Option Text :=
  (reacSegconfFind c name).bind fun s =>
    if s.ignoreSet ∧ s.ignoreFile ≠ [] then some s.ignoreFile else none

/-- A configuration, with the interface names its sections spell. -/
structure RosterConf where
  conf : Segconf
  names : List IfName
  spelled : conf.seg.map (·.name) = names.map (·.text.toList)
  once : names.Nodup
  named : ∀ n ∈ names, n.text ≠ ""
  /-- `role_file` and `ignore_file` hold their labels. -/
  fits : ∀ s ∈ conf.seg,
    s.roleFile.length < reacSegconfFileLen ∧ s.ignoreFile.length < reacSegconfFileLen

def RosterConf.roleFile (c : RosterConf) (n : IfName) : Option Text :=
  reacSegconfRoleFile c.conf n.text.toList

def RosterConf.ignoreFile (c : RosterConf) (n : IfName) : Option Text :=
  reacSegconfIgnoreFile c.conf n.text.toList

def RosterConf.role (c : RosterConf) (n : IfName) : RoleIntent :=
  (reacSegconfRole c.conf n.text.toList).getD .auto

/-- Each section with its name. -/
def RosterConf.sections (c : RosterConf) : List (IfName × SegconfSeg) := c.names.zip c.conf.seg

/-- A row's word for the file that decided it. -/
def sourceText : Option Text → String
  | some f => clip 112 ("conf:" ++ String.ofList f)
  | none => "autodetected"

/-- The file that pinned the role, or the one that spoke of `ignore`, or neither. -/
def rosterSource (c : RosterConf) (seg : IfName) : String :=
  sourceText ((c.roleFile seg).or (c.ignoreFile seg))

def reacRoleName : ReacRole → String
  | .master => "master"
  | .slave => "slave"

def reacRoleIntentName : RoleIntent → String
  | .auto => "auto"
  | .master => "master"
  | .slave => "slave"
  | .tap => "tap"
  | .box => "box"

/-! ### The tables -/

/-- A listener, as far as its row goes. -/
structure RosterListener where
  opened : Bool
  /-- `rxcfg.source`. -/
  source : Option IfName
  ifaceBuf : IfName
  instName : IfName
  tap : Bool
  doorOnly : Bool
  doorVacant : Bool
  joinBoxMaster : Bool
  role : ReacRole
  boxModel : Option BoxRow
  /-- The box its sink recognised; a listener without a sink has none. -/
  recognized : Option BoxRow
  pinModel : Option BoxRow
  wireChannels : Int
  rolePinned : Bool
  knockAnswered : Bool
  deriving DecidableEq

/-- The interface it serves (`roster_seg_name`). -/
def rosterSegName (L : RosterListener) : IfName :=
  match L.source with
  | some source =>
      if source.text ≠ "" then source
      else if L.ifaceBuf.text ≠ "" then L.ifaceBuf else L.instName
  | none => if L.ifaceBuf.text ≠ "" then L.ifaceBuf else L.instName

/-- What the listener's engine is doing. -/
def RosterListener.state (L : RosterListener) : RosterState :=
  if L.tap then .tap
  else if L.doorOnly && !L.doorVacant then .refused
  else if L.boxModel.isSome then .slave
  else if L.role == .slave || L.joinBoxMaster then .slave
  else if L.recognized.isSome then .established
  else .probing

def RosterListener.roleSaid (L : RosterListener) : String :=
  if L.tap then "tap"
  else if L.doorOnly && !L.doorVacant then reacRoleName L.role
  else if L.boxModel.isSome then reacRoleIntentName .box
  else if L.role == .slave || L.joinBoxMaster then "slave"
  else "master"

/-- The row a listener's pair is sized from: declared, recognised or pinned. -/
def RosterListener.box (L : RosterListener) : Option BoxRow :=
  (L.boxModel.or L.recognized).or L.pinModel

/-- The inputs and outputs; a stream without a box is as wide as its wire. -/
def RosterListener.width (L : RosterListener) : Int × Int :=
  match L.box with
  | some row => (row.inCh, row.outCh)
  | none => (if L.state = .slave ∨ L.state = .tap then L.wireChannels else 0, 0)

def reacRosterProbingSaid (pinned answered : Bool) : String :=
  if answered then "a box answered the knock: the master is running and enrolling it"
  else if pinned then "master pinned in the conf: streaming on link, no box enrolled yet"
  else "the master is running and no box is enrolled yet"

/-- A sniffed wire, as far as its row goes; a free slot has no name. -/
structure RosterSniffer where
  name : IfName
  knock : KnockWireState
  cycles : Nat
  sent : Nat
  /-- The PHY edges of its wake ladder. -/
  edges : Nat
  /-- The host's own NIC. -/
  host : Bool
  /-- REAC was heard on it. -/
  heard : Bool
  deriving DecidableEq

def RosterSniffer.state (s : RosterSniffer) : RosterState :=
  match s.knock with
  | .trunk => .trunk
  | .knocking => .knocking
  | _ => .listening

def RosterSniffer.said (s : RosterSniffer) : String :=
  match s.knock with
  | .trunk => ""
  | .knocking =>
      "nothing heard: knock " ++ toString s.cycles ++ ", " ++ toString s.sent ++
        " control frames, no filler, " ++ toString s.edges ++ " edges" ++
        (if s.host then "; the host's NIC: no edge" else "")
  | .answered => "something answered the knock: listening to it before the master starts"
  | .listening =>
      if s.heard then "REAC heard here: listening until the wire says who masters it" else ""

structure RosterTables where
  conf : RosterConf
  /-- The conf as each sniffed wire's lookup finds it, while it changes. -/
  rereads : List RosterConf
  listeners : List RosterListener
  hearing : Bool
  sniffers : List RosterSniffer

/-! ### What is found -/

def ignoredFound (c : RosterConf) (seg : IfName × SegconfSeg) : RosterFound :=
  { name := seg.1, state := .ignored, model := "", role := reacRoleIntentName (c.role seg.1),
    source := rosterSource c seg.1, in_ := 0, out := 0, said := "" }

/-- The segments the conf switched off. -/
def RosterConf.ignored (c : RosterConf) : List (IfName × SegconfSeg) :=
  c.sections.filter (·.2.ignore)

def listenerFound (c : RosterConf) (L : RosterListener) : RosterFound :=
  { name := rosterSegName L, state := L.state,
    model := (L.box.map fun row => String.ofList row.token).getD "", role := L.roleSaid,
    source := rosterSource c (rosterSegName L), in_ := L.width.1, out := L.width.2,
    said := if L.state = .probing then reacRosterProbingSaid L.rolePinned L.knockAnswered else "" }

/-- The segments with an engine. -/
def RosterTables.served (t : RosterTables) : List RosterListener :=
  t.listeners.filter fun L => L.opened && decide ((rosterSegName L).text ≠ "")

/-- An opened listener serves the interface (`hearing_listener`). -/
def rosterHearingListener (listeners : List RosterListener) (name : IfName) : Bool :=
  listeners.any fun L => L.opened && L.source == some name

def snifferFound (c read : RosterConf) (s : RosterSniffer) : RosterFound :=
  { name := s.name, state := s.state, model := "", role := reacRoleIntentName (read.role s.name),
    source := rosterSource c s.name, in_ := 0, out := 0, said := s.said }

/-- The wires that are listened to and not served, each with the conf its source was taken
from and the conf its role was then read from. -/
def sniffed (listeners : List RosterListener) :
    RosterConf → List RosterConf → List RosterSniffer → List (RosterSniffer × RosterConf × RosterConf)
  | _, _, [] => []
  | c, rereads, s :: rest =>
      if s.name.text = "" ∨ rosterHearingListener listeners s.name = true then
        sniffed listeners c rereads rest
      else
        (s, c, rereads.headD c) :: sniffed listeners (rereads.headD c) rereads.tail rest

def RosterTables.sniffed (t : RosterTables) : List (RosterSniffer × RosterConf × RosterConf) :=
  if t.hearing then ReacPw.sniffed t.listeners t.conf t.rereads t.sniffers else []

def RosterTables.found (t : RosterTables) : List RosterFound :=
  t.conf.ignored.map (ignoredFound t.conf) ++ t.served.map (listenerFound t.conf) ++
    t.sniffed.map fun s => snifferFound s.2.1 s.2.2 s.1

/-- How many adds of a tick are refused. -/
def rosterRefused : Roster → List RosterFound → Nat
  | _, [] => 0
  | r, f :: rest =>
      (if (reacRosterAdd r f.name f.state f.model f.role f.source f.in_ f.out).2 then 0 else 1) +
        rosterRefused (rosterCollectOne r f) rest

/-- `roster_collect`, and how many adds it counted as refused. -/
def rosterCollectTables (r : Roster) (t : RosterTables) : Roster × Nat :=
  (rosterCollect r t.found, rosterRefused (reacRosterBegin r) t.found)

end ReacPw
