/-
The segment roster (`reac_roster`): every segment the daemon runs, as one node's
properties, and the delta that keeps it there.

Each tick derives the wanted rows afresh, in byte order of their names, and the
delta against the rows last published is what has to be set or removed.  The rows
published move only by a commit, after the node took the delta, or by a forget,
when the node is gone.

A segment's name is an interface name, so it fits `IFNAMSIZ`; the type says so.
Other texts are cut to the size of their field as `snprintf` cuts them, one byte a
character.
-/
import Mathlib.Data.String.Basic
import ReacPw.Lib.PropMap
import ReacPw.LinkBudget

namespace ReacPw

/-- An interface name: it fits its buffer with the terminator. -/
structure IfName where
  text : String
  fits : text.utf8ByteSize < ifnamsiz
  deriving DecidableEq

def reacRosterMax : Nat := 32

def reacRosterFields : Nat := 7

def reacRosterKvMax : Nat := 1 + reacRosterMax * reacRosterFields

/-- What `snprintf` leaves in a buffer of `cap` bytes. -/
def clip (cap : Nat) (s : String) : String := String.ofList (s.toList.take (cap - 1))

/-- What a segment is doing. -/
inductive RosterState where
  | probing
  | established
  | slave
  | tap
  | refused
  | ignored
  | listening
  | knocking
  | trunk
  deriving DecidableEq, Repr

def reacRosterStateName : RosterState → String
  | .probing => "probing"
  | .established => "established"
  | .slave => "slave"
  | .tap => "tap"
  | .refused => "refused"
  | .ignored => "ignored"
  | .listening => "listening"
  | .knocking => "knocking"
  | .trunk => "trunk"

/-- The sentence a state says when nobody said more. -/
def reacRosterStateSaid : RosterState → String
  | .listening => "listening: nothing heard here yet, and nothing is sent"
  | .knocking =>
      "nothing heard here: knocking for a box now and then, inside a declared budget"
  | .trunk =>
      "a trunk: its VLANs carry the boxes and are the segments; nothing is sent here"
  | .probing => "the master is running and no box is enrolled yet"
  | .established => "box enrolled: the master is running and its audio is on the graph"
  | .slave => "following the master on this wire"
  | .tap => "a desk masters this wire: listening to it and sending nothing"
  | .refused => "refused: this wire is not served; the journal says why and what to change"
  | .ignored => "switched off in the conf: never listened to, never sent on"

structure RosterSeg where
  name : IfName
  state : RosterState
  model : String
  role : String
  source : String
  in_ : Int
  out : Int
  /-- Empty for the state's own sentence. -/
  status : String
  deriving DecidableEq

structure Roster where
  /-- What the node currently carries. -/
  pub : List RosterSeg
  /-- What this tick derived. -/
  want : List RosterSeg
  /-- Adds past the bound. -/
  overflow : Nat

def reacRosterInit : Roster := { pub := [], want := [], overflow := 0 }

/-- Start a tick's roster. -/
def reacRosterBegin (r : Roster) : Roster := { r with want := [], overflow := 0 }

/-- The row placed in byte order of its name, unless its name is there already. -/
def rosterInsert (s : RosterSeg) : List RosterSeg → Option (List RosterSeg)
  | [] => some [s]
  | w :: rest =>
      if w.name.text = s.name.text then none
      else if s.name.text < w.name.text then some (s :: w :: rest)
      else (rosterInsert s rest).map (w :: ·)

/-- A text, or the word for an absent one. -/
def orElse (word s : String) : String := if s = "" then word else s

/-- A row as it is filled in; an absent model says so. -/
def rosterRow (name : IfName) (state : RosterState) (model role source : String)
    (in_ out : Int) : RosterSeg :=
  { name := name, state := state, model := clip 32 (orElse "none" model),
    role := clip 16 (orElse "auto" role), source := clip 112 (orElse "autodetected" source),
    in_ := in_, out := out, status := "" }

/-- One segment added to this tick's roster, and whether it was. -/
def reacRosterAdd (r : Roster) (name : IfName) (state : RosterState)
    (model role source : String) (in_ out : Int) : Roster × Bool :=
  if name.text = "" then (r, false)
  else if reacRosterMax ≤ r.want.length then ({ r with overflow := r.overflow + 1 }, false)
  else match rosterInsert (rosterRow name state model role source in_ out) r.want with
    | none => (r, false)
    | some want => ({ r with want := want }, true)

/-- What this tick found on `name`, over the state's own sentence. -/
def reacRosterStatus (r : Roster) (name : IfName) (status : String) : Roster :=
  { r with want := r.want.map fun w =>
      if w.name = name then { w with status := clip 112 status } else w }

/-! ### The delta -/

inductive RosterField where
  | name
  | state
  | model
  | role
  | source
  | width
  | status
  deriving DecidableEq, Repr

/-- Field order is key order. -/
def RosterField.all : List RosterField := [.name, .state, .model, .role, .source, .width, .status]

def fieldKey : RosterField → String
  | .name => "name"
  | .state => "state"
  | .model => "model"
  | .role => "role"
  | .source => "source"
  | .width => "width"
  | .status => "status"

/-- One field of one segment, as the string the property carries. -/
def fieldVal (s : RosterSeg) : RosterField → String
  | .name => s.name.text
  | .state => reacRosterStateName s.state
  | .model => s.model
  | .role => s.role
  | .source => s.source
  | .width => toString s.in_ ++ "/" ++ toString s.out
  | .status => if s.status = "" then reacRosterStateSaid s.state else s.status

/-- One property to set, or to remove. -/
structure RosterKv where
  key : String
  val : String
  remove : Bool
  deriving DecidableEq, Repr

def rosterCountKey : String := "reac.roster.n"

def rosterKey (i : Nat) (f : RosterField) : String :=
  PropMap.groupKey "reac.roster." i (fieldKey f)

/-- The fields of the row at `i` that differ from the one published there. -/
def rowDelta (i : Nat) (w : RosterSeg) (p : Option RosterSeg) : List RosterKv :=
  RosterField.all.filterMap fun f =>
    if p.map (fieldVal · f) = some (fieldVal w f) then none
    else some { key := rosterKey i f, val := fieldVal w f, remove := false }

/-- The groups from `i` on that left, key by key. -/
def rowRemovals (i : Nat) : List RosterKv :=
  RosterField.all.map fun f => { key := rosterKey i f, val := "", remove := true }

/-- Everything that moved. -/
def rosterMoved (r : Roster) : List RosterKv :=
  (if r.want.length ≠ r.pub.length then
    [{ key := rosterCountKey, val := toString r.want.length, remove := false }] else []) ++
  (r.want.zipIdx.flatMap fun wi => rowDelta wi.2 wi.1 r.pub[wi.2]?) ++
  ((List.range' r.want.length (r.pub.length - r.want.length)).flatMap rowRemovals)

/-- What moved, or `none` when it does not fit: refused, never truncated. -/
def reacRosterDelta (r : Roster) (max : Nat) : Option (List RosterKv) :=
  if max < (rosterMoved r).length then none else some (rosterMoved r)

/-- Whether this tick's delta would contain a removal. -/
def reacRosterShrank (r : Roster) : Bool := r.want.length < r.pub.length

/-- The node is gone and a fresh one carries nothing. -/
def reacRosterForget (r : Roster) : Roster := { r with pub := [] }

/-- The delta was published. -/
def reacRosterCommit (r : Roster) : Roster := { r with pub := r.want }

end ReacPw
