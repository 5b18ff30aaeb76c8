/-
The mark on the interfaces that are served (`reac_served_mark`).

An interface a segment comes up on is marked by its alias, unless the host has named it or
it is a VLAN the host made; a mark an earlier run left behind is taken over.  What was
marked or taken over is remembered in a record of a fixed size, and a clean exit clears
the mark of everything in the record that still carries it.

The kernel answers every read and every write; the host edits kinds and aliases between
two calls as it likes.  An alias is no longer than the buffer it is read into, as the
kernel bounds it.  The journal's lines are not modelled.
-/
import Mathlib.Logic.Function.Basic
import ReacPw.Lib.Run
import ReacPw.Segconf

namespace ReacPw

/-- `REAC_ALIAS_PREFIX`. -/
def reacAliasPrefix : Text := txt "reac-pw:"

/-- `REAC_SERVED_ALIAS`. -/
def reacServedAlias : Text := txt "reac-pw:served"

/-- `REAC_SERVED_MAX`. -/
def reacServedMax : Nat := 32

inductive ServedVerdict where
  | mark
  | ours
  | leaveVlan
  | leaveHost
  deriving DecidableEq, Repr

def reacServedDecide (kind ifalias : Text) : ServedVerdict :=
  if ifalias ≠ [] then
    if reacAliasPrefix.isPrefixOf ifalias then .ours else .leaveHost
  else if kind = txt "vlan" then .leaveVlan
  else .mark

/-- What the host's interfaces are, by name. -/
structure Links where
  kind : Text → Text
  ifalias : Text → Text

/-- `reac_link_alias_write`. -/
def Links.write (w : Links) (name ifalias : Text) : Links :=
  { w with ifalias := Function.update w.ifalias name ifalias }

/-- `struct reac_served_marks`. -/
structure ServedMarks where
  name : List Text := []
  deriving DecidableEq, Repr

def remember (m : ServedMarks) (ifname : Text) : ServedMarks :=
  if m.name.contains ifname then m
  else if reacServedMax ≤ m.name.length then m
  else { m with name := m.name ++ [clipped ifnamsiz ifname] }

/-- `reac_served_mark`; an empty name has no verdict. -/
def reacServedMark (w : Links) (m : ServedMarks) (ifname : Text) :
    (Links × ServedMarks) × Option ServedVerdict :=
  if ifname = [] then ((w, m), none)
  else
    let ifalias := w.ifalias ifname
    match reacServedDecide (w.kind ifname) ifalias with
    | .mark => ((w.write ifname reacServedAlias, remember m ifname), some .mark)
    | .ours =>
        -- a mark an earlier run left behind is ours to take away
        ((w, if ifalias = reacServedAlias then remember m ifname else m), some .ours)
    | v => ((w, m), some v)

/-- One entry of the record, at the exit. -/
def unmark (w : Links) (name : Text) : Links :=
  if w.ifalias name = reacServedAlias then w.write name [] else w

def reacServedUnmarkAll (w : Links) (m : ServedMarks) : Links × ServedMarks :=
  (m.name.foldl unmark w, {})

/-! ### Runs -/

/-- An interface's name, as the kernel bounds it. -/
structure LinkName where
  text : Text
  nonempty : text ≠ []
  fits : text.length < ifnamsiz

inductive MarkCall where
  | mark (ifname : LinkName)
  /-- The host gives an interface a kind and an alias. -/
  | host (name kind ifalias : Text)

def markMachine : StepMachine (Links × ServedMarks) MarkCall (Option ServedVerdict) where
  step s
    | .mark ifname => reacServedMark s.1 s.2 ifname.text
    | .host name kind ifalias =>
        (({ s.1 with kind := Function.update s.1.kind name kind }.write name ifalias, s.2), none)

/-- The interfaces the run marked or found marked when it served them, in that order. -/
def noteServed (served : List Text) (s : Links × ServedMarks) :
    MarkCall → Option ServedVerdict → List Text
  | .mark ifname, some v =>
      if (v = .mark ∨ v = .ours ∧ s.1.ifalias ifname.text = reacServedAlias) ∧
          !served.contains ifname.text then
        served ++ [ifname.text]
      else served
  | _, _ => served

/-- The calls with the interfaces served beside them. -/
def servedMachine :
    StepMachine ((Links × ServedMarks) × List Text) MarkCall (Option ServedVerdict) :=
  markMachine.withHistory noteServed

end ReacPw
