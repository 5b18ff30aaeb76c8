/-
What the operator's file says of one segment, and who reads it.

A listener's configuration starts from the file's section for its interface
(`listener_cfg_from_conf`), and so do the two pins of its sniffer (`segment_role_pin`,
`segment_tap_pin`).  `tap` is a pin of its own: it names no end of the pairing, so it pins
no wire role.

Which wire role an intent is, and whether a box's model is in the catalogue, are the
library's to say.  The other keys of a segment decide nothing that is modelled.
-/
import ReacPw.Hearing
import ReacPw.KnockHands
import ReacPw.RosterTables

namespace ReacPw

/-- `reac_segconf_model`. -/
def reacSegconfModel (c : Segconf) (name : Text) : Option Text :=
  (reacSegconfFind c name).bind fun s => if s.modelSet then some s.model else none

section
variable (fromIntent : RoleIntent → ReacRole) (inCatalogue : Text → Bool)

/-- The role as the file has it; without one the segment is the hunt's. -/
def cfgOnIntent (cfg : ListenerCfg) : Option RoleIntent → ListenerCfg
  | none => cfg
  | some i => { cfg with role := fromIntent i, rolePinned := i != .auto, tap := i == .tap }

/-- `role = box` presents a row of the catalogue; without one the segment stays on the hunt. -/
def cfgOnBox (cfg : ListenerCfg) (model : Option Text) : ListenerCfg :=
  if model.any inCatalogue then { cfg with boxModel := true }
  else { cfg with rolePinned := false, role := .master }

/-- `listener_cfg_from_conf`; `tx` is what the layers answer for `REAC_TX`. -/
def listenerCfgFromConf (c : Segconf) (iface : String) (tx : Option String) : ListenerCfg :=
  let intent := reacSegconfRole c (txt iface)
  let cfg := cfgOnIntent fromIntent { ListenerCfg.zeroed with
    source := some iface, live := true, txIf := some (tx.getD iface) } intent
  if intent = some .box then cfgOnBox inCatalogue cfg (reacSegconfModel c (txt iface)) else cfg

/-- `segment_role_pin`. -/
def segmentRolePin (c : Segconf) (iface : String) : Option ReacRole :=
  match reacSegconfRole c (txt iface) with
  | none | some .auto | some .tap => none
  | some i => some (fromIntent i)

/-- `segment_tap_pin`. -/
def segmentTapPin (c : Segconf) (iface : String) : Bool :=
  reacSegconfRole c (txt iface) == some .tap

/-- The pins a sniffer is opened with. -/
def segmentListen (c : Segconf) (iface : String) (wireless : Bool) (src : List UInt8)
    (fps now : Nat) : ListenAs where
  pinned := (segmentRolePin fromIntent c iface).isSome
  tapPinned := segmentTapPin c iface
  wireless := wireless
  src := src
  fps := fps
  now := now

end

end ReacPw
