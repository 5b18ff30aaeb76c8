/-
What a REAC stream costs a physical link (`reac_link_budget`), and which port an
interface puts it on (`link_port_of`).

The cost is in kbit/s, with Ethernet's own bytes beside the frame counted.  A
link whose speed is unknown is not a full one: it fits everything.

A VLAN's child name ends in its VID, `parent.vid`, and its port is the parent's;
any other name is its own port.
-/
import ReacPw.Lib.Decimal

namespace ReacPw

def reacFrameBytes : Nat := 1492

def reacSamplesPerPkt : Nat := 12

/-- Ethernet's cost beside the frame: the preamble, the FCS and the interframe gap. -/
def reacLinkWireOverheadBytes : Nat := 24

def reacLinkBudgetNum : Nat := 100

def reacLinkBudgetDen : Nat := 100

/-- What a stream of `pps` frames costs on the wire, in kbit/s. -/
def reacLinkCostKbit (pps frameBytes : Nat) : Nat :=
  if pps = 0 ∨ frameBytes = 0 then 0
  else pps * (frameBytes + reacLinkWireOverheadBytes) * 8 / 1000

/-- The packet rate of a master's downstream. -/
def reacLinkMasterPps (sampleRate : Nat) : Nat := sampleRate / reacSamplesPerPkt

/-- What a link of that speed carries, in kbit/s. -/
def linkCapKbit (linkMbit : Nat) : Nat :=
  linkMbit * 1000 * reacLinkBudgetNum / reacLinkBudgetDen

/-- Whether a new stream fits on a link that has already committed `usedKbit`. -/
def reacLinkBudgetFits (linkMbit usedKbit wantKbit : Nat) : Bool :=
  linkMbit == 0 || decide (usedKbit + wantKbit ≤ linkCapKbit linkMbit)

/-- What a master at that sample rate costs. -/
def masterCostKbit (sampleRate : Nat) : Nat :=
  reacLinkCostKbit (reacLinkMasterPps sampleRate) reacFrameBytes

theorem reacLinkBudgetFits_known {linkMbit usedKbit wantKbit : Nat} (hknown : linkMbit ≠ 0) :
    reacLinkBudgetFits linkMbit usedKbit wantKbit = true ↔
      usedKbit + wantKbit ≤ linkCapKbit linkMbit := by
  have hne : (linkMbit == 0) = false := beq_eq_false_iff_ne.mpr hknown
  rw [reacLinkBudgetFits, hne, Bool.false_or, decide_eq_true_iff]

/-! ### The port of an interface -/

/-- The longest interface name, its NUL included. -/
def ifnamsiz : Nat := 16

/-- A character `name_ok` lets through. -/
def nameCharOk (c : Char) : Bool :=
  c.isAlphanum || c == '.' || c == '-' || c == ':' || c == '_'

/-- What stands before and after the last dot (`strrchr`). -/
def splitLastDot : List Char → Option (List Char × List Char)
  | [] => none
  | c :: rest =>
      match splitLastDot rest with
      | some (before, tail) => some (c :: before, tail)
      | none => if c = '.' then some ([], rest) else none

/-- A declared VLAN's parent and VID, when the name is one's (`reac_declared_vlan_split`). -/
def reacDeclaredVlanSplit (segment : String) : Option (String × Nat) :=
  match splitLastDot segment.toList with
  | none => none
  | some (parent, tail) =>
      let vid := Decimal.value tail
      if parent = [] ∨ tail = [] ∨ tail.all Char.isDigit = false then none
      else if vid < 1 ∨ 4094 < vid then none
      else if ifnamsiz < segment.utf8ByteSize + 1 then none
      else if parent.all nameCharOk = false then none
      else some (String.ofList parent, vid)

/-- The physical port behind an interface. -/
def linkPortOf (ifname : String) : String :=
  match reacDeclaredVlanSplit ifname with
  | some (parent, _) => parent
  | none => ifname

example : linkPortOf "enp131s0.11" = "enp131s0" := by decide

example : linkPortOf "enp131s0.env" = "enp131s0.env" := by decide

/-- Two 96 kHz masters do not share a 100 Mbit/s port. -/
example : masterCostKbit 96000 = 97024 ∧
    reacLinkBudgetFits 100 0 (masterCostKbit 96000) = true ∧
    reacLinkBudgetFits 100 (masterCostKbit 96000) (masterCostKbit 48000) = false := by decide

end ReacPw
