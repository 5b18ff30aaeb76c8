/-
The VLAN segments the operator declares.

A section that is named `<parent>.<vid>` declares that VLAN (`reac_declared_vlan_split`), and
the sections of a configuration that are not ignored fill a table without duplicates
(`reac_segconf_declared`).  From the table the name is composed again, and the roles are
looked up by it.
-/
import ReacPw.Lib.Decimal
import ReacPw.Segconf

namespace ReacPw

/-- `struct reac_declared_vlan`. -/
structure DeclaredVlan where
  parent : Text
  vid : Nat
  deriving DecidableEq, Repr

/-- `<parent>.<vid>`. -/
def DeclaredVlan.name (d : DeclaredVlan) : Text := d.parent ++ '.' :: Decimal.numeral d.vid

/-- `reac_declared_vlan_split` into a parent of `cap` bytes.  `strtol` stops at the end of a
`long` in C, which is past every VID either way. -/
def declaredVlanSplit (cap : Nat) (segment : Text) : Option DeclaredVlan :=
  match splitLastDot segment with
  | none => none
  | some (parent, tail) =>
      let v := Decimal.value tail
      if cap = 0 ∨ parent = [] ∨ tail = [] ∨ tail.all Char.isDigit = false then none
      else if v < 1 ∨ 4094 < v then none
      else if cap < parent.length + 1 ∨ ifnamsiz < parent.length + 1 then none
      else if ifnamsiz < segment.length + 1 then none
      else if parent.all nameCharOk = false then none
      else some ⟨parent, v⟩

/-- `reac_declared_vlan_add`: the table, and whether it grew, none when it is full. -/
def declaredVlanAdd (max : Nat) (tab : List DeclaredVlan) (d : DeclaredVlan) :
    Option (List DeclaredVlan × Nat) :=
  if d ∈ tab then some (tab, 0)
  else if max ≤ tab.length then none
  else some (tab ++ [{ d with parent := clipped ifnamsiz d.parent }], 1)

/-- The walk of `reac_segconf_declared` over the sections: the table, and how many entries
were added, none when it was full. -/
def segconfDeclared (max : Nat) :
    List DeclaredVlan → Nat → List SegconfSeg → List DeclaredVlan × Option Nat
  | tab, added, [] => (tab, some added)
  | tab, added, s :: rest =>
      if s.ignore then segconfDeclared max tab added rest
      else
        match declaredVlanSplit ifnamsiz s.name with
        | none => segconfDeclared max tab added rest
        | some d =>
            match declaredVlanAdd max tab d with
            | none => (tab, none)
            | some (tab', r) => segconfDeclared max tab' (added + r) rest

/-- `reac_segconf_declared` into an empty table, as it is called. -/
def reacSegconfDeclared (c : Segconf) (max : Nat) : List DeclaredVlan × Option Nat :=
  segconfDeclared max [] 0 c.seg

end ReacPw
