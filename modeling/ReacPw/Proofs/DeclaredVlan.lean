/-
A VLAN segment's name and its parent and VID.

The split takes the parent and the digits behind the last dot (`declaredVlanSplit_iff`), and
composing them again gives the name back just when the digits have no leading zero: `eth0.07`
is taken for VLAN 7 of `eth0`, whose name is `eth0.7`.  Where no section's name is of that
kind, a configuration declares exactly the VLANs its sections name.
-/
import Mathlib.Data.List.Nodup
import Mathlib.Data.List.Perm.Subperm
import ReacPw.DeclaredVlan

namespace ReacPw

/-! ### The last dot -/

theorem splitLastDot_eq_none {s : Text} : splitLastDot s = none ↔ '.' ∉ s := by
  induction s with
  | nil => simp [splitLastDot]
  | cons c rest ih =>
      rw [splitLastDot]
      cases hrest : splitLastDot rest with
      | none =>
          have hdotless := ih.mp hrest
          by_cases hc : c = '.'
          · simp [hc]
          · simp [hc, Ne.symm hc, hdotless]
      | some p =>
          have hdot : '.' ∈ rest := by
            by_contra hdotless
            rw [ih.mpr hdotless] at hrest
            cases hrest
          simp [hdot]

theorem splitLastDot_append (before : Text) {tail : Text} (htail : '.' ∉ tail) :
    splitLastDot (before ++ '.' :: tail) = some (before, tail) := by
  induction before with
  | nil => simp [splitLastDot, splitLastDot_eq_none.mpr htail]
  | cons c before ih => rw [List.cons_append, splitLastDot, ih]

theorem splitLastDot_sound {s before tail : Text} (h : splitLastDot s = some (before, tail)) :
    s = before ++ '.' :: tail ∧ '.' ∉ tail := by
  induction s generalizing before with
  | nil => cases h
  | cons c rest ih =>
      rw [splitLastDot] at h
      cases hrest : splitLastDot rest with
      | none =>
          rw [hrest] at h
          by_cases hc : c = '.'
          · simp only [hc, if_true, Option.some.injEq, Prod.mk.injEq] at h
            obtain ⟨rfl, rfl⟩ := h
            exact ⟨by rw [hc, List.nil_append], splitLastDot_eq_none.mp hrest⟩
          · simp [hc] at h
      | some p =>
          rw [hrest] at h
          cases h
          obtain ⟨hsplit, hdotless⟩ := ih hrest
          exact ⟨by rw [hsplit, List.cons_append], hdotless⟩

/-! ### One name -/

/-- The name spells this VLAN: its parent, a dot, and digits worth its VID. -/
structure DeclaredVlan.Spelled (d : DeclaredVlan) (s tail : Text) : Prop where
  text : s = d.parent ++ '.' :: tail
  digits : Decimal.Plain tail
  worth : Decimal.value tail = d.vid
  vid : 1 ≤ d.vid ∧ d.vid ≤ 4094
  parent : d.parent ≠ [] ∧ d.parent.all nameCharOk = true
  fits : s.length + 1 ≤ ifnamsiz

theorem declaredVlanSplit_iff {cap : Nat} {s : Text} {d : DeclaredVlan} :
    declaredVlanSplit cap s = some d ↔
      (∃ tail, d.Spelled s tail) ∧ d.parent.length + 1 ≤ cap := by
  constructor
  · intro h
    rw [declaredVlanSplit] at h
    split at h
    · cases h
    · rename_i parent tail hdot
      obtain ⟨htext, -⟩ := splitLastDot_sound hdot
      simp only [Option.ite_none_left_eq_some, Option.some.injEq] at h
      obtain ⟨hshape, hvid, hroom, hfits, hchars, rfl⟩ := h
      simp only [not_or, Bool.not_eq_false, List.all_eq_true] at hshape
      obtain ⟨-, hparent, htail, hdigits⟩ := hshape
      refine ⟨⟨tail, htext, ⟨htail, hdigits⟩, rfl, ?_,
        ⟨hparent, by simpa using hchars⟩, by omega⟩, ?_⟩
      · change 1 ≤ Decimal.value tail ∧ Decimal.value tail ≤ 4094
        omega
      · change parent.length + 1 ≤ cap
        omega
  · rintro ⟨⟨tail, htext, hdigits, hworth, hvid, ⟨hparent, hchars⟩, hfits⟩, hcap⟩
    obtain ⟨parent, vid⟩ := d
    have hdotless : '.' ∉ tail := fun hdot => absurd (hdigits.2 '.' hdot) (by decide)
    have hlen : parent.length + 1 ≤ s.length := by
      rw [htext, List.length_append, List.length_cons]
      exact Nat.add_le_add_left (Nat.le_add_left 1 _) _
    have hall : tail.all Char.isDigit = true := List.all_eq_true.mpr hdigits.2
    simp only at hworth hvid hcap hchars hparent
    rw [declaredVlanSplit, htext, splitLastDot_append _ hdotless]
    simp only [hworth]
    rw [if_neg (by simp [hparent, hdigits.1, hall]; omega), if_neg (by omega), if_neg (by omega),
      ← htext, if_neg (by omega), if_neg (by simp [hchars])]

/-- The name is this VLAN's own: composing it gives the name back. -/
structure DeclaredVlan.Names (d : DeclaredVlan) (s : Text) : Prop where
  text : d.name = s
  vid : 1 ≤ d.vid ∧ d.vid ≤ 4094
  parent : d.parent ≠ [] ∧ d.parent.all nameCharOk = true
  fits : s.length + 1 ≤ ifnamsiz

/-- A VLAN's own name is its only spelling without a leading zero. -/
theorem DeclaredVlan.names_iff {d : DeclaredVlan} {s : Text} :
    d.Names s ↔ ∃ tail, d.Spelled s tail ∧ tail.head? ≠ some '0' := by
  constructor
  · rintro ⟨htext, hvid, hparent, hfits⟩
    exact ⟨Decimal.numeral d.vid, ⟨htext.symm, Decimal.plain_numeral _, Decimal.value_numeral _,
      hvid, hparent, hfits⟩, Decimal.head_numeral hvid.1⟩
  · rintro ⟨tail, ⟨htext, hdigits, hworth, hvid, hparent, hfits⟩, hlead⟩
    refine ⟨?_, hvid, hparent, hfits⟩
    rw [DeclaredVlan.name, ← hworth, (Decimal.numeral_value hdigits hlead).1, htext]

/-- The split of this name is exact: it accepts the name as that of a VLAN just where it is
that VLAN's own, and its parent fits. -/
def SplitExact (cap : Nat) (s : Text) : Prop :=
  ∀ d, declaredVlanSplit cap s = some d ↔ d.Names s ∧ d.parent.length + 1 ≤ cap

/-- The name spells a VLAN, whose parent fits, with a leading zero. -/
def ZeroLed (cap : Nat) (s : Text) : Prop :=
  ∃ (d : DeclaredVlan) (tail : Text),
    d.Spelled s tail ∧ d.parent.length + 1 ≤ cap ∧ tail.head? = some '0'

/-- A name spells one VLAN, in one way. -/
theorem DeclaredVlan.Spelled.unique {d e : DeclaredVlan} {s t u : Text} (hd : d.Spelled s t)
    (he : e.Spelled s u) : d = e ∧ t = u := by
  have hdotless : ∀ {x : Text}, Decimal.Plain x → '.' ∉ x :=
    fun hplain hdot => absurd (hplain.2 '.' hdot) (by decide)
  have hsplit := splitLastDot_append d.parent (hdotless hd.digits)
  rw [← hd.text, he.text, splitLastDot_append e.parent (hdotless he.digits)] at hsplit
  simp only [Option.some.injEq, Prod.mk.injEq] at hsplit
  obtain ⟨hparent, rfl⟩ := hsplit
  have hvid : d.vid = e.vid := by rw [← hd.worth, ← he.worth]
  obtain ⟨dp, dv⟩ := d
  obtain ⟨ep, ev⟩ := e
  cases hparent
  cases hvid
  exact ⟨rfl, rfl⟩

theorem splitExact_iff (cap : Nat) (s : Text) : SplitExact cap s ↔ ¬ ZeroLed cap s := by
  constructor
  · rintro hexact ⟨d, tail, hspelled, hcap, hzero⟩
    have hnames := ((hexact d).mp (declaredVlanSplit_iff.mpr ⟨⟨tail, hspelled⟩, hcap⟩)).1
    obtain ⟨tail', hspelled', hlead⟩ := DeclaredVlan.names_iff.mp hnames
    rw [(hspelled.unique hspelled').2] at hzero
    exact hlead hzero
  · intro hplain d
    rw [declaredVlanSplit_iff, DeclaredVlan.names_iff]
    constructor
    · rintro ⟨⟨tail, hspelled⟩, hcap⟩
      exact ⟨⟨tail, hspelled, fun hzero => hplain ⟨d, tail, hspelled, hcap, hzero⟩⟩, hcap⟩
    · rintro ⟨⟨tail, hspelled, -⟩, hcap⟩
      exact ⟨⟨tail, hspelled⟩, hcap⟩

theorem DeclaredVlan.Names.room {d : DeclaredVlan} {s : Text} (h : d.Names s) :
    d.parent.length + 1 ≤ ifnamsiz := by
  have hfits := h.fits
  rw [← h.text, DeclaredVlan.name, List.length_append, List.length_cons] at hfits
  omega

/-! ### The split of the link's port -/

theorem utf8Size_nameChar {c : Char} (h : nameCharOk c = true) : c.utf8Size = 1 := by
  have hupper : c.isUpper = decide (c.val ≥ 'A'.val ∧ c.val ≤ 'Z'.val) := rfl
  have hlower : c.isLower = (decide (c.val ≥ 'a'.val) && decide (c.val ≤ 'z'.val)) := rfl
  have hdigit : c.isDigit = (decide (c.val ≥ '0'.val) && decide (c.val ≤ '9'.val)) := rfl
  have halnum : c.isAlphanum = (c.isUpper || c.isLower || c.isDigit) := rfl
  rw [Char.utf8Size_eq_one_iff]
  simp only [nameCharOk, Bool.or_eq_true, beq_iff_eq, halnum, hupper, hlower, hdigit,
    Bool.and_eq_true, decide_eq_true_iff] at h
  simp only [UInt32.le_iff_toNat_le, ge_iff_le] at h ⊢
  rcases h with (((((⟨_, h⟩ | ⟨_, h⟩) | ⟨_, h⟩) | rfl) | rfl) | rfl) | rfl
  all_goals first | decide | exact Nat.le_trans h (by decide)

theorem utf8ByteSize_ascii {cs : List Char} (h : ∀ c ∈ cs, c.utf8Size = 1) :
    (String.ofList cs).utf8ByteSize = cs.length := by
  induction cs with
  | nil => rfl
  | cons c cs ih =>
      rw [String.ofList_cons, String.utf8ByteSize_append, String.utf8ByteSize_singleton,
        h c List.mem_cons_self, ih fun d hd => h d (List.mem_cons_of_mem c hd), List.length_cons,
        Nat.add_comm]

/-- The port of an interface is found by the same split. -/
theorem reacDeclaredVlanSplit_eq (s : String) :
    reacDeclaredVlanSplit s =
      (declaredVlanSplit ifnamsiz s.toList).map fun d => (String.ofList d.parent, d.vid) := by
  rw [reacDeclaredVlanSplit, declaredVlanSplit]
  cases hdot : splitLastDot s.toList with
  | none => rfl
  | some p =>
      obtain ⟨parent, tail⟩ := p
      obtain ⟨htext, -⟩ := splitLastDot_sound hdot
      have hlen : parent.length + 1 ≤ s.toList.length := by
        rw [htext, List.length_append, List.length_cons]
        omega
      simp only [show ¬ ifnamsiz = 0 by decide, false_or]
      by_cases hshape : parent = [] ∨ tail = [] ∨ tail.all Char.isDigit = false
      · rw [if_pos hshape, if_pos hshape]
        rfl
      · rw [if_neg hshape, if_neg hshape]
        by_cases hchars : parent.all nameCharOk = false
        · simp only [hchars, if_true]
          split_ifs <;> rfl
        · have hsize : s.utf8ByteSize = s.toList.length := by
            rw [← utf8ByteSize_ascii, String.ofList_toList]
            intro c hc
            rw [htext, List.mem_append, List.mem_cons] at hc
            simp only [not_or, Bool.not_eq_false, List.all_eq_true] at hshape hchars
            rcases hc with hparent | rfl | htail
            · exact utf8Size_nameChar (hchars c hparent)
            · decide
            · have halnum : c.isAlphanum = (c.isAlpha || c.isDigit) := rfl
              refine utf8Size_nameChar ?_
              rw [nameCharOk, halnum, hshape.2.2 c htail, Bool.or_true, Bool.true_or,
                Bool.true_or, Bool.true_or, Bool.true_or]
          rw [hsize]
          by_cases hfits : ifnamsiz < s.toList.length + 1
          · simp only [hfits, if_true]
            split_ifs <;> rfl
          · have hroom : ¬ (ifnamsiz < parent.length + 1 ∨ ifnamsiz < parent.length + 1) := by
              omega
            simp only [hfits, if_false, if_neg hroom, hchars]
            split_ifs <;> rfl

/-! ### The table -/

/-- A section that is not ignored is taken for this VLAN's. -/
def Takes (segs : List SegconfSeg) (d : DeclaredVlan) : Prop :=
  ∃ s ∈ segs, s.ignore = false ∧ declaredVlanSplit ifnamsiz s.name = some d

/-- A section that is not ignored has this VLAN's name. -/
def Declares (segs : List SegconfSeg) (d : DeclaredVlan) : Prop :=
  ∃ s ∈ segs, s.ignore = false ∧ d.Names s.name

theorem takes_iff_declares {segs : List SegconfSeg}
    (hexact : ∀ s ∈ segs, SplitExact ifnamsiz s.name) (d : DeclaredVlan) :
    Takes segs d ↔ Declares segs d := by
  refine exists_congr fun s => and_congr_right fun hs => and_congr_right fun _ => ?_
  rw [hexact s hs d]
  exact ⟨fun h => h.1, fun h => ⟨h, h.room⟩⟩

theorem takes_cons {s : SegconfSeg} {segs : List SegconfSeg} {d : DeclaredVlan} :
    Takes (s :: segs) d ↔
      (s.ignore = false ∧ declaredVlanSplit ifnamsiz s.name = some d) ∨ Takes segs d := by
  simp [Takes, or_and_right, exists_or]

/-- What an add does: nothing where the VLAN is there, else one entry more while there is
room. -/
theorem declaredVlanAdd_eq {max : Nat} {tab : List DeclaredVlan} {d : DeclaredVlan}
    (hroom : d.parent.length < ifnamsiz) :
    declaredVlanAdd max tab d =
      if d ∈ tab then some (tab, 0)
      else if max ≤ tab.length then none
      else some (tab ++ [d], 1) := by
  have hkept : clipped ifnamsiz d.parent = d.parent := List.take_of_length_le (by omega)
  rw [declaredVlanAdd, hkept]

/-- What the walk over the sections leaves of a table: the VLANs taken by the sections up to
where it stopped, which is the end unless the table was full. -/
structure TableFilled (max : Nat) (segs : List SegconfSeg) (tab : List DeclaredVlan)
    (added : Nat) (r : List DeclaredVlan × Option Nat) : Prop where
  distinct : r.1.Nodup
  bounded : r.1.length ≤ max
  first : ∃ walked left, segs = walked ++ left ∧
    (∀ d, d ∈ r.1 ↔ d ∈ tab ∨ Takes walked d) ∧
    (∀ k, r.2 = some k → left = [] ∧ k + tab.length = added + r.1.length)
  full : r.2 = none → r.1.length = max ∧ ∃ d, d ∉ r.1 ∧ Takes segs d

/-- A section that leaves the table as it is. -/
theorem TableFilled.pass {max added : Nat} {s : SegconfSeg} {segs : List SegconfSeg}
    {tab : List DeclaredVlan} {r : List DeclaredVlan × Option Nat}
    (h : TableFilled max segs tab added r)
    (hpass : ∀ d, s.ignore = false → declaredVlanSplit ifnamsiz s.name = some d → d ∈ tab) :
    TableFilled max (s :: segs) tab added r := by
  obtain ⟨walked, left, hsplit, hmem, hdone⟩ := h.first
  refine ⟨h.distinct, h.bounded, ⟨s :: walked, left, by rw [hsplit]; rfl, ?_, hdone⟩, ?_⟩
  · intro d
    rw [hmem, takes_cons]
    constructor
    · rintro (hold | hnew)
      · exact Or.inl hold
      · exact Or.inr (Or.inr hnew)
    · rintro (hold | ⟨hon, htaken⟩ | hnew)
      · exact Or.inl hold
      · exact Or.inl (hpass d hon htaken)
      · exact Or.inr hnew
  · intro hnone
    obtain ⟨hlen, d, hout, htaken⟩ := h.full hnone
    exact ⟨hlen, d, hout, takes_cons.mpr (Or.inr htaken)⟩

/-- A VLAN that finds the table full. -/
theorem TableFilled.stop {max added : Nat} {s : SegconfSeg} {segs : List SegconfSeg}
    {tab : List DeclaredVlan} {d : DeclaredVlan} (hdistinct : tab.Nodup)
    (hbounded : tab.length ≤ max) (hfull : max ≤ tab.length) (hon : s.ignore = false)
    (hsplit : declaredVlanSplit ifnamsiz s.name = some d) (hnew : d ∉ tab) :
    TableFilled max (s :: segs) tab added (tab, none) := by
  refine ⟨hdistinct, hbounded, ⟨[], s :: segs, rfl, ?_, nofun⟩, fun _ => ?_⟩
  · intro e
    simp [Takes]
  · exact ⟨Nat.le_antisymm hbounded hfull, d, hnew, takes_cons.mpr (Or.inl ⟨hon, hsplit⟩)⟩

/-- A VLAN that is added. -/
theorem TableFilled.grow {max added : Nat} {s : SegconfSeg} {segs : List SegconfSeg}
    {tab : List DeclaredVlan} {d : DeclaredVlan} {r : List DeclaredVlan × Option Nat}
    (h : TableFilled max segs (tab ++ [d]) (added + 1) r) (hon : s.ignore = false)
    (hsplit : declaredVlanSplit ifnamsiz s.name = some d) :
    TableFilled max (s :: segs) tab added r := by
  obtain ⟨walked, left, hsegs, hmem, hdone⟩ := h.first
  refine ⟨h.distinct, h.bounded, ⟨s :: walked, left, by rw [hsegs]; rfl, ?_, ?_⟩, ?_⟩
  · intro e
    rw [hmem, takes_cons, List.mem_append, List.mem_singleton, hsplit, Option.some.injEq, or_assoc,
      eq_comm (a := e)]
    simp [hon]
  · intro k hk
    obtain ⟨hleft, hcount⟩ := hdone k hk
    rw [List.length_append, List.length_singleton] at hcount
    exact ⟨hleft, by omega⟩
  · intro hnone
    obtain ⟨hlen, e, hout, he⟩ := h.full hnone
    exact ⟨hlen, e, hout, takes_cons.mpr (Or.inr he)⟩

/-- **The walk fills the table.** -/
theorem segconfDeclared_filled {max : Nat} (segs : List SegconfSeg) {tab : List DeclaredVlan}
    (added : Nat) (hdistinct : tab.Nodup) (hbounded : tab.length ≤ max) :
    TableFilled max segs tab added (segconfDeclared max tab added segs) := by
  induction segs generalizing tab added with
  | nil =>
      refine ⟨hdistinct, hbounded, ⟨[], [], rfl, ?_, ?_⟩, ?_⟩
      · intro d
        simp [segconfDeclared, Takes]
      · rintro k hk
        cases hk
        exact ⟨rfl, rfl⟩
      · intro hnone
        cases hnone
  | cons s segs ih =>
      rw [segconfDeclared]
      split
      · rename_i hignored
        refine (ih added hdistinct hbounded).pass ?_
        intro d hon
        rw [hignored] at hon
        cases hon
      · rename_i hon
        have hon : s.ignore = false := Bool.not_eq_true _ ▸ hon
        cases hsplit : declaredVlanSplit ifnamsiz s.name with
        | none =>
            refine (ih added hdistinct hbounded).pass ?_
            intro d _ htaken
            rw [hsplit] at htaken
            cases htaken
        | some d =>
            have hroom := (declaredVlanSplit_iff.mp hsplit).2
            simp only [declaredVlanAdd_eq (Nat.lt_of_succ_le hroom)]
            by_cases hthere : d ∈ tab
            · simp only [if_pos hthere]
              refine (ih _ hdistinct hbounded).pass ?_
              intro e _ he
              rw [← Option.some.inj (hsplit.symm.trans he)]
              exact hthere
            · by_cases hfull : max ≤ tab.length
              · simp only [if_neg hthere, if_pos hfull]
                exact .stop hdistinct hbounded hfull hon hsplit hthere
              · simp only [if_neg hthere, if_neg hfull]
                have hgrown : (tab ++ [d]).Nodup := by
                  rw [← List.concat_eq_append]
                  exact List.Nodup.concat hthere hdistinct
                have hfits : (tab ++ [d]).length ≤ max := by
                  rw [List.length_append, List.length_singleton]
                  omega
                exact (ih (added + 1) hgrown hfits).grow hon hsplit

/-! ### A configuration -/

/-- The sections' VLANs, without duplicates, as far as the table goes. -/
structure DeclaredExact (segs : List SegconfSeg) (max : Nat)
    (r : List DeclaredVlan × Option Nat) : Prop where
  distinct : r.1.Nodup
  bounded : r.1.length ≤ max
  /-- They are those of the sections up to some point of the file. -/
  first : ∃ walked left, segs = walked ++ left ∧ ∀ d, d ∈ r.1 ↔ Declares walked d
  whole : ∀ k, r.2 = some k → k = r.1.length ∧ ∀ d, d ∈ r.1 ↔ Declares segs d
  exceeded : r.2 = none ↔
    ∃ ds : List DeclaredVlan, ds.Nodup ∧ max < ds.length ∧ ∀ d ∈ ds, Declares segs d

/-- A configuration whose names and VLANs are one thing. -/
structure NamesExact (c : Segconf) (max : Nat) : Prop where
  split : ∀ s ∈ c.seg, SplitExact ifnamsiz s.name
  declared : DeclaredExact c.seg max (reacSegconfDeclared c max)
  apart : ∀ s ∈ c.seg, ∀ t ∈ c.seg, s.name ≠ t.name → ∀ d,
    ¬ (declaredVlanSplit ifnamsiz s.name = some d ∧ declaredVlanSplit ifnamsiz t.name = some d)

theorem declared_exact {c : Segconf} {max : Nat}
    (hexact : ∀ s ∈ c.seg, SplitExact ifnamsiz s.name) :
    DeclaredExact c.seg max (reacSegconfDeclared c max) := by
  have hfilled : TableFilled max c.seg [] 0 (reacSegconfDeclared c max) :=
    segconfDeclared_filled c.seg 0 List.nodup_nil (Nat.zero_le _)
  obtain ⟨walked, left, hsegs, hmem, hdone⟩ := hfilled.first
  have hin : ∀ s ∈ walked, s ∈ c.seg := by
    intro s hs
    rw [hsegs]
    exact List.mem_append_left _ hs
  have hwalked : ∀ d, d ∈ (reacSegconfDeclared c max).1 ↔ Declares walked d := by
    intro d
    rw [hmem, takes_iff_declares fun s hs => hexact s (hin s hs)]
    exact or_iff_right List.not_mem_nil
  have hsub : ∀ d, Declares walked d → Declares c.seg d :=
    fun d ⟨s, hs, hon, hnames⟩ => ⟨s, hin s hs, hon, hnames⟩
  have hwhole : ∀ k, (reacSegconfDeclared c max).2 = some k →
      k = (reacSegconfDeclared c max).1.length ∧
        ∀ d, d ∈ (reacSegconfDeclared c max).1 ↔ Declares c.seg d := by
    intro k hk
    obtain ⟨hleft, hcount⟩ := hdone k hk
    rw [hleft, List.append_nil] at hsegs
    rw [List.length_nil] at hcount
    refine ⟨by omega, ?_⟩
    rw [hsegs]
    exact hwalked
  refine ⟨hfilled.distinct, hfilled.bounded, ⟨walked, left, hsegs, hwalked⟩, hwhole, ?_⟩
  constructor
  · intro hnone
    obtain ⟨hlen, d, hout, htaken⟩ := hfilled.full hnone
    refine ⟨d :: (reacSegconfDeclared c max).1, List.nodup_cons.mpr ⟨hout, hfilled.distinct⟩,
      by rw [List.length_cons, hlen]; exact Nat.lt_succ_self _, ?_⟩
    intro e he
    rcases List.mem_cons.mp he with rfl | hin
    · exact (takes_iff_declares hexact e).mp htaken
    · exact hsub e ((hwalked e).mp hin)
  · rintro ⟨ds, hdistinct, hlong, hdeclared⟩
    cases hret : (reacSegconfDeclared c max).2 with
    | none => rfl
    | some k =>
        have hheld : ds ⊆ (reacSegconfDeclared c max).1 :=
          fun d hd => ((hwhole k hret).2 d).mpr (hdeclared d hd)
        have hle := (hdistinct.subperm hheld).length_le
        have hbounded := hfilled.bounded
        omega

theorem namesExact_iff (c : Segconf) (max : Nat) :
    NamesExact c max ↔ ∀ s ∈ c.seg, ¬ ZeroLed ifnamsiz s.name := by
  constructor
  · intro h s hs
    exact (splitExact_iff ifnamsiz s.name).mp (h.split s hs)
  · intro hplain
    have hexact : ∀ s ∈ c.seg, SplitExact ifnamsiz s.name := fun s hs =>
      (splitExact_iff ifnamsiz s.name).mpr (hplain s hs)
    refine ⟨hexact, declared_exact hexact, ?_⟩
    rintro s hs t ht hne d ⟨hsd, htd⟩
    refine hne ?_
    rw [← (((hexact s hs d).mp hsd).1).text, ((hexact t ht d).mp htd).1.text]

/-- **A segment's name is its VLAN's own, except for leading zeros.**  The split of a name is
exact just where it does not spell a VLAN with a leading zero; and a configuration's sections
and the VLANs it declares are one thing just where no section's name does. -/
theorem vlan_names_exact_iff (cap : Nat) (segment : Text) (c : Segconf) (max : Nat) :
    (SplitExact cap segment ↔ ¬ ZeroLed cap segment) ∧
      (NamesExact c max ↔ ∀ s ∈ c.seg, ¬ ZeroLed ifnamsiz s.name) :=
  ⟨splitExact_iff cap segment, namesExact_iff c max⟩

/-- `eth0.07` is taken for VLAN 7 of `eth0`, as `eth0.7` is, and a section of that name is not
found under the name composed from what it declares. -/
theorem zero_led_name_slips :
    ¬ SplitExact ifnamsiz (txt "eth0.07") ∧
      declaredVlanSplit ifnamsiz (txt "eth0.07") = declaredVlanSplit ifnamsiz (txt "eth0.7") ∧
      let c : Segconf := { seg := [{ name := txt "eth0.07", role := .master, roleSet := true }] }
      (reacSegconfDeclared c 32).1.map DeclaredVlan.name = [txt "eth0.7"] ∧
        reacSegconfFind c (txt "eth0.7") = none := by
  refine ⟨?_, by decide, by decide, by decide⟩
  intro hexact
  have hnames := ((hexact ⟨txt "eth0", 7⟩).mp (by decide)).1.text
  exact absurd hnames (by decide)

end ReacPw
