/-
The roster tells what the engines do, and when it does not.

The tables are added one after another, and a name added before refuses the next row of
that name.  So the rows are those found when the names found are apart, and one is lost
when they are not.  A row's source is looked up the same way whatever decided the row;
`SourcesDecide` says when that answers with the file that did.
-/
import Mathlib.Data.List.Dedup
import Mathlib.Data.List.Perm.Subperm
import ReacPw.RosterTables
import ReacPw.Proofs.Roster
import ReacPw.Proofs.Segconf

namespace ReacPw

theorem ifName_ext {a b : IfName} (h : a.text = b.text) : a = b := by
  cases a
  cases b
  cases h
  rfl

/-! ### Adding what is found -/

/-- The row an add makes of a found segment. -/
def RosterFound.row (f : RosterFound) : RosterSeg :=
  { rosterRow f.name f.state f.model f.role f.source f.in_ f.out with
    status := if f.said = "" then "" else clip 112 f.said }

theorem rosterInsert_perm {s : RosterSeg} :
    ∀ {l l' : List RosterSeg}, rosterInsert s l = some l' → l'.Perm (s :: l) := by
  intro l
  induction l with
  | nil =>
      intro l' h
      cases h
      exact List.Perm.refl _
  | cons w rest ih =>
      intro l' h
      rw [rosterInsert] at h
      by_cases heq : w.name.text = s.name.text
      · rw [if_pos heq] at h
        cases h
      rw [if_neg heq] at h
      by_cases hlt : s.name.text < w.name.text
      · rw [if_pos hlt] at h
        cases h
        exact List.Perm.refl _
      rw [if_neg hlt] at h
      obtain ⟨rest', hrest, rfl⟩ := Option.map_eq_some_iff.mp h
      exact ((ih hrest).cons w).trans (List.Perm.swap s w rest)

/-- In a sorted roster a row is refused for its name alone. -/
theorem rosterInsert_none_iff {s : RosterSeg} {l : List RosterSeg}
    (hsorted : l.Pairwise fun a b => a.name.text < b.name.text) :
    rosterInsert s l = none ↔ s.name ∈ l.map (·.name) := by
  induction l with
  | nil => simp [rosterInsert]
  | cons w rest ih =>
      obtain ⟨hw, hrest⟩ := List.pairwise_cons.mp hsorted
      rw [rosterInsert, List.map_cons, List.mem_cons]
      by_cases heq : w.name.text = s.name.text
      · rw [if_pos heq]
        exact ⟨fun _ => Or.inl (ifName_ext heq.symm), fun _ => rfl⟩
      have hne : s.name ≠ w.name := fun h => heq (congrArg IfName.text h.symm)
      rw [if_neg heq]
      by_cases hlt : s.name.text < w.name.text
      · rw [if_pos hlt]
        refine ⟨fun h => absurd h (by simp), fun h => ?_⟩
        rcases h with h | h
        · exact absurd h hne
        · obtain ⟨x, hx, hname⟩ := List.mem_map.mp h
          have hxs : x.name.text = s.name.text := congrArg IfName.text hname
          exact absurd (hw x hx) (by rw [hxs]; exact lt_asymm hlt)
      · rw [if_neg hlt, Option.map_eq_none_iff, ih hrest]
        exact ⟨Or.inr, fun h => h.resolve_left hne⟩

/-- **What one add does**: it is refused for want of room or for its name, and otherwise the
roster is longer by its row. -/
theorem rosterCollectOne_row {r : Roster} (h : WantInv r.want) {f : RosterFound}
    (hnamed : f.name.text ≠ "") :
    ((reacRosterAdd r f.name f.state f.model f.role f.source f.in_ f.out).2 = true ↔
      r.want.length < reacRosterMax ∧ f.name ∉ r.want.map (·.name)) ∧
    ((reacRosterAdd r f.name f.state f.model f.role f.source f.in_ f.out).2 = true →
      (rosterCollectOne r f).want.Perm (f.row :: r.want)) := by
  unfold rosterCollectOne reacRosterAdd
  rw [if_neg hnamed]
  by_cases hfull : reacRosterMax ≤ r.want.length
  · rw [if_pos hfull]
    exact ⟨⟨fun hadd => absurd hadd Bool.false_ne_true,
      fun hroom => absurd hroom.1 (Nat.not_lt.mpr hfull)⟩, fun hadd => absurd hadd Bool.false_ne_true⟩
  rw [if_neg hfull]
  have hnone := rosterInsert_none_iff
    (s := rosterRow f.name f.state f.model f.role f.source f.in_ f.out) h.sorted
  cases hins : rosterInsert (rosterRow f.name f.state f.model f.role f.source f.in_ f.out) r.want with
  | none =>
      rw [hins] at hnone
      exact ⟨⟨fun hadd => absurd hadd Bool.false_ne_true,
        fun hroom => absurd (hnone.mp rfl) hroom.2⟩, fun hadd => absurd hadd Bool.false_ne_true⟩
  | some want =>
      rw [hins] at hnone
      have hfresh : f.name ∉ r.want.map (·.name) := fun hmem => by
        have := hnone.mpr hmem
        simp at this
      have hperm := rosterInsert_perm hins
      refine ⟨⟨fun _ => ⟨Nat.not_le.mp hfull, hfresh⟩, fun _ => rfl⟩, fun _ => ?_⟩
      dsimp only
      by_cases hsaid : f.said = ""
      · rw [if_pos hsaid]
        have hrow : f.row = rosterRow f.name f.state f.model f.role f.source f.in_ f.out := by
          unfold RosterFound.row
          rw [if_pos hsaid]
          rfl
        rw [hrow]
        exact hperm
      · rw [if_neg hsaid]
        -- the sentence goes to the new row and to no other
        refine (hperm.map _).trans ?_
        rw [List.map_cons]
        have hrow : f.row = (if (rosterRow f.name f.state f.model f.role f.source f.in_ f.out).name =
            f.name then
              { rosterRow f.name f.state f.model f.role f.source f.in_ f.out with
                status := clip 112 f.said }
            else rosterRow f.name f.state f.model f.role f.source f.in_ f.out) := by
          unfold RosterFound.row
          rw [if_neg hsaid]
          exact (if_pos rfl).symm
        rw [← hrow]
        have hsame : r.want.map (fun w => if w.name = f.name then
            { w with status := clip 112 f.said } else w) = r.want := by
          refine (List.map_congr_left fun w hw => if_neg fun heq => ?_).trans (List.map_id _)
          exact hfresh (heq ▸ List.mem_map_of_mem hw)
        rw [hsame]

theorem RosterFound.row_name (f : RosterFound) : f.row.name = f.name := rfl

/-- **No add is refused when the names are apart and there is room, and only then**; and the
roster then holds what was found. -/
theorem rosterRefused_iff (found : List RosterFound) (hnamed : ∀ f ∈ found, f.name.text ≠ "") :
    ∀ {r : Roster}, WantInv r.want →
      (rosterRefused r found = 0 ↔
        (r.want.map (·.name) ++ found.map (·.name)).Nodup ∧
          r.want.length + found.length ≤ reacRosterMax) ∧
      (rosterRefused r found = 0 →
        (found.foldl rosterCollectOne r).want.Perm (found.map RosterFound.row ++ r.want)) := by
  induction found with
  | nil =>
      intro r h
      have hnodup : (r.want.map (·.name)).Nodup := by
        refine List.Nodup.of_map IfName.text ?_
        rw [List.map_map]
        exact List.pairwise_map.mpr (h.sorted.imp fun hlt => ne_of_lt hlt)
      simp [rosterRefused, hnodup, h.few]
  | cons f rest ih =>
      intro r h
      obtain ⟨hadded, hrow⟩ := rosterCollectOne_row h (hnamed f List.mem_cons_self)
      obtain ⟨hnext, hkeeps⟩ := ih (fun f' hf' => hnamed f' (List.mem_cons_of_mem f hf'))
        (rosterCollectOne_want h f).1
      rw [rosterRefused]
      by_cases hok : (reacRosterAdd r f.name f.state f.model f.role f.source f.in_ f.out).2 = true
      · have hperm := hrow hok
        have hnames : ((rosterCollectOne r f).want.map (·.name)).Perm
            (f.name :: r.want.map (·.name)) := by
          have := hperm.map (·.name)
          rwa [List.map_cons, f.row_name] at this
        have hlen : (rosterCollectOne r f).want.length = r.want.length + 1 := by
          rw [hperm.length_eq, List.length_cons]
        have hmiddle : (r.want.map (·.name) ++ f.name :: rest.map (·.name)).Perm
            (f.name :: (r.want.map (·.name) ++ rest.map (·.name))) := List.perm_middle
        rw [if_pos hok, Nat.zero_add]
        constructor
        · rw [hnext, hlen, List.map_cons, List.length_cons,
            (hnames.append_right (rest.map (·.name))).nodup_iff, List.cons_append,
            hmiddle.nodup_iff]
          refine and_congr_right fun _ => ?_
          omega
        · intro hzero
          rw [List.foldl_cons, List.map_cons]
          refine (hkeeps hzero).trans ?_
          exact (hperm.append_left _).trans List.perm_middle
      · rw [if_neg hok]
        refine ⟨⟨fun hzero => absurd hzero (by omega), fun hroom => absurd ?_ hok⟩,
          fun hzero => absurd hzero (by omega)⟩
        refine hadded.mpr ⟨?_, fun hmem => ?_⟩
        · have := hroom.2
          rw [List.length_cons] at this
          omega
        · have hapart := (List.nodup_append.mp hroom.1).2.2
          exact hapart f.name hmem f.name (by simp) rfl

/-! ### The sources -/

/-- A label of the conf. -/
def LabelFits (f : Option Text) : Prop := ∀ label ∈ f, label.length < reacSegconfFileLen

/-- Labels that fit have sources of their own. -/
theorem sourceText_inj {f g : Option Text} (hf : LabelFits f) (hg : LabelFits g)
    (heq : sourceText f = sourceText g) : f = g := by
  have hclip : ∀ label : Text, label.length < reacSegconfFileLen →
      (sourceText (some label)).toList = "conf:".toList ++ label := by
    intro label hlt
    have hlen : ("conf:".toList ++ label).length ≤ 111 := by
      rw [List.length_append]
      show 5 + label.length ≤ 111
      unfold reacSegconfFileLen at hlt
      omega
    simp only [sourceText, clip, String.toList_ofList, String.toList_append]
    exact List.take_of_length_le hlen
  have hauto : ∀ label : Text, label.length < reacSegconfFileLen →
      sourceText (some label) ≠ "autodetected" := by
    intro label hlt habs
    have := congrArg String.toList habs
    rw [hclip label hlt] at this
    exact absurd (congrArg List.head? this) (by simp)
  cases f with
  | none =>
      cases g with
      | none => rfl
      | some g => exact absurd heq.symm (hauto g (hg g rfl))
  | some f =>
      cases g with
      | none => exact absurd heq (hauto f (hf f rfl))
      | some g =>
          have := congrArg String.toList heq
          rw [hclip f (hf f rfl), hclip g (hg g rfl)] at this
          rw [List.append_cancel_left this]

theorem reacSegconfRoleFile_mem {c : Segconf} {name label : Text}
    (h : reacSegconfRoleFile c name = some label) : ∃ s ∈ c.seg, s.roleFile = label := by
  obtain ⟨s, hfind, hs⟩ := Option.bind_eq_some_iff.mp h
  refine ⟨s, List.mem_of_find?_eq_some hfind, ?_⟩
  split at hs
  · exact Option.some.inj hs
  · exact absurd hs (by simp)

theorem reacSegconfIgnoreFile_mem {c : Segconf} {name label : Text}
    (h : reacSegconfIgnoreFile c name = some label) : ∃ s ∈ c.seg, s.ignoreFile = label := by
  obtain ⟨s, hfind, hs⟩ := Option.bind_eq_some_iff.mp h
  refine ⟨s, List.mem_of_find?_eq_some hfind, ?_⟩
  split at hs
  · exact Option.some.inj hs
  · exact absurd hs (by simp)

theorem RosterConf.roleFile_fits (c : RosterConf) (n : IfName) : LabelFits (c.roleFile n) := by
  intro label hlabel
  obtain ⟨s, hs, rfl⟩ := reacSegconfRoleFile_mem hlabel
  exact (c.fits s hs).1

theorem RosterConf.ignoreFile_fits (c : RosterConf) (n : IfName) : LabelFits (c.ignoreFile n) := by
  intro label hlabel
  obtain ⟨s, hs, rfl⟩ := reacSegconfIgnoreFile_mem hlabel
  exact (c.fits s hs).2

theorem labelFits_or {f g : Option Text} (hf : LabelFits f) (hg : LabelFits g) :
    LabelFits (f.or g) := by
  cases f with
  | none => exact hg
  | some label => exact hf

/-- A row's source is the file that decided it exactly when the lookup finds that file. -/
theorem rosterSource_eq_iff (c : RosterConf) (n : IfName) {f : Option Text} (hf : LabelFits f) :
    rosterSource c n = sourceText f ↔ (c.roleFile n).or (c.ignoreFile n) = f := by
  have hfits := labelFits_or (c.roleFile_fits n) (c.ignoreFile_fits n)
  exact ⟨sourceText_inj hfits hf, fun h => congrArg sourceText h⟩

/-- The row's field holds the whole source. -/
theorem rosterSource_row (c : RosterConf) (n : IfName) :
    clip 112 (orElse "autodetected" (rosterSource c n)) = rosterSource c n := by
  have hfits := labelFits_or (c.roleFile_fits n) (c.ignoreFile_fits n)
  unfold rosterSource
  cases h : (c.roleFile n).or (c.ignoreFile n) with
  | none => decide
  | some label =>
      have hlt := hfits label h
      have hne : sourceText (some label) ≠ "" := by
        intro habs
        have hnil := congrArg String.toList habs
        simp [sourceText, clip] at hnil
      unfold orElse
      rw [if_neg hne]
      simp only [sourceText, clip, String.toList_ofList]
      rw [List.take_take, Nat.min_self]

/-! ### What a tick finds -/

/-- Every interface that is an ignored segment, an opened listener or a sniffed wire. -/
def RosterTables.interfaces (t : RosterTables) : List IfName :=
  t.conf.ignored.map (·.1) ++ t.served.map rosterSegName ++
    if t.hearing then (t.sniffers.map (·.name)).filter (·.text ≠ "") else []

theorem mem_sniffed_names (listeners : List RosterListener) (sniffers : List RosterSniffer) :
    ∀ (c : RosterConf) (rereads : List RosterConf) (n : IfName),
      n ∈ (sniffed listeners c rereads sniffers).map (·.1.name) ↔
        n ∈ sniffers.map (·.name) ∧ n.text ≠ "" ∧ rosterHearingListener listeners n = false := by
  induction sniffers with
  | nil => intro c rereads n; simp [sniffed]
  | cons s rest ih =>
      intro c rereads n
      rw [sniffed, List.map_cons, List.mem_cons]
      by_cases hskip : s.name.text = "" ∨ rosterHearingListener listeners s.name = true
      · rw [if_pos hskip, ih]
        refine ⟨fun h => ⟨Or.inr h.1, h.2⟩, fun h => ⟨h.1.resolve_left fun heq => ?_, h.2⟩⟩
        rw [heq] at h
        rcases hskip with hfree | hserved
        · exact h.2.1 hfree
        · exact absurd (hserved.symm.trans h.2.2) (by simp)
      · rw [if_neg hskip, List.map_cons, List.mem_cons, ih]
        rw [not_or, Bool.not_eq_true] at hskip
        constructor
        · rintro (rfl | h)
          · exact ⟨Or.inl rfl, hskip⟩
          · exact ⟨Or.inr h.1, h.2⟩
        · rintro ⟨rfl | h, h2⟩
          · exact Or.inl rfl
          · exact Or.inr ⟨h, h2⟩

/-- A wire the hearing serves is the row of its listener. -/
theorem served_of_hearingListener {t : RosterTables} {n : IfName} (hn : n.text ≠ "")
    (hserved : rosterHearingListener t.listeners n = true) : n ∈ t.served.map rosterSegName := by
  obtain ⟨L, hL, hserves⟩ := List.any_eq_true.mp hserved
  rw [Bool.and_eq_true, beq_iff_eq] at hserves
  have hname : rosterSegName L = n := by
    unfold rosterSegName
    rw [hserves.2]
    exact if_pos hn
  refine List.mem_map.mpr ⟨L, List.mem_filter.mpr ⟨hL, ?_⟩, hname⟩
  simp [hserves.1, hname, hn]

theorem RosterTables.found_names (t : RosterTables) :
    t.found.map (·.name) = t.conf.ignored.map (·.1) ++ t.served.map rosterSegName ++
      t.sniffed.map (·.1.name) := by
  simp [RosterTables.found, List.map_append, ignoredFound, listenerFound, snifferFound,
    Function.comp_def]

/-- The names found are the interfaces. -/
theorem RosterTables.mem_found_names (t : RosterTables) (n : IfName) :
    n ∈ t.found.map (·.name) ↔ n ∈ t.interfaces := by
  rw [t.found_names]
  simp only [RosterTables.interfaces, List.mem_append]
  unfold RosterTables.sniffed
  cases t.hearing with
  | false => simp
  | true =>
      rw [if_pos rfl, if_pos rfl, mem_sniffed_names, List.mem_filter, decide_eq_true_iff]
      refine ⟨fun h => h.imp_right fun hs => ⟨hs.1, hs.2.1⟩, fun h => ?_⟩
      rcases h with hfound | ⟨hmem, hn⟩
      · exact Or.inl hfound
      · cases hserved : rosterHearingListener t.listeners n with
        | true => exact Or.inl (Or.inr (served_of_hearingListener hn hserved))
        | false => exact Or.inr ⟨hmem, hn, rfl⟩

theorem mem_ignored {c : RosterConf} {s : IfName × SegconfSeg} (hs : s ∈ c.ignored) :
    s.1 ∈ c.names := (List.of_mem_zip (List.mem_of_mem_filter hs)).1

theorem RosterTables.found_named (t : RosterTables) : ∀ f ∈ t.found, f.name.text ≠ "" := by
  intro f hf
  have hmem : f.name ∈ t.found.map (·.name) := List.mem_map_of_mem hf
  rw [t.found_names, List.mem_append, List.mem_append] at hmem
  rcases hmem with (hign | hserved) | hsniff
  · obtain ⟨s, hs, hname⟩ := List.mem_map.mp hign
    exact hname ▸ t.conf.named s.1 (mem_ignored hs)
  · obtain ⟨L, hL, hname⟩ := List.mem_map.mp hserved
    have := (List.mem_filter.mp hL).2
    rw [Bool.and_eq_true, decide_eq_true_iff] at this
    exact hname ▸ this.2
  · unfold RosterTables.sniffed at hsniff
    split at hsniff
    · exact ((mem_sniffed_names _ _ _ _ _).mp hsniff).2.1
    · exact absurd hsniff List.not_mem_nil

/-! ### What the roster should say -/

/-- **The roster tells what the engines do**: no add is refused, there is one row for each
interface, a listener's row states its engine, and every row's source is the file that
decided it. -/
structure RosterRight (t : RosterTables) (out : Roster × Nat) : Prop where
  accepted : out.2 = 0
  once : (out.1.want.map (·.name)).Nodup
  rows : ∀ n, n ∈ out.1.want.map (·.name) ↔ n ∈ t.interfaces
  engines : ∀ L ∈ t.served, ∀ w ∈ out.1.want, w.name = rosterSegName L → w.state = L.state
  ignoredSource : ∀ w ∈ out.1.want, w.state = .ignored → w.source = sourceText (t.conf.ignoreFile w.name)
  engineSource : ∀ L ∈ t.served, ∀ w ∈ out.1.want, w.name = rosterSegName L →
    w.source = sourceText (t.conf.roleFile w.name)
  sniffedSource : ∀ s ∈ t.sniffed, ∀ w ∈ out.1.want, w.name = s.1.name →
    w.source = sourceText (s.2.2.roleFile w.name)

/-- The tables do not overlap, and where two keys of a segment come from different files the
one looked up first decided the row. -/
structure RosterApart (t : RosterTables) : Prop where
  /-- An ignored segment has no listener and no sniffer, and no interface has two of either. -/
  names : (t.conf.ignored.map (·.1) ++ t.served.map rosterSegName ++ t.sniffed.map (·.1.name)).Nodup
  ignored : ∀ s ∈ t.conf.ignored,
    t.conf.roleFile s.1 = none ∨ t.conf.roleFile s.1 = t.conf.ignoreFile s.1
  served : ∀ L ∈ t.served,
    t.conf.roleFile (rosterSegName L) ≠ none ∨ t.conf.ignoreFile (rosterSegName L) = none
  /-- A sniffed wire's role is read after its source was looked up. -/
  sniffed : ∀ s ∈ t.sniffed,
    (s.2.1.roleFile s.1.name).or (s.2.1.ignoreFile s.1.name) = s.2.2.roleFile s.1.name

theorem option_or_eq_left {f g : Option Text} : f.or g = f ↔ f ≠ none ∨ g = none := by
  cases f <;> simp

theorem option_or_eq_right {f g : Option Text} : f.or g = g ↔ f = none ∨ f = g := by
  cases f <;> simp

theorem listenerState_ne_ignored (L : RosterListener) : L.state ≠ .ignored := by
  unfold RosterListener.state
  split_ifs <;> simp

theorem snifferState_ne_ignored (s : RosterSniffer) : s.state ≠ .ignored := by
  unfold RosterSniffer.state
  split <;> simp

section
variable {t : RosterTables} {r : Roster}

/-- What was found and not refused is in the roster, and nothing else is. -/
structure RowsFound (t : RosterTables) (r : Roster) : Prop where
  names : (t.found.map (·.name)).Nodup
  rows : (rosterCollect r t.found).want.Perm (t.found.map RosterFound.row)

theorem rosterCollectTables_accepted (r : Roster)
    (hbound : t.interfaces.dedup.length ≤ reacRosterMax) :
    ((rosterCollectTables r t).2 = 0 ↔ (t.found.map (·.name)).Nodup) ∧
    ((rosterCollectTables r t).2 = 0 → RowsFound t r) := by
  have hstart : WantInv (reacRosterBegin r).want := ⟨List.Pairwise.nil, Nat.zero_le _⟩
  obtain ⟨hiff, hrows⟩ := rosterRefused_iff t.found t.found_named hstart
  refine ⟨⟨fun hzero => (hiff.mp hzero).1, fun hnames => hiff.mpr ⟨hnames, ?_⟩⟩,
    fun hzero => ⟨(hiff.mp hzero).1, ?_⟩⟩
  · have hsub : t.found.map (·.name) ⊆ t.interfaces.dedup := fun n hn =>
      List.mem_dedup.mpr ((t.mem_found_names n).mp hn)
    have hle := (hnames.subperm hsub).length_le
    rw [List.length_map] at hle
    show 0 + t.found.length ≤ reacRosterMax
    omega
  · have := hrows hzero
    rwa [show (reacRosterBegin r).want = [] from rfl, List.append_nil] at this

theorem RowsFound.mem (h : RowsFound t r) {w : RosterSeg} :
    w ∈ (rosterCollect r t.found).want ↔ ∃ f ∈ t.found, f.row = w := by
  rw [h.rows.mem_iff, List.mem_map]

/-- The row of a name is the one found under it. -/
theorem RowsFound.row_of_name (h : RowsFound t r) {f : RosterFound} (hf : f ∈ t.found)
    {w : RosterSeg} (hw : w ∈ (rosterCollect r t.found).want) (hname : w.name = f.name) :
    w = f.row := by
  obtain ⟨f', hf', rfl⟩ := h.mem.mp hw
  rw [List.inj_on_of_nodup_map h.names hf' hf hname]

theorem ignoredFound_mem {s : IfName × SegconfSeg} (hs : s ∈ t.conf.ignored) :
    ignoredFound t.conf s ∈ t.found := by
  simp only [RosterTables.found, List.mem_append]
  exact Or.inl (Or.inl (List.mem_map_of_mem hs))

theorem listenerFound_mem {L : RosterListener} (hL : L ∈ t.served) :
    listenerFound t.conf L ∈ t.found := by
  simp only [RosterTables.found, List.mem_append]
  exact Or.inl (Or.inr (List.mem_map_of_mem hL))

theorem snifferFound_mem {s : RosterSniffer × RosterConf × RosterConf} (hs : s ∈ t.sniffed) :
    snifferFound s.2.1 s.2.2 s.1 ∈ t.found := by
  simp only [RosterTables.found, List.mem_append]
  exact Or.inr (List.mem_map_of_mem (f := fun s : RosterSniffer × RosterConf × RosterConf =>
    snifferFound s.2.1 s.2.2 s.1) hs)

/-- **The roster is right if and only if the tables are apart and the lookups decide.** -/
theorem roster_tells_engines (r : Roster) (t : RosterTables)
    (hbound : t.interfaces.dedup.length ≤ reacRosterMax) :
    RosterRight t (rosterCollectTables r t) ↔ RosterApart t := by
  constructor
  · intro h
    have hfound := (rosterCollectTables_accepted r hbound).2 h.accepted
    have hrow : ∀ f ∈ t.found, f.row ∈ (rosterCollectTables r t).1.want :=
      fun f hf => hfound.mem.mpr ⟨f, hf, rfl⟩
    refine ⟨t.found_names ▸ hfound.names, fun s hs => ?_, fun L hL => ?_, fun s hs => ?_⟩
    · have hsource := h.ignoredSource _ (hrow _ (ignoredFound_mem hs)) rfl
      rw [← option_or_eq_right]
      exact (rosterSource_eq_iff _ _ (t.conf.ignoreFile_fits s.1)).mp
        ((rosterSource_row t.conf s.1).symm.trans hsource)
    · have hsource := h.engineSource L hL _ (hrow _ (listenerFound_mem hL)) rfl
      rw [← option_or_eq_left]
      exact (rosterSource_eq_iff _ _ (t.conf.roleFile_fits _)).mp
        ((rosterSource_row t.conf _).symm.trans hsource)
    · have hsource := h.sniffedSource s hs _ (hrow _ (snifferFound_mem hs)) rfl
      exact (rosterSource_eq_iff _ _ (s.2.2.roleFile_fits _)).mp
        ((rosterSource_row s.2.1 _).symm.trans hsource)
  · intro h
    obtain ⟨haccepted, hfound⟩ := rosterCollectTables_accepted (t := t) r hbound
    have hzero := haccepted.mpr (t.found_names ▸ h.names)
    have hfound := hfound hzero
    have hnames : ((rosterCollectTables r t).1.want.map (·.name)).Perm (t.found.map (·.name)) := by
      have := hfound.rows.map (·.name)
      rwa [List.map_map] at this
    refine ⟨hzero, hnames.nodup_iff.mpr hfound.names,
      fun n => (hnames.mem_iff).trans (t.mem_found_names n), fun L hL w hw hname => ?_,
      fun w hw hstate => ?_, fun L hL w hw hname => ?_, fun s hs w hw hname => ?_⟩
    · rw [hfound.row_of_name (listenerFound_mem hL) hw hname]
      rfl
    · obtain ⟨f, hf, rfl⟩ := hfound.mem.mp hw
      simp only [RosterTables.found, List.mem_append, List.mem_map] at hf
      rcases hf with (⟨s, hs, rfl⟩ | ⟨L, hL, rfl⟩) | ⟨s, hs, rfl⟩
      · exact (rosterSource_row t.conf s.1).trans ((rosterSource_eq_iff _ _
          (t.conf.ignoreFile_fits s.1)).mpr (option_or_eq_right.mpr (h.ignored s hs)))
      · exact absurd hstate (listenerState_ne_ignored L)
      · exact absurd hstate (snifferState_ne_ignored s.1)
    · rw [hfound.row_of_name (listenerFound_mem hL) hw hname]
      exact (rosterSource_row t.conf _).trans ((rosterSource_eq_iff _ _
        (t.conf.roleFile_fits _)).mpr (option_or_eq_left.mpr (h.served L hL)))
    · rw [hfound.row_of_name (snifferFound_mem hs) hw hname]
      exact (rosterSource_row s.2.1 _).trans ((rosterSource_eq_iff _ _
        (s.2.2.roleFile_fits _)).mpr (h.sniffed s hs))

end

/-! ### Tables that are apart, and tables that are not -/

def eth0 : IfName := ⟨"eth0", by decide⟩
def eth1 : IfName := ⟨"eth1", by decide⟩
def eth2 : IfName := ⟨"eth2", by decide⟩

/-- A conf of one section. -/
def oneSection (keys : SegconfSeg) (hname : keys.name = txt "eth0")
    (hfits : keys.roleFile.length < reacSegconfFileLen ∧
      keys.ignoreFile.length < reacSegconfFileLen) : RosterConf where
  conf := { seg := [keys] }
  names := [eth0]
  spelled := congrArg ([·]) hname
  once := List.nodup_singleton eth0
  named := by
    intro n hn
    rw [List.mem_singleton.mp hn]
    decide
  fits := by
    intro s hs
    rw [List.mem_singleton.mp hs]
    exact hfits

/-- `ignore = yes` in the operator's file. -/
def switchedOff : RosterConf :=
  oneSection { name := txt "eth0", ignore := true, ignoreSet := true, ignoreFile := txt "reac-pw.conf" }
    rfl (by decide)

/-- And `role = master` in a drop-in besides. -/
def switchedOffPinned : RosterConf :=
  oneSection
    { name := txt "eth0", role := .master, roleSet := true,
      roleFile := txt "reac-pw.conf.d/role.conf", ignore := true, ignoreSet := true,
      ignoreFile := txt "reac-pw.conf" }
    rfl (by decide)

/-- `ignore = no`, and nothing else. -/
def switchedOn : RosterConf :=
  oneSection { name := txt "eth0", ignoreSet := true, ignoreFile := txt "reac-pw.conf" }
    rfl (by decide)

/-- A master with no box yet. -/
def masterOn (name : IfName) : RosterListener :=
  { opened := true, source := some name, ifaceBuf := name, instName := name, tap := false,
    doorOnly := false, doorVacant := false, joinBoxMaster := false, role := .master,
    boxModel := none, recognized := none, pinModel := none, wireChannels := 0,
    rolePinned := false, knockAnswered := true }

def quietWire (name : IfName) : RosterSniffer :=
  { name := name, knock := .listening, cycles := 0, sent := 0, edges := 0, host := false,
    heard := false }

/-- One segment switched off, one served, one listened to. -/
def threeSegments : RosterTables :=
  { conf := switchedOff, rereads := [], listeners := [masterOn eth1], hearing := true,
    sniffers := [quietWire eth1, quietWire eth2] }

theorem roster_tells_engines_three :
    RosterRight threeSegments (rosterCollectTables reacRosterInit threeSegments) :=
  (roster_tells_engines reacRosterInit threeSegments (by decide)).mpr
    ⟨by decide, by decide, by decide, by decide⟩

/-- A conf and one master on its segment. -/
def servedUnder (c : RosterConf) : RosterTables :=
  { conf := c, rereads := [], listeners := [masterOn eth0], hearing := true, sniffers := [] }

/-- A conf and nothing served. -/
def unservedUnder (c : RosterConf) : RosterTables :=
  { conf := c, rereads := [], listeners := [], hearing := true, sniffers := [] }

/-- The conf switched a served segment off: its engine's row is refused.  An ignored segment
names the file of its role; a segment with `ignore = no` names a file where nothing pinned
its role. -/
theorem roster_hides_engine :
    ¬ RosterRight (servedUnder switchedOff)
        (rosterCollectTables reacRosterInit (servedUnder switchedOff)) ∧
    ¬ RosterRight (unservedUnder switchedOffPinned)
        (rosterCollectTables reacRosterInit (unservedUnder switchedOffPinned)) ∧
    ¬ RosterRight (servedUnder switchedOn)
        (rosterCollectTables reacRosterInit (servedUnder switchedOn)) := by
  refine ⟨fun h => absurd h.accepted (by decide), fun h => ?_, fun h => ?_⟩
  · exact absurd (h.ignoredSource _ (List.mem_singleton.mpr rfl) rfl) (by decide)
  · exact absurd (h.engineSource (masterOn eth0) (List.mem_singleton.mpr rfl) _
      (List.mem_singleton.mpr rfl) rfl) (by decide)

end ReacPw
