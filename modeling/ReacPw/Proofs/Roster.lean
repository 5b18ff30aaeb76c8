/-
The node carries the roster that was committed.

Three copies are related: the rows a tick wants, the rows last published, and the
node's properties.  The node carries the published rows, key by key, and no other
roster key; a delta of a roster that did not shrink turns the first copy into the
second; and a roster that shrank never reaches the delta, since the node is rebuilt
first.

The count is the exception.  A delta names the count when the number of rows
changed, and a fresh node counts as having carried none, so a roster that is empty
on a fresh node is never counted there.  `Carries` says so, and `RendersRows`, what
a reader of the node is promised, follows from it for every other roster.
-/
import ReacPw.Lib.Run
import ReacPw.RosterNode

namespace ReacPw

/-! ### The keys -/

theorem fieldKey_inj {f g : RosterField} (h : fieldKey f = fieldKey g) : f = g := by
  revert h
  cases f <;> cases g <;> decide

theorem rosterKey_inj {i j : Nat} {f g : RosterField} (h : rosterKey i f = rosterKey j g) :
    i = j ∧ f = g := by
  obtain ⟨hi, hf⟩ := PropMap.groupKey_inj h
  exact ⟨hi, fieldKey_inj hf⟩

theorem rosterKey_root (i : Nat) (f : RosterField) :
    (rosterKey i f).toList.take 12 = "reac.roster.".toList := by
  have hroot : "reac.roster.".toList.length = 12 := by decide
  simp only [rosterKey, PropMap.groupKey, String.toList_append, List.append_assoc]
  rw [← hroot, List.take_left]

theorem rosterKey_ne_count (i : Nat) (f : RosterField) : rosterKey i f ≠ rosterCountKey := by
  intro h
  have hl := congrArg String.toList h
  have hcount : rosterCountKey.toList = "reac.roster.".toList ++ ['n'] := by decide
  rw [hcount] at hl
  simp only [rosterKey, PropMap.groupKey, String.toList_append, List.append_assoc,
    List.append_cancel_left_eq] at hl
  have hdot : '.' ∈ ['n'] := by
    rw [← hl]
    exact List.mem_append_right _ (List.mem_append_left _ (by decide))
  exact absurd hdot (by decide)

/-- Nothing the node is created with is a roster row's. -/
theorem createProps_rosterKey (i : Nat) (f : RosterField) :
    rosterCreateProps (rosterKey i f) = none := by
  refine PropMap.merge_of_not_mem (fun v hv => ?_) _
  have hroot := rosterKey_root i f
  simp only [List.mem_cons, Prod.mk.injEq, List.not_mem_nil, or_false] at hv
  obtain ⟨h, -⟩ | ⟨h, -⟩ | ⟨h, -⟩ | ⟨h, -⟩ := hv <;> rw [h] at hroot <;>
    exact absurd hroot (by decide)

theorem createProps_count : rosterCreateProps rosterCountKey = none := by decide

/-! ### The wanted rows -/

/-- The wanted rows are in strict byte order of their names, and fit the roster. -/
structure WantInv (want : List RosterSeg) : Prop where
  sorted : want.Pairwise fun a b => a.name.text < b.name.text
  few : want.length ≤ reacRosterMax

theorem mem_rosterInsert {s x : RosterSeg} :
    ∀ {l l' : List RosterSeg}, rosterInsert s l = some l' → x ∈ l' → x = s ∨ x ∈ l := by
  intro l
  induction l with
  | nil =>
      intro l' h hx
      cases h
      exact Or.inl (List.mem_singleton.mp hx)
  | cons w rest ih =>
      intro l' h hx
      rw [rosterInsert] at h
      by_cases heq : w.name.text = s.name.text
      · rw [if_pos heq] at h
        cases h
      rw [if_neg heq] at h
      by_cases hlt : s.name.text < w.name.text
      · rw [if_pos hlt] at h
        cases h
        exact List.mem_cons.mp hx
      rw [if_neg hlt] at h
      obtain ⟨rest', hrest, rfl⟩ := Option.map_eq_some_iff.mp h
      rcases List.mem_cons.mp hx with rfl | hx'
      · exact Or.inr (List.mem_cons_self ..)
      · exact (ih hrest hx').imp_right (List.mem_cons_of_mem _)

theorem rosterInsert_sorted {s : RosterSeg} :
    ∀ {l l' : List RosterSeg}, rosterInsert s l = some l' →
      (l.Pairwise fun a b => a.name.text < b.name.text) →
      (l'.Pairwise fun a b => a.name.text < b.name.text) ∧ l'.length = l.length + 1 := by
  intro l
  induction l with
  | nil =>
      intro l' h _
      cases h
      exact ⟨List.pairwise_singleton _ _, rfl⟩
  | cons w rest ih =>
      intro l' h hs
      obtain ⟨hw, hrest⟩ := List.pairwise_cons.mp hs
      rw [rosterInsert] at h
      by_cases heq : w.name.text = s.name.text
      · rw [if_pos heq] at h
        cases h
      rw [if_neg heq] at h
      by_cases hlt : s.name.text < w.name.text
      · rw [if_pos hlt] at h
        cases h
        refine ⟨List.pairwise_cons.mpr ⟨fun x hx => ?_, hs⟩, rfl⟩
        rcases List.mem_cons.mp hx with rfl | hx'
        · exact hlt
        · exact lt_trans hlt (hw x hx')
      rw [if_neg hlt] at h
      obtain ⟨rest', hins, rfl⟩ := Option.map_eq_some_iff.mp h
      obtain ⟨hsorted, hlen⟩ := ih hins hrest
      refine ⟨List.pairwise_cons.mpr ⟨fun x hx => ?_, hsorted⟩, by simp [hlen]⟩
      rcases mem_rosterInsert hins hx with rfl | hx'
      · exact lt_of_le_of_ne (not_lt.mp hlt) heq
      · exact hw x hx'

theorem reacRosterAdd_want {r : Roster} (h : WantInv r.want) (name : IfName)
    (state : RosterState) (model role source : String) (in_ out : Int) :
    WantInv (reacRosterAdd r name state model role source in_ out).1.want ∧
      (reacRosterAdd r name state model role source in_ out).1.pub = r.pub := by
  unfold reacRosterAdd
  split
  · exact ⟨h, rfl⟩
  · split
    · exact ⟨h, rfl⟩
    · rename_i hfew
      split
      · exact ⟨h, rfl⟩
      · rename_i want hins
        obtain ⟨hsorted, hlen⟩ := rosterInsert_sorted hins h.sorted
        refine ⟨⟨hsorted, ?_⟩, rfl⟩
        show want.length ≤ reacRosterMax
        omega

theorem reacRosterStatus_want {r : Roster} (h : WantInv r.want) (name : IfName)
    (status : String) : WantInv (reacRosterStatus r name status).want := by
  have hname : ∀ w : RosterSeg,
      (if w.name = name then { w with status := clip 112 status } else w).name = w.name := by
    intro w
    split <;> rfl
  refine ⟨?_, by simpa [reacRosterStatus] using h.few⟩
  refine List.pairwise_map.mpr (h.sorted.imp ?_)
  intro a b hab
  rw [hname, hname]
  exact hab

theorem rosterCollectOne_want {r : Roster} (h : WantInv r.want) (f : RosterFound) :
    WantInv (rosterCollectOne r f).want ∧ (rosterCollectOne r f).pub = r.pub := by
  have hadd := reacRosterAdd_want h f.name f.state f.model f.role f.source f.in_ f.out
  unfold rosterCollectOne
  split
  · rename_i r' heq
    rw [heq] at hadd
    split
    · exact hadd
    · exact ⟨reacRosterStatus_want hadd.1 _ _, hadd.2⟩
  · rename_i r' heq
    rw [heq] at hadd
    exact hadd

/-- **Collecting keeps the order at every step**, and touches nothing published. -/
theorem rosterCollect_want (r : Roster) (found : List RosterFound) :
    WantInv (rosterCollect r found).want ∧ (rosterCollect r found).pub = r.pub := by
  have hfold : ∀ (found : List RosterFound) (r' : Roster), WantInv r'.want → r'.pub = r.pub →
      WantInv (found.foldl rosterCollectOne r').want ∧
        (found.foldl rosterCollectOne r').pub = r.pub := by
    intro found
    induction found with
    | nil => intro r' h hp; exact ⟨h, hp⟩
    | cons f rest ih =>
        intro r' h hp
        obtain ⟨h', hp'⟩ := rosterCollectOne_want h f
        exact ih _ h' (hp'.trans hp)
  exact hfold found (reacRosterBegin r) ⟨List.Pairwise.nil, Nat.zero_le _⟩ rfl

/-! ### The delta -/

theorem mem_rowDelta {i : Nat} {w : RosterSeg} {p : Option RosterSeg} {e : RosterKv} :
    e ∈ rowDelta i w p ↔ ∃ f, p.map (fieldVal · f) ≠ some (fieldVal w f) ∧
      e = { key := rosterKey i f, val := fieldVal w f, remove := false } := by
  unfold rowDelta
  rw [List.mem_filterMap]
  constructor
  · rintro ⟨f, -, hf⟩
    by_cases hsame : p.map (fieldVal · f) = some (fieldVal w f)
    · rw [if_pos hsame] at hf
      cases hf
    · rw [if_neg hsame] at hf
      exact ⟨f, hsame, (Option.some.inj hf).symm⟩
  · rintro ⟨f, hne, rfl⟩
    exact ⟨f, by cases f <;> decide, if_neg hne⟩

/-- The delta of a roster that did not shrink: the count when it changed, and every
field that differs from the row published in its place. -/
theorem mem_rosterMoved {r : Roster} (hlen : r.pub.length ≤ r.want.length) {e : RosterKv} :
    e ∈ rosterMoved r ↔
      (r.want.length ≠ r.pub.length ∧
        e = { key := rosterCountKey, val := toString r.want.length, remove := false }) ∨
      ∃ i w f, r.want[i]? = some w ∧ (r.pub[i]?).map (fieldVal · f) ≠ some (fieldVal w f) ∧
        e = { key := rosterKey i f, val := fieldVal w f, remove := false } := by
  have hnone : r.pub.length - r.want.length = 0 := by omega
  rw [rosterMoved, hnone]
  simp only [List.range'_zero, List.flatMap_nil, List.append_nil, List.mem_append,
    List.mem_flatMap, mem_rowDelta]
  refine or_congr ?_ ?_
  · by_cases hne : r.want.length ≠ r.pub.length
    · rw [if_pos hne, List.mem_singleton]
      exact ⟨fun h => ⟨hne, h⟩, fun h => h.2⟩
    · rw [if_neg hne]
      exact ⟨fun h => absurd h (List.not_mem_nil), fun h => absurd h.1 hne⟩
  · constructor
    · rintro ⟨⟨w, i⟩, hwi, f, hne, rfl⟩
      exact ⟨i, w, f, List.mem_zipIdx_iff_getElem?.mp hwi, hne, rfl⟩
    · rintro ⟨i, w, f, hw, hne, rfl⟩
      exact ⟨(w, i), List.mem_zipIdx_iff_getElem?.mpr hw, f, hne, rfl⟩

theorem length_flatMap_le {α β : Type} (k : Nat) (f : α → List β) (hf : ∀ x, (f x).length ≤ k) :
    ∀ l : List α, (l.flatMap f).length ≤ k * l.length := by
  intro l
  induction l with
  | nil => simp
  | cons x rest ih =>
      have hx := hf x
      simp only [List.flatMap_cons, List.length_append, List.length_cons, Nat.mul_add,
        Nat.mul_one]
      omega

/-- **A delta always fits.** -/
theorem rosterMoved_length (r : Roster) (hw : r.want.length ≤ reacRosterMax)
    (hp : r.pub.length ≤ reacRosterMax) : (rosterMoved r).length ≤ reacRosterKvMax := by
  have hrows := length_flatMap_le 7 (fun wi : RosterSeg × Nat => rowDelta wi.2 wi.1 r.pub[wi.2]?)
    (fun wi => List.length_filterMap_le _ _) r.want.zipIdx
  have hleft := length_flatMap_le 7 rowRemovals (fun i => by simp [rowRemovals, RosterField.all])
    (List.range' r.want.length (r.pub.length - r.want.length))
  rw [List.length_zipIdx] at hrows
  rw [List.length_range'] at hleft
  have hcount : (if r.want.length ≠ r.pub.length then
      [({ key := rosterCountKey, val := toString r.want.length, remove := false } : RosterKv)]
      else []).length ≤ 1 := by
    split <;> simp
  have hmax : reacRosterKvMax = 225 := by decide
  have h32 : reacRosterMax = 32 := rfl
  rw [rosterMoved, List.length_append, List.length_append]
  omega

/-! ### What the node carries -/

/-- The roster's keys on a node are exactly the rows: their number, the seven fields of
each, and nothing of any other index.  Every other key is as the node was created. -/
structure RendersRows (rows : List RosterSeg) (m : PropMap String String) : Prop where
  count : m rosterCountKey = some (toString rows.length)
  field : ∀ i f, m (rosterKey i f) = (rows[i]?).map (fieldVal · f)
  other : ∀ k, k ≠ rosterCountKey → (∀ i f, k ≠ rosterKey i f) → m k = rosterCreateProps k

/-- What a node carries of the published rows: all of it, but no count of none. -/
structure Carries (rows : List RosterSeg) (m : PropMap String String) : Prop where
  count : m rosterCountKey = if rows = [] then none else some (toString rows.length)
  field : ∀ i f, m (rosterKey i f) = (rows[i]?).map (fieldVal · f)
  other : ∀ k, k ≠ rosterCountKey → (∀ i f, k ≠ rosterKey i f) → m k = rosterCreateProps k

theorem carries_fresh : Carries [] rosterCreateProps where
  count := createProps_count
  field i f := createProps_rosterKey i f
  other _ _ _ := rfl

theorem Carries.renders_iff {rows : List RosterSeg} {m : PropMap String String}
    (h : Carries rows m) : RendersRows rows m ↔ rows ≠ [] := by
  constructor
  · rintro hr rfl
    have hcount := hr.count
    rw [h.count, if_pos rfl] at hcount
    cases hcount
  · intro hne
    exact ⟨by rw [h.count, if_neg hne], h.field, h.other⟩

/-! ### Publishing a delta -/

/-- The sets of a delta, by key. -/
def movedSets (r : Roster) : List (String × String) :=
  (rosterMoved r).map fun e => (e.key, e.val)

/-- What a set of the delta says, by its key. -/
theorem mem_movedSets {r : Roster} (hlen : r.pub.length ≤ r.want.length) {k v : String} :
    (k, v) ∈ movedSets r ↔
      (r.want.length ≠ r.pub.length ∧ k = rosterCountKey ∧ v = toString r.want.length) ∨
      ∃ i w f, r.want[i]? = some w ∧ (r.pub[i]?).map (fieldVal · f) ≠ some (fieldVal w f) ∧
        k = rosterKey i f ∧ v = fieldVal w f := by
  unfold movedSets
  rw [List.mem_map]
  constructor
  · rintro ⟨e, he, hek⟩
    obtain ⟨rfl, rfl⟩ := Prod.mk.inj hek
    rcases (mem_rosterMoved hlen).mp he with ⟨hdiff, rfl⟩ | ⟨i, w, f, hw, hf, rfl⟩
    · exact Or.inl ⟨hdiff, rfl, rfl⟩
    · exact Or.inr ⟨i, w, f, hw, hf, rfl, rfl⟩
  · rintro (⟨hdiff, rfl, rfl⟩ | ⟨i, w, f, hw, hf, rfl, rfl⟩)
    · exact ⟨_, (mem_rosterMoved hlen).mpr (Or.inl ⟨hdiff, rfl⟩), rfl⟩
    · exact ⟨_, (mem_rosterMoved hlen).mpr (Or.inr ⟨i, w, f, hw, hf, rfl⟩), rfl⟩

theorem mem_movedSets_count {r : Roster} (hlen : r.pub.length ≤ r.want.length) {v : String} :
    (rosterCountKey, v) ∈ movedSets r ↔
      r.want.length ≠ r.pub.length ∧ v = toString r.want.length := by
  rw [mem_movedSets hlen]
  constructor
  · rintro (⟨hdiff, -, hv⟩ | ⟨i, w, f, -, -, hk, -⟩)
    · exact ⟨hdiff, hv⟩
    · exact absurd hk.symm (rosterKey_ne_count i f)
  · rintro ⟨hdiff, hv⟩
    exact Or.inl ⟨hdiff, rfl, hv⟩

theorem mem_movedSets_field {r : Roster} (hlen : r.pub.length ≤ r.want.length) {i : Nat}
    {f : RosterField} {v : String} :
    (rosterKey i f, v) ∈ movedSets r ↔
      ∃ w, r.want[i]? = some w ∧ (r.pub[i]?).map (fieldVal · f) ≠ some (fieldVal w f) ∧
        v = fieldVal w f := by
  rw [mem_movedSets hlen]
  constructor
  · rintro (⟨-, hk, -⟩ | ⟨j, w, g, hw, hdiff, hk, hv⟩)
    · exact absurd hk (rosterKey_ne_count i f)
    · obtain ⟨rfl, rfl⟩ := rosterKey_inj hk
      exact ⟨w, hw, hdiff, hv⟩
  · rintro ⟨w, hw, hdiff, hv⟩
    exact Or.inr ⟨i, w, f, hw, hdiff, rfl, hv⟩

/-- The count is right after the sets of the delta. -/
theorem merged_count {r : Roster} {m : PropMap String String} (h : Carries r.pub m)
    (hlen : r.pub.length ≤ r.want.length) :
    m.merge (movedSets r) rosterCountKey =
      if r.want = [] then none else some (toString r.want.length) := by
  by_cases hdiff : r.want.length = r.pub.length
  · rw [PropMap.merge_of_not_mem fun v hv => ((mem_movedSets_count hlen).mp hv).1 hdiff, h.count]
    by_cases hw : r.want = []
    · have hp : r.pub = [] := List.length_eq_zero_iff.mp (by rw [← hdiff, hw]; rfl)
      rw [if_pos hw, if_pos hp]
    · have hp : r.pub ≠ [] := by
        intro hp
        exact hw (List.length_eq_zero_iff.mp (by rw [hdiff, hp]; rfl))
      rw [if_neg hw, if_neg hp, hdiff]
  · have hw : r.want ≠ [] := by
      intro hw
      rw [hw] at hlen hdiff
      exact hdiff (Nat.le_antisymm (Nat.zero_le _) hlen)
    rw [if_neg hw]
    exact PropMap.merge_of_mem ((mem_movedSets_count hlen).mpr ⟨hdiff, rfl⟩)
      (fun v hv => ((mem_movedSets_count hlen).mp hv).2) m

/-- And so is every field. -/
theorem merged_field {r : Roster} {m : PropMap String String} (h : Carries r.pub m)
    (hlen : r.pub.length ≤ r.want.length) (i : Nat) (f : RosterField) :
    m.merge (movedSets r) (rosterKey i f) = (r.want[i]?).map (fieldVal · f) := by
  cases hw : r.want[i]? with
  | none =>
      have hp : r.pub[i]? = none := by
        rw [List.getElem?_eq_none_iff] at hw ⊢
        omega
      rw [PropMap.merge_of_not_mem, h.field, hp]
      intro v hv
      obtain ⟨w, hw', -⟩ := (mem_movedSets_field hlen).mp hv
      rw [hw] at hw'
      cases hw'
  | some w =>
      have hown : ∀ v, (rosterKey i f, v) ∈ movedSets r →
          (r.pub[i]?).map (fieldVal · f) ≠ some (fieldVal w f) ∧ v = fieldVal w f := by
        intro v hv
        obtain ⟨w', hw', hdiff, hv'⟩ := (mem_movedSets_field hlen).mp hv
        rw [hw] at hw'
        cases hw'
        exact ⟨hdiff, hv'⟩
      by_cases hsame : (r.pub[i]?).map (fieldVal · f) = some (fieldVal w f)
      · rw [PropMap.merge_of_not_mem fun v hv => (hown v hv).1 hsame, h.field, hsame]
        rfl
      · exact PropMap.merge_of_mem ((mem_movedSets_field hlen).mpr ⟨w, hw, hsame, rfl⟩)
          (fun v hv => (hown v hv).2) m

/-- **A delta turns the published rows into the wanted ones**, on a node that carries
the first. -/
theorem Carries.publish {r : Roster} {m m' : PropMap String String} {allocOk : Bool}
    (h : Carries r.pub m) (hlen : r.pub.length ≤ r.want.length) (hne : rosterMoved r ≠ [])
    (hpub : reacRosterNodePublish m (rosterMoved r) allocOk = some m') : Carries r.want m' := by
  have hm' : m' = m.merge (movedSets r) := by
    rw [reacRosterNodePublish, if_neg hne] at hpub
    split at hpub
    · cases hpub
    · split at hpub
      · cases hpub
      · exact (Option.some.inj hpub).symm
  rw [hm']
  refine ⟨merged_count h hlen, merged_field h hlen, fun k hk hkey => ?_⟩
  rw [PropMap.merge_of_not_mem, h.other k hk hkey]
  intro v hv
  rcases (mem_movedSets hlen).mp hv with ⟨-, hkc, -⟩ | ⟨i, w, f, -, -, hki, -⟩
  · exact hk hkc
  · exact hkey i f hki

end ReacPw
