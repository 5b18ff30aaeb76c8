/-
What the trunk's verdict says about the cable.

A log beside the hearing tells each tap's life: when it was opened, on which interface,
and every frame it has read since.  In every run the verdict is the table's word while no
tap is open, and otherwise the table's word while the last tagged frame of the tap's own
interface, or its opening when there was none, is less than a window ago.

A role is elected on a parent when the tables say so (`Elected`): the wire is handed over
to be served, or a listener comes up on it.  A hunt asks the verdict before it hands a
wire over, and what the poll then serves is what that hunt asked about, unless a change of
the tap overtakes the event.  Two places serve a wire again without asking.  The end of
the poll walks the taps, and so leaves what is opened on a parent that lost its own.
-/
import ReacPw.Topo
import ReacPw.Proofs.Placed
import Mathlib.Data.Option.Basic

namespace ReacPw

/-! ### The life of a tap -/

/-- A tap since it was opened. -/
structure TapLife where
  openedNs : UInt64
  ifindex : Nat
  /-- Every frame it has read, oldest first, and when. -/
  reads : List (TopoFrame × UInt64)

/-- A tagged REAC frame, come in on the tap's own interface. -/
def TapLife.tags (life : TapLife) (r : TopoFrame × UInt64) : Bool :=
  decide (r.1.ifindex = life.ifindex) && !r.1.outgoing && decide (r.1.kind = .tagged)

def TapLife.lastTagged (life : TapLife) : Option UInt64 :=
  (life.reads.filter life.tags).getLast?.map (·.2)

/-- When the cable last proved itself: the last tagged frame, or the opening when none was
read yet. -/
def TapLife.provedNs (life : TapLife) : UInt64 := life.lastTagged.getD life.openedNs

def TapLog.tell (parent : String) (life : Option TapLife) : TapLog → Option TapLife
  | .opened p ifindex now =>
      if p = parent then some { openedNs := now, ifindex := ifindex, reads := [] } else life
  | .closed p => if p = parent then none else life
  | .read p f now =>
      if p = parent then life.map fun l => { l with reads := l.reads ++ [(f, now)] } else life

/-- The life of a parent's tap, if it has one open. -/
def tapLife (log : List TapLog) (parent : String) : Option TapLife :=
  log.foldl (TapLog.tell parent) none

/-- Less than a window ago, or still to come. -/
def Within (windowNs t now : UInt64) : Prop := now.toNat < t.toNat + windowNs.toNat

instance (windowNs t now : UInt64) : Decidable (Within windowNs t now) :=
  inferInstanceAs (Decidable (_ < _))

section
variable {τ : Type*} (T : TopoApi τ) (windowNs : UInt64)

/-- The cable of a parent is a trunk's: the table says so, and its tap, if it has one open,
has proved it of late. -/
def CableTrunk (table : τ) (log : List TapLog) (parent : String) (now : UInt64) : Prop :=
  T.isTrunk table parent = true ∧
    ∀ life ∈ tapLife log parent, Within windowNs life.provedNs now

instance (table : τ) (log : List TapLog) (parent : String) (now : UInt64) :
    Decidable (CableTrunk T windowNs table log parent now) :=
  inferInstanceAs (Decidable (_ ∧ _))

end

theorem tapLife_append (log more : List TapLog) (parent : String) :
    tapLife (log ++ more) parent = more.foldl (TapLog.tell parent) (tapLife log parent) :=
  List.foldl_append

/-- Reads are told to the life of their own parent's tap only. -/
theorem tell_reads (p parent : String) (now : UInt64) (frames : List TopoFrame) :
    ∀ life : Option TapLife,
      (frames.map fun f => TapLog.read p f now).foldl (TapLog.tell parent) life =
        if p = parent then
          life.map fun l => { l with reads := l.reads ++ frames.map fun f => (f, now) }
        else life := by
  induction frames with
  | nil => intro life; cases life <;> simp
  | cons f rest ih =>
      intro life
      rw [List.map_cons, List.foldl_cons, ih]
      by_cases hp : p = parent
      · cases life <;> simp [TapLog.tell, hp]
      · simp [TapLog.tell, hp]

theorem lastTagged_read (life : TapLife) (f : TopoFrame) (now : UInt64) :
    TapLife.lastTagged { life with reads := life.reads ++ [(f, now)] } =
      if life.tags (f, now) then some now else life.lastTagged := by
  have htags : ({ life with reads := life.reads ++ [(f, now)] } : TapLife).tags = life.tags := rfl
  unfold TapLife.lastTagged
  rw [htags, List.filter_append]
  cases h : life.tags (f, now) with
  | true => simp [h]
  | false => simp [h]

/-! ### What a tap's stamps are -/

/-- A tap's stamps are its life's. -/
structure StampsTell (clock : Nat) (tap : TopoTap) (life : TapLife) : Prop where
  ifindex : tap.ifindex = life.ifindex
  linkup : tap.linkupNs = life.openedNs
  stamp : tap.lastTaggedNs = life.lastTagged.getD 0
  opened : life.openedNs.toNat ≤ clock
  tagged : ∀ t, life.lastTagged = some t → life.openedNs.toNat ≤ t.toNat

theorem StampsTell.later {clock clock' : Nat} {tap : TopoTap} {life : TapLife}
    (h : StampsTell clock tap life) (hle : clock ≤ clock') : StampsTell clock' tap life :=
  { h with opened := Nat.le_trans h.opened hle }

/-- Stamps that tell go on telling as the clock runs. -/
theorem stampsTell_later {clock clock' : Nat} (hle : clock ≤ clock') {tap : Option TopoTap}
    {life : Option TapLife} (h : Option.Rel (StampsTell clock) tap life) :
    Option.Rel (StampsTell clock') tap life := by
  cases h with
  | some hstamps => exact .some (hstamps.later hle)
  | none => exact .none

/-- A compare that cannot wrap. -/
theorem within_iff {windowNs t now : UInt64} (hwindow : 0 < windowNs.toNat) :
    (if now ≤ t then true else decide (now - t < windowNs)) = true ↔ Within windowNs t now := by
  unfold Within
  by_cases hle : now ≤ t
  · rw [if_pos hle]
    have hle' := UInt64.le_iff_toNat_le.mp hle
    simp only [true_iff]
    omega
  · rw [if_neg hle, decide_eq_true_eq, UInt64.lt_iff_toNat_lt]
    have hlt : t.toNat < now.toNat := by
      rw [UInt64.le_iff_toNat_le] at hle
      omega
    rw [UInt64.toNat_sub_of_le _ _ (UInt64.le_iff_toNat_le.mpr (Nat.le_of_lt hlt))]
    omega

/-- **A tap's verdict, by its life.**  A tag read at the clock's own 0 leaves no stamp, and
then the tap was opened at 0 as well. -/
theorem fresh_iff {windowNs now : UInt64} (hwindow : 0 < windowNs.toNat) {clock : Nat}
    {tap : TopoTap} {life : TapLife} (h : StampsTell clock tap life) :
    tap.fresh windowNs now = true ↔ Within windowNs life.provedNs now := by
  unfold TopoTap.fresh TapLife.provedNs
  rw [h.linkup, h.stamp]
  cases hlast : life.lastTagged with
  | none =>
      rw [Option.getD_none, Option.getD_none, if_neg (by simp)]
      exact within_iff hwindow
  | some t =>
      rw [Option.getD_some, Option.getD_some]
      by_cases hzero : t = 0
      · have hopened : life.openedNs = t := by
          have hle := h.tagged t hlast
          rw [hzero] at hle ⊢
          exact UInt64.toNat_inj.mp (Nat.le_zero.mp hle)
        rw [if_neg (by simp [hzero]), hopened]
        exact within_iff hwindow
      · rw [if_pos hzero]
        exact within_iff hwindow

section
variable {τ : Type*} {m : Nat} (T : TopoApi τ)

/-- One frame: the stamps go on telling. -/
theorem topoRead_tells {clock : Nat} {now : UInt64} {tap : TopoTap} {life : TapLife} (table : τ)
    (f : TopoFrame) (h : StampsTell clock tap life) (hle : clock ≤ now.toNat) :
    (topoRead T now (tap, table) f).1.parent = tap.parent ∧
      StampsTell now.toNat (topoRead T now (tap, table) f).1
        { life with reads := life.reads ++ [(f, now)] } := by
  have hopened : life.openedNs.toNat ≤ now.toNat := Nat.le_trans h.opened hle
  have hlast := lastTagged_read life f now
  have hevidence : tap.evidence f = (decide (f.ifindex = life.ifindex) && !f.outgoing) := by
    rw [TopoTap.evidence, h.ifindex]
    rfl
  have hkept : life.tags (f, now) = false → StampsTell now.toNat tap
      { life with reads := life.reads ++ [(f, now)] } := by
    intro htags
    rw [htags, if_neg Bool.false_ne_true] at hlast
    exact ⟨h.ifindex, h.linkup, by rw [hlast]; exact h.stamp, hopened, by rw [hlast]; exact h.tagged⟩
  unfold topoRead
  dsimp only
  by_cases hev : tap.evidence f = true
  · rw [if_neg (by simp [hev])]
    by_cases hkind : f.kind = .tagged
    · have htags : life.tags (f, now) = true := by
        rw [TapLife.tags, ← hevidence, hev, decide_eq_true hkind]
        rfl
      rw [htags, if_pos rfl] at hlast
      rw [if_pos hkind]
      refine ⟨rfl, h.ifindex, h.linkup, by rw [hlast]; rfl, hopened, ?_⟩
      intro t ht
      rw [hlast] at ht
      exact Option.some.inj ht ▸ hopened
    · rw [if_neg hkind]
      exact ⟨rfl, hkept (by simp [TapLife.tags, hkind])⟩
  · rw [if_pos (by simp [hev])]
    refine ⟨rfl, hkept ?_⟩
    rw [TapLife.tags, ← hevidence]
    simp [hev]

/-- A whole callback. -/
theorem topoReads_tell {now : UInt64} (frames : List TopoFrame) :
    ∀ {clock : Nat} {tap : TopoTap} {life : TapLife} (table : τ),
      StampsTell clock tap life → clock ≤ now.toNat →
      (frames.foldl (topoRead T now) (tap, table)).1.parent = tap.parent ∧
        StampsTell now.toNat (frames.foldl (topoRead T now) (tap, table)).1
          { life with reads := life.reads ++ frames.map fun f => (f, now) } := by
  induction frames with
  | nil =>
      intro clock tap life table h hle
      simpa using h.later hle
  | cons f rest ih =>
      intro clock tap life table h hle
      obtain ⟨hparent, hfirst⟩ := topoRead_tells T table f h hle
      obtain ⟨hparent', hrest⟩ := ih (topoRead T now (tap, table) f).2 hfirst (Nat.le_refl _)
      refine ⟨hparent'.trans hparent, ?_⟩
      simpa using hrest

/-- A frame that is no tag of this cable's leaves the stamps alone. -/
theorem topoReads_idle {now : UInt64} {tap : TopoTap} (frames : List TopoFrame)
    (hidle : ∀ f ∈ frames, tap.evidence f = true → f.kind ≠ .tagged) :
    ∀ table : τ, (frames.foldl (topoRead T now) (tap, table)).1 = tap := by
  induction frames with
  | nil => intro table; rfl
  | cons f rest ih =>
      intro table
      have hfirst : (topoRead T now (tap, table) f).1 = tap := by
        unfold topoRead
        dsimp only
        split
        · rfl
        · rename_i hev
          rw [if_neg (hidle f List.mem_cons_self (by simpa using hev))]
      rw [List.foldl_cons]
      generalize topoRead T now (tap, table) f = st at hfirst ⊢
      obtain ⟨tap', table'⟩ := st
      obtain rfl : tap' = tap := hfirst
      exact ih (fun g hg => hidle g (List.mem_cons_of_mem f hg)) table'

theorem onTopoIo_idle {t : Topo τ m} {i : Fin m} {tap : TopoTap} (htap : t.taps i = some tap)
    {frames : List TopoFrame} {now : UInt64}
    (hidle : ∀ f ∈ frames, tap.evidence f = true → f.kind ≠ .tagged) :
    (onTopoIo T t i frames now).taps = t.taps := by
  unfold onTopoIo
  rw [htap]
  show Function.update t.taps i (some _) = t.taps
  rw [topoReads_idle T _ (fun f hf => hidle f (List.mem_of_mem_take hf)), ← htap,
    Function.update_eq_self]

/-! ### The taps, and the log beside them -/

/-- Every tap's stamps are what the log tells, and what has no tap has no life. -/
structure TapsTold (clock : Nat) (t : Topo τ m) (log : List TapLog) : Prop where
  distinct : Slots.Distinct TopoTap.parent t.taps
  told : ∀ parent, Option.Rel (StampsTell clock) (t.tapOf parent) (tapLife log parent)

variable {T}

theorem TapsTold.later {clock clock' : Nat} {t t' : Topo τ m} {log : List TapLog}
    (h : TapsTold clock t log) (hle : clock ≤ clock') (htaps : t'.taps = t.taps) :
    TapsTold clock' t' log := by
  refine ⟨htaps ▸ h.distinct, fun parent => ?_⟩
  have hsame : t'.tapOf parent = t.tapOf parent := by rw [Topo.tapOf, htaps, Topo.tapOf]
  rw [hsame]
  exact stampsTell_later hle (h.told parent)

/-- The taps move at one parent, and the log tells that one's new life. -/
theorem TapsTold.move {clock clock' : Nat} {t t' : Topo τ m} {log more : List TapLog}
    (h : TapsTold clock t log) (hle : clock ≤ clock')
    (hdistinct : Slots.Distinct TopoTap.parent t'.taps) (name : String) (tap : Option TopoTap)
    (hmoves : ∀ k, t'.tapOf k = if k = name then tap else t.tapOf k)
    (hnew : Option.Rel (StampsTell clock') tap (tapLife (log ++ more) name))
    (hlog : ∀ k, k ≠ name → tapLife (log ++ more) k = tapLife log k) :
    TapsTold clock' t' (log ++ more) := by
  refine ⟨hdistinct, fun k => ?_⟩
  rw [hmoves]
  by_cases hk : k = name
  · rw [if_pos hk, hk]
    exact hnew
  · rw [if_neg hk, hlog k hk]
    exact stampsTell_later hle (h.told k)

theorem TapsTold.io {clock : Nat} {t : Topo τ m} {log : List TapLog} (h : TapsTold clock t log)
    {i : Fin m} {tap : TopoTap} (htap : t.taps i = some tap) (frames : List TopoFrame)
    {now : UInt64} (hle : clock ≤ now.toNat) :
    TapsTold now.toNat (onTopoIo T t i frames now)
      (log ++ (frames.take topoReadMax).map fun f => .read tap.parent f now) := by
  have hentry : t.tapOf tap.parent = some tap := h.distinct.entry htap
  have htold := h.told tap.parent
  rw [hentry] at htold
  cases hlife : tapLife log tap.parent with
  | none => rw [hlife] at htold; cases htold
  | some life =>
      rw [hlife] at htold
      obtain ⟨hparent, hstamps⟩ : _ ∧ _ := by
        cases htold with
        | some hstamps => exact topoReads_tell T (frames.take topoReadMax) t.table hstamps hle
      obtain ⟨hdistinct, hmoves⟩ := h.distinct.put (i := i)
        (a := ((frames.take topoReadMax).foldl (topoRead T now) (tap, t.table)).1)
        (fun old hold => by rw [hparent, Option.some.inj (hold.symm.trans htap)])
        (fun j b hj hb hkey => hj (h.distinct j i b tap hb htap (hkey.trans hparent)))
      have hio : (onTopoIo T t i frames now).taps = Function.update t.taps i
          (some ((frames.take topoReadMax).foldl (topoRead T now) (tap, t.table)).1) := by
        unfold onTopoIo
        rw [htap]
        rfl
      refine h.move hle (hio ▸ hdistinct) tap.parent
        (some ((frames.take topoReadMax).foldl (topoRead T now) (tap, t.table)).1)
        (fun k => ?_) ?_ fun k hk => ?_
      · rw [Topo.tapOf, hio, hmoves, hparent]
        rfl
      · rw [tapLife_append, tell_reads, if_pos rfl, hlife]
        exact .some hstamps
      · rw [tapLife_append, tell_reads, if_neg (Ne.symm hk)]

theorem TapsTold.close {clock clock' : Nat} {t : Topo τ m} {log : List TapLog}
    (h : TapsTold clock t log) (hle : clock ≤ clock') (name : String) :
    TapsTold clock' (topoUnwatchIface t name) (log ++ [.closed name]) := by
  have hlog : ∀ k, k ≠ name → tapLife (log ++ [.closed name]) k = tapLife log k := by
    intro k hk
    rw [tapLife_append]
    exact if_neg (Ne.symm hk)
  have hgone : tapLife (log ++ [.closed name]) name = none := by
    rw [tapLife_append]
    exact if_pos rfl
  unfold topoUnwatchIface
  cases hfound : tapFind t name with
  | none =>
      refine h.move hle h.distinct name none (fun k => ?_) (hgone ▸ .none) hlog
      by_cases hk : k = name
      · rw [if_pos hk, hk, Topo.tapOf, Slots.entry, show Slots.find _ _ _ = none from hfound]
        rfl
      · rw [if_neg hk]
  | some i =>
      obtain ⟨tap, htap, rfl⟩ := Slots.find_some hfound
      obtain ⟨hdistinct, hmoves⟩ := h.distinct.clear htap
      exact h.move hle hdistinct tap.parent none hmoves (hgone ▸ .none) hlog

/-- An open leaves the taps alone, or puts a young one on an interface that had none. -/
theorem topoWatchIface_cases (t : Topo τ m) (name : String) (a : WatchAnswers) (now : UInt64) :
    (topoWatchIface T t name a now).taps = t.taps ∨
      tapFind t name = none ∧ ∃ i, t.taps i = none ∧
        (topoWatchIface T t name a now).taps = Function.update t.taps i (some
          { parent := name, ifindex := a.ifindex, linkupNs := now, lastTaggedNs := 0 }) := by
  unfold topoWatchIface
  split
  · exact Or.inl rfl
  · rename_i hfree
    simp only [Bool.or_eq_true, not_or] at hfree
    cases hslot : Slots.free t.taps with
    | none => exact Or.inl rfl
    | some i =>
        dsimp only
        split
        · exact Or.inl rfl
        · split
          · exact Or.inl rfl
          · split
            · exact Or.inl rfl
            · exact Or.inr ⟨by simpa using hfree.1.1, i, Slots.free_some hslot, rfl⟩

theorem tapOf_of_find {t : Topo τ m} {name : String} (hfound : tapFind t name = none) :
    t.tapOf name = none := by
  rw [Topo.tapOf, Slots.entry, show Slots.find _ _ _ = none from hfound]
  rfl

theorem TapsTold.watch {clock : Nat} {t : Topo τ m} {log : List TapLog} (h : TapsTold clock t log)
    (name : String) (a : WatchAnswers) {now : UInt64} (hle : clock ≤ now.toNat) :
    TapsTold now.toNat (topoWatchIface T t name a now)
      (log ++ tapOpened t (topoWatchIface T t name a now) name now) := by
  rcases topoWatchIface_cases (T := T) t name a now with htaps | ⟨hnone, i, hfree, htaps⟩
  · have hsame : (topoWatchIface T t name a now).tapOf name = t.tapOf name := by
      rw [Topo.tapOf, htaps, Topo.tapOf]
    have hnothing : tapOpened t (topoWatchIface T t name a now) name now = [] := by
      unfold tapOpened
      rw [hsame]
      cases t.tapOf name <;> rfl
    rw [hnothing, List.append_nil]
    exact h.later hle htaps
  · generalize topoWatchIface T t name a now = t' at htaps ⊢
    obtain ⟨hdistinct, hmoves⟩ := h.distinct.put (i := i)
      (a := { parent := name, ifindex := a.ifindex, linkupNs := now, lastTaggedNs := 0 })
      (fun old hold => absurd (hfree.symm.trans hold) (by simp))
      (fun j b _ hb => Slots.find_none hnone hb)
    rw [← htaps] at hdistinct hmoves
    have hopened : tapOpened t t' name now = [.opened name a.ifindex now] := by
      unfold tapOpened
      rw [tapOf_of_find hnone, Topo.tapOf, hmoves, if_pos rfl]
    rw [hopened]
    refine h.move hle hdistinct name _ hmoves ?_ fun k hk => ?_
    · rw [tapLife_append]
      show Option.Rel _ _ (if name = name then _ else _)
      rw [if_pos rfl]
      exact .some ⟨rfl, rfl, rfl, Nat.le_refl _, fun t ht => absurd ht (by simp [TapLife.lastTagged])⟩
    · rw [tapLife_append]
      exact if_neg (Ne.symm hk)

/-! ### The verdict -/

/-- **The verdict is the cable's**, wherever the taps' stamps are told. -/
theorem topoTrunkNow_iff {windowNs : UInt64} (hwindow : 0 < windowNs.toNat) {clock : Nat}
    {t : Topo τ m} {log : List TapLog} (h : TapsTold clock t log) (parent : String) (now : UInt64) :
    topoTrunkNow T windowNs t parent now = true ↔
      CableTrunk T windowNs t.table log parent now := by
  unfold topoTrunkNow CableTrunk
  cases htrunk : T.isTrunk t.table parent with
  | false => simp
  | true =>
      rw [if_neg (by simp)]
      have htold := h.told parent
      generalize t.tapOf parent = tap, tapLife log parent = life at htold ⊢
      cases htold with
      | some hstamps => simpa using fresh_iff hwindow hstamps
      | none => simp

/-- The verdict reads the taps and which parents are trunks. -/
theorem topoTrunkNow_congr (windowNs : UInt64) {t t' : Topo τ m} (htaps : t'.taps = t.taps)
    (htrunks : T.SameTrunks t.table t'.table) (parent : String) (now : UInt64) :
    topoTrunkNow T windowNs t' parent now = topoTrunkNow T windowNs t parent now := by
  unfold topoTrunkNow Topo.tapOf
  rw [htrunks parent, htaps]

end

/-! ### The end of a poll -/

section
variable {σ τ : Type*} {n m : Nat} {T : TopoApi τ} (windowNs : UInt64)

theorem TopoApi.SameTrunks.refl (t : τ) : T.SameTrunks t t := fun _ => rfl

theorem TopoApi.SameTrunks.trans {t t' t'' : τ} (h : T.SameTrunks t t')
    (h' : T.SameTrunks t' t'') : T.SameTrunks t t'' :=
  fun parent => (h' parent).trans (h parent)

/-- Listeners close, and neither the taps nor the trunks change. -/
structure OnlyDrops (T : TopoApi τ) (d d' : Trunks σ τ n m) : Prop where
  taps : d'.topo.taps = d.topo.taps
  trunks : T.SameTrunks d.topo.table d'.topo.table
  enabled : d'.hear.enabled = d.hear.enabled
  scan : d'.hear.scan = d.hear.scan
  listeners : ∀ j, d'.hear.listeners j = d.hear.listeners j ∨
    (d'.hear.listeners j).opened = false

theorem OnlyDrops.refl (d : Trunks σ τ n m) : OnlyDrops T d d :=
  ⟨rfl, .refl _, rfl, rfl, fun _ => Or.inl rfl⟩

theorem OnlyDrops.trans {d d' d'' : Trunks σ τ n m} (h : OnlyDrops T d d')
    (h' : OnlyDrops T d' d'') : OnlyDrops T d d'' := by
  refine ⟨h'.taps.trans h.taps, h.trunks.trans h'.trunks, h'.enabled.trans h.enabled,
    h'.scan.trans h.scan, fun j => ?_⟩
  rcases h'.listeners j with hsame | hclosed
  · rw [hsame]
    exact h.listeners j
  · exact Or.inr hclosed

theorem OnlyDrops.stays {d d' : Trunks σ τ n m} (h : OnlyDrops T d d') (j : Fin n) :
    StaysPut (d.hear.listeners j) (d'.hear.listeners j) := by
  rcases h.listeners j with hsame | hclosed
  · rw [hsame]
    exact .refl _
  · exact staysPut_closed hclosed

theorem OnlyDrops.placed {d d' : Trunks σ τ n m} (h : OnlyDrops T d d') (hp : Placed d.hear) :
    Placed d'.hear :=
  hp.stay h.enabled h.stays

theorem topoApplyTap_onlyDrops (hT : T.Lawful) (now : UInt64) (d : Trunks σ τ n m) (i : Fin m) :
    OnlyDrops T d (topoApplyTap T windowNs now d i) := by
  unfold topoApplyTap
  split
  · exact .refl d
  · rename_i tap _
    split
    · exact .refl d
    · refine ⟨rfl, hT.untaggedOnTrunk _ _, hearingDrop_enabled _ _, hearingDrop_scan _ _,
        fun j => ?_⟩
      rcases hearingDrop_slot d.hear tap.parent j with hsame | ⟨-, hdropped⟩
      · exact Or.inl hsame
      · exact Or.inr (by rw [hdropped]; rfl)

theorem topoApplyTaps_onlyDrops (hT : T.Lawful) (now : UInt64) (slots : List (Fin m)) :
    ∀ d : Trunks σ τ n m, OnlyDrops T d (slots.foldl (topoApplyTap T windowNs now) d) := by
  induction slots with
  | nil => exact .refl
  | cons i rest ih =>
      exact fun d => (topoApplyTap_onlyDrops windowNs hT now d i).trans (ih _)

/-- A tap of a trunk leaves nothing served on its parent. -/
theorem topoApplyTap_drops {now : UInt64} {d : Trunks σ τ n m} {i : Fin m} {tap : TopoTap}
    (hp : Placed d.hear) (htap : d.topo.taps i = some tap)
    (htrunk : topoTrunkNow T windowNs d.topo tap.parent now = true) (j : Fin n) :
    serves ((topoApplyTap T windowNs now d i).hear.listeners j) tap.parent = false := by
  unfold topoApplyTap
  rw [htap]
  dsimp only
  rw [htrunk, if_neg (by simp)]
  dsimp only
  rw [hearingDrop_exact hp]
  split
  · exact serves_dropped _ _
  · rename_i hserves
    simpa using hserves

/-- **The walk over the taps** leaves nothing served on a trunk's parent that has one. -/
theorem topoApplyTaps_drop (hT : T.Lawful) {now : UInt64} {i : Fin m} {tap : TopoTap} (j : Fin n)
    (slots : List (Fin m)) :
    ∀ d : Trunks σ τ n m, Placed d.hear → i ∈ slots → d.topo.taps i = some tap →
      topoTrunkNow T windowNs d.topo tap.parent now = true →
      serves ((slots.foldl (topoApplyTap T windowNs now) d).hear.listeners j) tap.parent = false := by
  induction slots with
  | nil => intro d _ hmem; exact absurd hmem List.not_mem_nil
  | cons i₀ rest ih =>
      intro d hp hmem htap htrunk
      have hfirst := topoApplyTap_onlyDrops windowNs hT now d i₀
      by_cases hi : i = i₀
      · -- dropped here, and a walk re-opens nothing
        rw [List.foldl_cons]
        have hrest := topoApplyTaps_onlyDrops windowNs hT now rest
          (topoApplyTap T windowNs now d i₀)
        cases hserves : serves ((rest.foldl (topoApplyTap T windowNs now)
            (topoApplyTap T windowNs now d i₀)).hear.listeners j) tap.parent with
        | false => rfl
        | true =>
            have hbefore := (hrest.stays j).serves hserves
            rw [topoApplyTap_drops windowNs hp (hi ▸ htap) htrunk] at hbefore
            exact absurd hbefore Bool.false_ne_true
      · refine ih (topoApplyTap T windowNs now d i₀) (hfirst.placed hp)
          ((List.mem_cons.mp hmem).resolve_left hi) (hfirst.taps ▸ htap) ?_
        rw [topoTrunkNow_congr windowNs hfirst.taps hfirst.trunks]
        exact htrunk

/-- A listener on an interface that has no tap stays as it is. -/
theorem topoApplyTaps_untapped {now : UInt64} {name : String} {j : Fin n} (slots : List (Fin m)) :
    ∀ d : Trunks σ τ n m, (∀ i tap, d.topo.taps i = some tap → tap.parent ≠ name) →
      serves (d.hear.listeners j) name = true →
      serves ((slots.foldl (topoApplyTap T windowNs now) d).hear.listeners j) name = true := by
  induction slots with
  | nil => intro d _ hserves; exact hserves
  | cons i rest ih =>
      intro d huntapped hserves
      refine ih (topoApplyTap T windowNs now d i) ?_ ?_
      · unfold topoApplyTap
        split
        · exact huntapped
        · split
          · exact huntapped
          · exact huntapped
      · unfold topoApplyTap
        split
        · exact hserves
        · rename_i tap htap
          split
          · exact hserves
          · dsimp only
            rcases hearingDrop_slot d.hear tap.parent j with hkept | ⟨⟨k, hk, hon⟩, -⟩
            · rw [hkept]
              exact hserves
            · -- it would be on two interfaces
              obtain rfl := List.mem_singleton.mp hk
              have hname := (serves_iff.mp hon).2.symm.trans (serves_iff.mp hserves).2
              exact absurd (Option.some.inj hname) (huntapped i tap htap)

theorem topoEnsure_sameTrunks (hT : T.Lawful) (table : τ) (parent : String) (vid : Nat)
    (now : UInt64) (made : EnsureAnswer) :
    T.SameTrunks table (topoEnsure T table parent vid now made) := by
  cases made with
  | present ours => exact hT.ensured _ _ _ _
  | created => exact hT.ensured _ _ _ _
  | failed => exact hT.ensureFailed _ _ _ _

theorem topoEvents_sameTrunks (hT : T.Lawful) (now : UInt64) (made : List EnsureAnswer) :
    ∀ table : τ, T.SameTrunks table (topoEvents T now made table) := by
  induction made with
  | nil => exact .refl
  | cons answer rest ih =>
      intro table
      unfold topoEvents
      cases hnext : T.next table with
      | none => exact .refl table
      | some popped =>
          obtain ⟨e, table'⟩ := popped
          refine (hT.next _ _ _ hnext).trans (.trans ?_ (ih _))
          cases e.verb with
          | ensure => exact topoEnsure_sameTrunks hT _ _ _ _ _
          | release => exact .refl _

/-- **The end of a poll** closes listeners, and changes no verdict. -/
theorem topoApply_onlyDrops (hT : T.Lawful) (d : Trunks σ τ n m) (made : List EnsureAnswer)
    (now : UInt64) : OnlyDrops T d (topoApply T windowNs d made now) := by
  have hwalk := topoApplyTaps_onlyDrops windowNs hT now (List.finRange m) d
  refine ⟨hwalk.taps, hwalk.trunks.trans ?_, hwalk.enabled, hwalk.scan, hwalk.listeners⟩
  exact (hT.tick _ _).trans (topoEvents_sameTrunks hT now made _)

/-! ### A whole step -/

variable (S : IfScan σ) (speed : String → Nat)

theorem topoOnEvent_told {d : Trunks σ τ n m} {log : List TapLog} {clock : Nat}
    (h : TapsTold clock d.topo log) {i : TrunkInput n m} (hle : clock ≤ i.clock.toNat)
    {hunt : Option Hunt} {s : ServeArgs n} {a : WatchAnswers} (hact : i.act = .apply hunt s a) :
    TapsTold i.clock.toNat (topoOnEvent S T d a i.clock) (log ++ tapLog S T d i) := by
  unfold tapLog
  rw [hact]
  dsimp only
  cases hnext : S.next d.hear.scan with
  | none =>
      have hsame : topoOnEvent S T d a i.clock = d.topo := by
        unfold topoOnEvent
        rw [hnext]
      rw [hsame, List.append_nil]
      exact h.later hle rfl
  | some popped =>
      obtain ⟨e, scan⟩ := popped
      dsimp only
      unfold topoOnEvent
      rw [hnext]
      dsimp only
      cases e.verb with
      | listen =>
          dsimp only
          split
          · have hnothing : tapOpened d.topo d.topo e.name i.clock = [] := by
              unfold tapOpened
              cases d.topo.tapOf e.name <;> rfl
            rw [hnothing, List.append_nil]
            exact h.later hle rfl
          · exact h.watch e.name a hle
      | unlisten => exact h.close hle e.name
      | drop => exact (h.close hle e.name).later (Nat.le_refl _) rfl
      | serve =>
          rw [List.append_nil]
          exact h.later hle rfl
      | kept =>
          rw [List.append_nil]
          exact h.later hle rfl

/-- **Every step keeps the taps' stamps telling what the log tells.** -/
theorem trunkStep_told (hT : T.Lawful) {d : Trunks σ τ n m} {log : List TapLog} {clock : Nat}
    (h : TapsTold clock d.topo log) (i : TrunkInput n m) (hle : clock ≤ i.clock.toNat) :
    TapsTold i.clock.toNat (trunkStep S speed T windowNs d i).topo (log ++ tapLog S T d i) := by
  cases hact : i.act with
  | io tap frames =>
      unfold trunkStep tapLog
      rw [hact]
      dsimp only
      cases htap : d.topo.taps tap with
      | none =>
          have hsame : onTopoIo T d.topo tap frames i.clock = d.topo := by
            unfold onTopoIo
            rw [htap]
          rw [hsame, List.append_nil]
          exact h.later hle rfl
      | some tp => exact h.io htap frames hle
  | hear act plain =>
      unfold trunkStep tapLog
      rw [hact, List.append_nil]
      exact h.later hle rfl
  | hunt name =>
      unfold trunkStep tapLog
      rw [hact, List.append_nil]
      dsimp only
      split <;> exact h.later hle rfl
  | apply hunt s a =>
      have htold := topoOnEvent_told (T := T) S h hle hact
      unfold trunkStep
      rw [hact]
      exact htold
  | topoApply made =>
      unfold trunkStep tapLog
      rw [hact, List.append_nil]
      exact h.later hle (topoApply_onlyDrops windowNs hT d made i.now).taps

/-- Every step keeps every listener on an interface of its own. -/
theorem trunkStep_placed (hT : T.Lawful) {d : Trunks σ τ n m} (hp : Placed d.hear)
    (i : TrunkInput n m) : Placed (trunkStep S speed T windowNs d i).hear := by
  unfold trunkStep
  cases i.act with
  | io tap frames => exact hp
  | hear act plain => exact hearStep_placed S speed d.hear act hp
  | hunt name =>
      dsimp only
      split
      · exact hp
      · exact hearStep_placed S speed d.hear (.hunt name i.now.toNat) hp
  | apply hunt s a => exact hearStep_placed S speed d.hear (.apply hunt s) hp
  | topoApply made => exact (topoApply_onlyDrops windowNs hT d made i.now).placed hp

/-! ### Electing a role -/

/-- The slot holds the listener it held, the watch for an empty master aside. -/
def SameListener (L L' : Listener) : Prop :=
  L' = { L with empty := L'.empty, emptyOpen := L'.emptyOpen }

instance (L L' : Listener) : Decidable (SameListener L L') := inferInstanceAs (Decidable (_ = _))

theorem SameListener.refl (L : Listener) : SameListener L L := rfl

/-- **A role is elected on a parent**: its wire is handed over to be served, or a listener
comes up on it. -/
def Elected (h h' : Hearing σ n) (parent : String) : Prop :=
  S.state h.scan parent ≠ .segment ∧ S.state h'.scan parent = .segment ∨
    ∃ j, serves (h'.listeners j) parent = true ∧ ¬SameListener (h.listeners j) (h'.listeners j)

instance (h h' : Hearing σ n) (parent : String) : Decidable (Elected S h h' parent) :=
  inferInstanceAs (Decidable (_ ∧ _ ∨ _))

variable {S}

theorem not_elected {h h' : Hearing σ n} {parent : String}
    (hscan : S.state h'.scan parent = .segment → S.state h.scan parent = .segment)
    (hslots : ∀ j, serves (h'.listeners j) parent = true →
      SameListener (h.listeners j) (h'.listeners j)) : ¬Elected S h h' parent := by
  rintro (⟨hout, hin⟩ | ⟨j, hserves, hnew⟩)
  · exact hout (hscan hin)
  · exact hnew (hslots j hserves)

/-- A slot that is kept or dropped has nothing new on it. -/
theorem sameListener_kept {h h' : Hearing σ n} {names : List String} {j : Fin n} {parent : String}
    (hkept : KeptOrDropped h h' names j) (hserves : serves (h'.listeners j) parent = true) :
    h'.listeners j = h.listeners j := by
  rcases hkept with hsame | ⟨-, hdropped⟩
  · exact hsame
  · rw [hdropped, serves_dropped] at hserves
    exact absurd hserves Bool.false_ne_true

/-- A serve puts a listener up on its own interface only. -/
theorem hearingServe_others {h : Hearing σ n} {name parent : String} (hne : parent ≠ name)
    {cfg : ListenerCfg} (hsource : cfg.source = some name) (a : SlotAnswers n) {j : Fin n}
    (hserves : serves ((hearingServe S speed h name cfg a).listeners j) parent = true) :
    (hearingServe S speed h name cfg a).listeners j = h.listeners j := by
  have hslot : ∀ (i : Fin n) (served : Listener) (hear : Hearing σ n),
      (served = .zeroed ∨ serves served name = true) → (∀ k, k ≠ i →
        KeptOrDropped (h.setSlot i { Listener.zeroed with cfg := cfg }) hear
          (slotYielders speed (h.setSlot i { Listener.zeroed with cfg := cfg }) i a) k) →
      serves ((hear.setSlot i served).listeners j) parent = true →
      (hear.setSlot i served).listeners j = h.listeners j := by
    intro i served hear hup hothers hon
    by_cases hj : j = i
    · subst hj
      rw [setSlot_same] at hon
      rcases hup with hdown | hup
      · rw [hdown] at hon
        exact absurd hon Bool.false_ne_true
      · exact absurd (serves_name hup hon) hne
    · rw [setSlot_ne _ _ hj] at hon ⊢
      rw [sameListener_kept (hothers j hj) hon, setSlot_ne _ _ hj]
  unfold hearingServe at hserves ⊢
  split
  · rfl
  · rename_i hnew
    rw [if_neg hnew] at hserves
    cases hfree : freeSlot h with
    | none => rfl
    | some i =>
        rw [hfree] at hserves
        dsimp only at hserves ⊢
        have hothers := fun k (_ : k ≠ i) => slotAdmitted_slot S speed
          (h.setSlot i { Listener.zeroed with cfg := cfg }) i a k
        split
        · rename_i hserved
          rw [if_pos hserved] at hserves
          exact hslot i _ _ (Or.inr (listenerServe_serves hsource hserved)) hothers hserves
        · rename_i hdown
          rw [if_neg hdown] at hserves
          exact hslot i _ _ (Or.inl (listenerServe_down (by simpa using hdown))) hothers hserves

/-- And serving an interface elects a role on no other. -/
theorem hearingServe_elects (hS : S.Lawful) {h : Hearing σ n} {name parent : String}
    (hne : parent ≠ name) {cfg : ListenerCfg} (hsource : cfg.source = some name)
    (a : SlotAnswers n) : ¬Elected S h (hearingServe S speed h name cfg a) parent :=
  not_elected (fun hin => (((hearingServe_kept hS speed h a hsource).1 parent).1 hin).1)
    fun _ hserves => (hearingServe_others speed hne hsource a hserves).symm ▸ .refl _

theorem hearingReserve_elects (hS : S.Lawful) {h : Hearing σ n} {name parent : String}
    (hne : parent ≠ name) (hunt : Hunt) (s : ServeArgs n) :
    ¬Elected S h (hearingReserve S speed h name hunt s) parent := by
  refine not_elected (fun hin => ((hearingReserve_kept hS speed h name hunt s parent).1 hin).1)
    fun j hserves => ?_
  have hserve := hearingServe_others speed hne
    (serveCfg_source name s.conf (some hunt) s.forcedRate) s.answers hserves
  have hdrop : (hearingReserve S speed h name hunt s).listeners j =
      (hearingDrop h name).listeners j := hserve
  rw [hdrop] at hserves ⊢
  rw [sameListener_kept (hearingDrop_slot h name j) hserves]
  exact .refl _

/-- Hearing a wire again elects nothing anywhere. -/
theorem hearingRehear_elects (hS : S.Lawful) (h : Hearing σ n) (name : String) (now : Nat)
    (parent : String) : ¬Elected S h (hearingRehear S h name now) parent :=
  not_elected (fun hin => ((hearingRehear_kept hS h name now parent).1 hin).1) fun j hserves =>
    (sameListener_kept (hearingDrop_slot h name j) hserves).symm ▸ .refl _

theorem elects_moved {h : Hearing σ n} {scan : σ} {parent : String}
    (hmoved : S.Moved [.segment] h.scan scan) : ¬Elected S h { h with scan := scan } parent := by
  obtain ⟨_, -, hsegments⟩ := hmoved
  exact not_elected (fun hin => List.mem_singleton.mp (hsegments parent hin).1)
    fun _ _ => .refl _

theorem not_elected_self (h : Hearing σ n) (parent : String) : ¬Elected S h h parent :=
  not_elected id fun _ _ => .refl _

/-- A watch that finds nothing leaves the listener. -/
theorem rehearEmptyMaster_same {L : Listener} {now : Nat} {obs : Option EngineObs}
    (hkeeps : (rehearEmptyMaster L now obs).2 = false) :
    SameListener L (rehearEmptyMaster L now obs).1 := by
  obtain ⟨-, hres⟩ | ⟨-, hres⟩ | ⟨o, -, -, hres⟩ | ⟨o, hobs, happlies, hopen, hsnd, -⟩ :=
    rehearEmptyMaster_cases L now obs
  · rw [hres]
    rfl
  · rw [hres]
    rfl
  · rw [hres]
    rfl
  · subst hobs
    rw [hsnd] at hkeeps
    have hres : (rehearEmptyMaster L now (some o)).1 =
        { L with empty := (reacEmptyMasterStep L.empty now o.rxBoxFrames o.pastProbing).1 } := by
      simp [rehearEmptyMaster, happlies, hopen, hkeeps]
    rw [hres]
    rfl

/-- **Of the poll's own acts, only a serve elects a role**, on the wire it serves. -/
theorem hearStep_elects (hS : S.Lawful) {d : Trunks σ τ n m} {act : HearAct n}
    {plain : act.plain = true} {parent : String}
    (hpoll : (TrunkAct.hear (m := m) act plain).ofPoll = true)
    (hfree : reserves d (.hear act plain) ≠ some parent) :
    ¬Elected S d.hear (hearStep S speed d.hear act) parent := by
  cases act with
  | ifaceGone i now =>
      dsimp only [hearStep]
      split
      · exact elects_moved (hS.gone _ _ _)
      · exact not_elected_self _ _
  | join i hunt s =>
      dsimp only [hearStep]
      split
      · exact not_elected_self _ _
      · rename_i name hname
        split
        · rename_i happlies
          refine hearingReserve_elects speed hS (fun hsame => hfree ?_) hunt s
          rw [reserves, if_pos happlies, hname, hsame]
        · exact not_elected_self _ _
  | reevaluate i now =>
      dsimp only [hearStep]
      split
      · exact not_elected_self _ _
      · split
        · exact hearingRehear_elects hS _ _ _ _
        · exact not_elected_self _ _
  | rehearEmpty i now obs =>
      dsimp only [hearStep]
      split
      · exact hearingRehear_elects hS _ _ _ _
      · rename_i hkeeps
        refine not_elected id fun j _ => ?_
        by_cases hj : j = i
        · subst hj
          rw [setSlot_same]
          exact rehearEmptyMaster_same (by simpa using hkeeps)
        · rw [setSlot_ne _ _ hj]
          exact .refl _
  | yield v now =>
      dsimp only [hearStep]
      cases hfound : hearingListener d.hear v.name with
      | none => exact not_elected_self _ _
      | some i =>
          dsimp only
          split
          · exact not_elected_self _ _
          · rename_i hmoves
            refine hearingReserve_elects speed hS (fun hsame => hfree ?_) v.hunt v.serve
            simp only [reserves, hfound]
            rw [if_neg hmoves, hsame]
  | scanTick now => exact elects_moved (hS.tick _ _)
  | slotTick i ifaceLost a => exact absurd hpoll Bool.false_ne_true
  | write i w => exact absurd hpoll Bool.false_ne_true
  | drain bytes now => exact absurd hpoll Bool.false_ne_true
  | confEdit ignored => exact absurd hpoll Bool.false_ne_true
  | hunt name now => exact absurd plain Bool.false_ne_true
  | apply hunt s => exact absurd plain Bool.false_ne_true
  | trunk name => exact absurd plain Bool.false_ne_true

/-- An event elects a role on the wire it serves, and on no other. -/
theorem hearingApply_elects (hS : S.Lawful) {d : Trunks σ τ n m} {hunt : Option Hunt}
    {s : ServeArgs n} {a : WatchAnswers} {parent : String}
    (hfree : servesEvent S d (.apply hunt s a) ≠ some parent) :
    ¬Elected S d.hear (hearingApply S speed d.hear hunt s) parent := by
  unfold hearingApply
  cases hnext : S.next d.hear.scan with
  | none => exact not_elected_self _ _
  | some popped =>
      obtain ⟨e, scan⟩ := popped
      have hpopped : ∀ {h' : Hearing σ n}, ¬Elected S { d.hear with scan := scan } h' parent →
          ¬Elected S d.hear h' parent := by
        intro h' hnot helected
        refine hnot (helected.imp_left fun hmoved => ?_)
        rw [← (hS.next_some _ _ _ hnext).2 parent] at hmoved
        exact hmoved
      dsimp only
      cases hverb : e.verb with
      | serve =>
          dsimp only
          split
          · exact hpopped (not_elected_self _ _)
          · rename_i hign
            refine hpopped ?_
            cases hfound : hearingListener d.hear e.name with
            | some i =>
                have hsame : hearingServe S speed { d.hear with scan := scan } e.name
                    (serveCfg e.name s.conf hunt s.forcedRate) s.answers =
                      { d.hear with scan := scan } := by
                  have hfound' : hearingListener { d.hear with scan := scan } e.name = some i :=
                    hfound
                  rw [hearingServe, hfound']
                  rfl
                rw [hsame]
                exact not_elected_self _ _
            | none =>
                refine hearingServe_elects speed hS (fun hsame => hfree ?_)
                  (serveCfg_source e.name s.conf hunt s.forcedRate) s.answers
                simp only [servesEvent, hnext]
                rw [if_pos ⟨hverb, by simpa using hign, hfound⟩, hsame]
      | drop =>
          refine hpopped (not_elected (fun hin => by rwa [hearingDrop_scan] at hin)
            fun j hserves => ?_)
          rw [sameListener_kept (hearingDrop_slot _ e.name j) hserves]
          exact .refl _
      | listen => exact hpopped (not_elected_self _ _)
      | unlisten => exact hpopped (not_elected_self _ _)
      | kept => exact hpopped (not_elected_self _ _)

/-! ### Keeping off the parents of trunks -/

variable (S)

/-- A step of a poll elects no role on a trunk's parent. -/
def ElectsNoTrunk (T : TopoApi τ) (d : Trunks σ τ n m) (i : TrunkInput n m) : Prop :=
  i.act.ofPoll = true → ∀ name, topoTrunkNow T windowNs d.topo name i.now = true →
    ¬Elected S d.hear (trunkStep S speed T windowNs d i).hear name

/-- A poll's end leaves nothing opened on a trunk's parent. -/
def LeavesNoTrunk (T : TopoApi τ) (d : Trunks σ τ n m) (i : TrunkInput n m) : Prop :=
  i.act.endsPoll = true → ∀ name,
    topoTrunkNow T windowNs (trunkStep S speed T windowNs d i).topo name i.now = true →
    ∀ j, serves ((trunkStep S speed T windowNs d i).hear.listeners j) name = false

/-- The wire is as the hunt that handed it over found it, in this very poll. -/
def AsHandedOver (T : TopoApi τ) (s : Trunks σ τ n m × TrunkHistory) (name : String)
    (now : UInt64) : Prop :=
  s.2.handed name = some (trunkAsked T s.1.topo name now)

/-- What is served again unasked is no trunk's parent, nor is what an event serves that a
change of its tap has overtaken since the hunt. -/
structure ServesOffTrunks (T : TopoApi τ) (s : Trunks σ τ n m × TrunkHistory)
    (i : TrunkInput n m) : Prop where
  reserved : ∀ name ∈ reserves s.1 i.act,
    ¬CableTrunk T windowNs s.1.topo.table s.2.log name i.now
  overtaken : ∀ name ∈ servesEvent S s.1 i.act, ¬AsHandedOver T s name i.now →
    ¬CableTrunk T windowNs s.1.topo.table s.2.log name i.now

instance (T : TopoApi τ) (s : Trunks σ τ n m × TrunkHistory) (name : String) (now : UInt64) :
    Decidable (AsHandedOver T s name now) :=
  inferInstanceAs (Decidable (_ = _))

instance (T : TopoApi τ) (s : Trunks σ τ n m × TrunkHistory) (i : TrunkInput n m) :
    Decidable (ServesOffTrunks windowNs S T s i) :=
  decidable_of_iff'
    ((∀ name ∈ reserves s.1 i.act, ¬CableTrunk T windowNs s.1.topo.table s.2.log name i.now) ∧
      ∀ name ∈ servesEvent S s.1 i.act, ¬AsHandedOver T s name i.now →
        ¬CableTrunk T windowNs s.1.topo.table s.2.log name i.now)
    ⟨fun h => ⟨h.reserved, h.overtaken⟩, fun h => ⟨h.1, h.2⟩⟩

/-- A trunk's parent that has no tap has nothing opened on it when a poll ends. -/
def NoneUntapped (T : TopoApi τ) (s : Trunks σ τ n m × TrunkHistory) (i : TrunkInput n m) :
    Prop :=
  i.act.endsPoll = true → ∀ j, ∀ name ∈ (s.1.hear.listeners j).cfg.source,
    serves (s.1.hear.listeners j) name = true → T.isTrunk s.1.topo.table name = true →
    (tapLife s.2.log name).isSome = true

instance (T : TopoApi τ) (s : Trunks σ τ n m × TrunkHistory) (i : TrunkInput n m) :
    Decidable (NoneUntapped T s i) :=
  inferInstanceAs (Decidable (_ → ∀ _, ∀ _ ∈ _, _ → _ → _))

/-- What a verdict answered. -/
def TrunkAsked.verdict (asked : TrunkAsked) : Bool :=
  asked.trunk && asked.tap.all fun tap => tap.fresh windowNs asked.now

theorem trunkAsked_verdict (t : Topo τ m) (parent : String) (now : UInt64) :
    (trunkAsked T t parent now).verdict windowNs = topoTrunkNow T windowNs t parent now := by
  unfold TrunkAsked.verdict trunkAsked topoTrunkNow
  cases T.isTrunk t.table parent with
  | false => rfl
  | true =>
      cases t.tapOf parent with
      | none => rfl
      | some tap => rfl

/-- Every wire was handed over on a verdict of no trunk. -/
def HandedOffTrunks (hist : TrunkHistory) : Prop :=
  ∀ name, ∀ asked ∈ hist.handed name, asked.verdict windowNs = false

/-- A hunt passes a trunk's parent over: what the table calls a trunk, it has found and
heard tagged REAC on. -/
theorem hunt_passes (hT : T.Lawful) {d : Trunks σ τ n m} {name : String} {now : UInt64}
    (htrunk : topoTrunkNow T windowNs d.topo name now = true) :
    huntsPastTrunk T windowNs d name now = true := by
  have his : T.isTrunk d.topo.table name = true := by
    cases h : T.isTrunk d.topo.table name with
    | true => rfl
    | false => simp [topoTrunkNow, h] at htrunk
  obtain ⟨hfound, htagged⟩ := (hT.isTrunk_iff _ _).mp his
  rw [huntsPastTrunk, hfound, decide_eq_true htagged, htrunk]
  rfl

theorem trunkStep_hunt {d : Trunks σ τ n m} {i : TrunkInput n m} {name : String}
    (hact : i.act = .hunt name) :
    trunkStep S speed T windowNs d i =
      if huntsPastTrunk T windowNs d name i.now then d
      else { d with hear := hearStep S speed d.hear (.hunt name i.now.toNat) } := by
  unfold trunkStep
  rw [hact]

/-- A hunt elects a role on its own wire only, and not on a trunk's parent. -/
theorem hunt_elects (hT : T.Lawful) (hS : S.Lawful) {d : Trunks σ τ n m} {i : TrunkInput n m}
    {name parent : String} (hact : i.act = .hunt name)
    (htrunk : topoTrunkNow T windowNs d.topo parent i.now = true) :
    ¬Elected S d.hear (trunkStep S speed T windowNs d i).hear parent := by
  rw [trunkStep_hunt windowNs S speed hact]
  split
  · exact not_elected_self _ _
  · rename_i hhunts
    dsimp only [hearStep]
    split
    · refine not_elected (fun hin => ?_) fun _ _ => .refl _
      have hin : S.state (S.heard d.hear.scan name i.now.toNat) parent = .segment := hin
      rcases hS.heard d.hear.scan name i.now.toNat with ⟨-, hsame⟩ | ⟨-, -, hothers, -⟩
      · exact (hsame parent).symm.trans hin
      · by_cases hne : parent = name
        · exact absurd (hunt_passes windowNs hT (hne ▸ htrunk)) hhunts
        · exact (hothers parent hne).symm.trans hin
    · exact not_elected_self _ _

/-- A wire that a hunt handed over was on a verdict of no trunk. -/
theorem handedOver_verdict (hT : T.Lawful) (hS : S.Lawful) {d : Trunks σ τ n m}
    {i : TrunkInput n m} {name : String}
    (hhanded : handedOver S speed T windowNs d i = some name) :
    (trunkAsked T d.topo name i.now).verdict windowNs = false := by
  rw [trunkAsked_verdict]
  unfold handedOver at hhanded
  cases hact : i.act with
  | hunt k =>
      rw [hact] at hhanded
      dsimp only at hhanded
      split at hhanded
      · rename_i hmoved
        obtain rfl := Option.some.inj hhanded
        cases htrunk : topoTrunkNow T windowNs d.topo k i.now with
        | false => rfl
        | true =>
            exact absurd (Or.inl hmoved) (hunt_elects windowNs S speed hT hS hact htrunk)
      · exact absurd hhanded (by simp)
  | _ => rw [hact] at hhanded; exact absurd hhanded (by simp)

theorem trunkStep_handed (hT : T.Lawful) (hS : S.Lawful) {d : Trunks σ τ n m}
    {hist : TrunkHistory} (h : HandedOffTrunks windowNs hist) (i : TrunkInput n m)
    (did : List TapLog) :
    HandedOffTrunks windowNs ({ hist with log := hist.log ++ did }.hand
      (fun name => trunkAsked T d.topo name i.now) (handedOver S speed T windowNs d i)) := by
  cases hhanded : handedOver S speed T windowNs d i with
  | none => exact h
  | some name =>
      intro k asked hasked
      have hasked : Function.update hist.handed name
          (some (trunkAsked T d.topo name i.now)) k = some asked := hasked
      by_cases hk : k = name
      · subst hk
        rw [Function.update_self] at hasked
        rw [← Option.some.inj hasked]
        exact handedOver_verdict windowNs S speed hT hS hhanded
      · rw [Function.update_of_ne hk] at hasked
        exact h k asked hasked

/-- What an untapped trunk's parent has opened on it is there when the poll has ended. -/
theorem untapped_left {d : Trunks σ τ n m} (hT : T.Lawful) {name : String}
    (htrunk : T.isTrunk d.topo.table name = true) (hnone : d.topo.tapOf name = none)
    (made : List EnsureAnswer) (now : UInt64) {j : Fin n}
    (hserves : serves (d.hear.listeners j) name = true) :
    topoTrunkNow T windowNs (topoApply T windowNs d made now).topo name now = true ∧
      serves ((topoApply T windowNs d made now).hear.listeners j) name = true := by
  constructor
  · have honly := topoApply_onlyDrops windowNs hT d made now
    rw [topoTrunkNow_congr windowNs honly.taps honly.trunks]
    unfold topoTrunkNow
    rw [htrunk, hnone]
    rfl
  · exact topoApplyTaps_untapped windowNs (List.finRange m) d
      (fun i tap htap => Slots.entry_eq_none.mp hnone i tap htap) hserves

/-- A trunk's parent that has a tap has nothing opened on it when the poll has ended. -/
theorem tapped_dropped {d : Trunks σ τ n m} (hT : T.Lawful) (hp : Placed d.hear) {name : String}
    {tap : TopoTap} (htap : d.topo.tapOf name = some tap) (made : List EnsureAnswer)
    {now : UInt64} (htrunk : topoTrunkNow T windowNs d.topo name now = true) (j : Fin n) :
    serves ((topoApply T windowNs d made now).hear.listeners j) name = false := by
  obtain ⟨i, hslot, rfl⟩ := Slots.entry_some htap
  exact topoApplyTaps_drop windowNs hT j (List.finRange m) d hp (List.mem_finRange i) hslot htrunk

/-- **A step elects no role on a trunk's parent**, when what it serves unasked is none. -/
theorem trunkStep_elects (hT : T.Lawful) (hS : S.Lawful) (hwindow : 0 < windowNs.toNat)
    {s : Trunks σ τ n m × TrunkHistory} {clock : Nat} (htold : TapsTold clock s.1.topo s.2.log)
    (hhanded : HandedOffTrunks windowNs s.2) (i : TrunkInput n m)
    (hoff : ServesOffTrunks windowNs S T s i) : ElectsNoTrunk windowNs S speed T s.1 i := by
  intro hpoll name htrunk
  have hcable := (topoTrunkNow_iff hwindow htold name i.now).mp htrunk
  cases hact : i.act with
  | io tap frames =>
      rw [hact] at hpoll
      exact absurd hpoll Bool.false_ne_true
  | hear act plain =>
      have hstep : (trunkStep S speed T windowNs s.1 i).hear = hearStep S speed s.1.hear act := by
        unfold trunkStep
        rw [hact]
      rw [hstep]
      refine hearStep_elects speed hS (hact ▸ hpoll) fun hserved => ?_
      exact hoff.reserved name (by rw [hact]; exact hserved) hcable
  | hunt k => exact hunt_elects windowNs S speed hT hS hact htrunk
  | apply hunt args a =>
      have hstep : (trunkStep S speed T windowNs s.1 i).hear =
          hearingApply S speed s.1.hear hunt args := by
        unfold trunkStep
        rw [hact]
        rfl
      rw [hstep]
      refine hearingApply_elects (a := a) speed hS fun hserved => ?_
      refine hoff.overtaken name (by rw [hact]; exact hserved) (fun hsame => ?_) hcable
      have hfalse := hhanded name _ hsame
      rw [trunkAsked_verdict, htrunk] at hfalse
      exact absurd hfalse.symm Bool.false_ne_true
  | topoApply made =>
      have honly := topoApply_onlyDrops windowNs hT s.1 made i.now
      have hstep : trunkStep S speed T windowNs s.1 i = topoApply T windowNs s.1 made i.now := by
        unfold trunkStep
        rw [hact]
      rw [hstep]
      refine not_elected (fun hin => by rwa [honly.scan] at hin) fun j hserves => ?_
      rcases honly.listeners j with hsame | hclosed
      · rw [hsame]
        exact .refl _
      · rw [(serves_iff.mp hserves).1] at hclosed
        exact absurd hclosed.symm Bool.false_ne_true

/-- **The poll's end leaves nothing on a trunk's parent exactly when** nothing is opened on
one that has no tap. -/
theorem leavesNoTrunk_iff (hT : T.Lawful) {s : Trunks σ τ n m × TrunkHistory} {clock : Nat}
    (htold : TapsTold clock s.1.topo s.2.log) (hp : Placed s.1.hear) (i : TrunkInput n m) :
    LeavesNoTrunk windowNs S speed T s.1 i ↔ NoneUntapped T s i := by
  have hnoTap : ∀ name, tapLife s.2.log name = none ↔ s.1.topo.tapOf name = none := by
    intro name
    have hrel := htold.told name
    generalize s.1.topo.tapOf name = tap, tapLife s.2.log name = life at hrel
    cases hrel with
    | some _ => simp
    | none => simp
  have hend : i.act.endsPoll = true →
      ∃ made, trunkStep S speed T windowNs s.1 i = topoApply T windowNs s.1 made i.now := by
    intro hends
    unfold trunkStep
    cases hact : i.act with
    | topoApply made => exact ⟨made, rfl⟩
    | _ => rw [hact] at hends; exact absurd hends (by simp [TrunkAct.endsPoll])
  constructor
  · intro h hends j name _ hserves htrunk
    cases hlife : tapLife s.2.log name with
    | some life => rfl
    | none =>
        obtain ⟨made, hstep⟩ := hend hends
        obtain ⟨hstands, hleft⟩ := untapped_left windowNs hT htrunk ((hnoTap name).mp hlife)
          made i.now hserves
        have hgone := h hends name (by rw [hstep]; exact hstands) j
        rw [hstep, hleft] at hgone
        exact absurd hgone (by simp)
  · intro h hends name htrunk j
    obtain ⟨made, hstep⟩ := hend hends
    rw [hstep] at htrunk ⊢
    have honly := topoApply_onlyDrops windowNs hT s.1 made i.now
    rw [topoTrunkNow_congr windowNs honly.taps honly.trunks] at htrunk
    cases htap : s.1.topo.tapOf name with
    | some tap => exact tapped_dropped windowNs hT hp htap made htrunk j
    | none =>
        have his : T.isTrunk s.1.topo.table name = true := by
          unfold topoTrunkNow at htrunk
          cases his : T.isTrunk s.1.topo.table name with
          | true => rfl
          | false => simp [his] at htrunk
        cases hserves : serves ((topoApply T windowNs s.1 made i.now).hear.listeners j) name with
        | false => rfl
        | true =>
            have hbefore := (honly.stays j).serves hserves
            have hopen := h hends j name (serves_iff.mp hbefore).2 hbefore his
            rw [(hnoTap name).mpr htap] at hopen
            exact absurd hopen (by simp)

/-! ### A whole run -/

/-- What every step of a run keeps. -/
structure TrunksSound (clock : Nat) (s : Trunks σ τ n m × TrunkHistory) : Prop where
  told : TapsTold clock s.1.topo s.2.log
  placed : Placed s.1.hear
  handed : HandedOffTrunks windowNs s.2

theorem trunksSound_start (d : Trunks σ τ n m) (hen : d.hear.enabled = true)
    (hclosed : ∀ i, (d.hear.listeners i).opened = false) (htaps : ∀ i, d.topo.taps i = none) :
    TrunksSound windowNs 0 (d, {}) := by
  refine ⟨⟨?_, fun parent => ?_⟩, placed_of_closed hen hclosed, fun name asked hasked => ?_⟩
  · intro i j a b ha
    rw [htaps i] at ha
    exact absurd ha (by simp)
  · have hnone : d.topo.tapOf parent = none :=
      Slots.entry_eq_none.mpr fun i tap htap => absurd ((htaps i).symm.trans htap) (by simp)
    rw [hnone]
    exact .none
  · cases hasked

/-- One step, under a clock that does not go back. -/
theorem trunkStep_sound (hT : T.Lawful) (hS : S.Lawful) (clock : Nat)
    (s : Trunks σ τ n m × TrunkHistory) (i : TrunkInput n m) (h : TrunksSound windowNs clock s)
    (hle : clock ≤ i.clock.toNat) :
    TrunksSound windowNs i.clock.toNat ((loggedTrunkMachine S speed T windowNs).step s i).1 := by
  refine ⟨?_, trunkStep_placed windowNs S speed hT h.placed i,
    trunkStep_handed windowNs S speed hT hS h.handed i _⟩
  have hlog : ((loggedTrunkMachine S speed T windowNs).step s i).1.2.log =
      s.2.log ++ tapLog S T s.1 i := by
    show (TrunkHistory.hand _ _ (handedOver S speed T windowNs s.1 i)).log = _
    cases handedOver S speed T windowNs s.1 i <;> rfl
  rw [hlog]
  exact trunkStep_told windowNs S speed hT h.told i hle

/-- **The trunk's verdict is about the cable as it is**, in every run from where no tap is
open; a frame of another interface, our own or with some other tag stamps nothing; a run
whose unasked serves keep off the parents of trunks elects no role on one; and its polls
leave nothing opened on one exactly when each ends with nothing opened on one without a
tap. -/
theorem trunk_verdict (hT : T.Lawful) (hS : S.Lawful) (hwindow : 0 < windowNs.toNat)
    (d : Trunks σ τ n m) (hen : d.hear.enabled = true)
    (hclosed : ∀ i, (d.hear.listeners i).opened = false) (htaps : ∀ i, d.topo.taps i = none)
    (run : List (TrunkInput n m))
    (hclock : StepMachine.Clocked (fun i : TrunkInput n m => i.clock.toNat) 0 run) :
    (∀ parent now,
      topoTrunkNow T windowNs
          ((loggedTrunkMachine S speed T windowNs).after (d, {}) run).1.topo parent now = true ↔
        CableTrunk T windowNs
          ((loggedTrunkMachine S speed T windowNs).after (d, {}) run).1.topo.table
          ((loggedTrunkMachine S speed T windowNs).after (d, {}) run).2.log parent now) ∧
    (∀ i tap, ((loggedTrunkMachine S speed T windowNs).after (d, {}) run).1.topo.taps i = some tap →
      ∀ frames clock, (∀ f ∈ frames, f.ifindex ≠ tap.ifindex ∨ f.outgoing = true ∨ f.kind ≠ .tagged) →
        (onTopoIo T ((loggedTrunkMachine S speed T windowNs).after (d, {}) run).1.topo i frames
          clock).taps =
        ((loggedTrunkMachine S speed T windowNs).after (d, {}) run).1.topo.taps) ∧
    ((loggedTrunkMachine S speed T windowNs).Guarded (ServesOffTrunks windowNs S T) (d, {}) run →
      (loggedTrunkMachine S speed T windowNs).Guarded
        (fun s i => ElectsNoTrunk windowNs S speed T s.1 i) (d, {}) run) ∧
    ((loggedTrunkMachine S speed T windowNs).Guarded
        (fun s i => LeavesNoTrunk windowNs S speed T s.1 i) (d, {}) run ↔
      (loggedTrunkMachine S speed T windowNs).Guarded (NoneUntapped T) (d, {}) run) := by
  have hstart := trunksSound_start windowNs d hen hclosed htaps
  have hstep := trunkStep_sound windowNs (n := n) (m := m) S speed hT hS
  obtain ⟨htold, -, -⟩ := (loggedTrunkMachine S speed T windowNs).invariant_clocked
    (I := TrunksSound windowNs) (G := fun _ _ => True)
    (fun t s i hsound hle _ => hstep t s i hsound hle) run 0 (d, {}) hstart hclock
    (StepMachine.guarded_true _ _ _)
  refine ⟨topoTrunkNow_iff hwindow htold, fun i tap htap frames clock hidle => ?_, ?_, ?_⟩
  · refine onTopoIo_idle T htap fun f hf hev hkind => ?_
    simp only [TopoTap.evidence, Bool.and_eq_true, beq_iff_eq, Bool.not_eq_true'] at hev
    rcases hidle f hf with hforeign | hours | hother
    · exact hforeign hev.1
    · exact absurd (hours.symm.trans hev.2) (by simp)
    · exact hother hkind
  · exact StepMachine.guarded_of_clocked _ hstep
      (fun t s i h => trunkStep_elects windowNs S speed hT hS hwindow h.told h.handed i) run 0
      (d, {}) hstart hclock
  · exact StepMachine.guarded_iff_clocked _ hstep
      (fun t s i h => leavesNoTrunk_iff windowNs S speed hT h.told h.placed i) run 0
      (d, {}) hstart hclock

end

/-! ### One parent, tagged, joined and re-patched -/

/-- An interface table whose interface may lose its link and get it back between two polls. -/
def flapTable : IfScan ScanTable :=
  { scanTable with
    drain := fun t bytes _ =>
      if bytes = [] then t
      else
        { t with
          queue := t.queue ++
            [{ verb := .unlisten, name := "enp1s0" }, { verb := .listen, name := "enp1s0" }] } }

theorem flapTable_lawful : flapTable.Lawful where
  next_none := scanTable_lawful.next_none
  next_some := scanTable_lawful.next_some
  heard := scanTable_lawful.heard
  serveFailed := scanTable_lawful.serveFailed
  gone := scanTable_lawful.gone
  tick := scanTable_lawful.tick
  drain t bytes now := by
    by_cases hquiet : bytes = []
    · have hsame : flapTable.drain t bytes now = t := if_pos hquiet
      rw [hsame]
      exact ⟨[], (List.append_nil _).symm, fun k hk => ⟨by simp [show _ = IfState.segment from hk],
        fun e he => absurd he List.not_mem_nil⟩⟩
    · have hflap : flapTable.drain t bytes now =
          { t with
            queue := t.queue ++
              [{ verb := .unlisten, name := "enp1s0" }, { verb := .listen, name := "enp1s0" }] } :=
        if_neg hquiet
      rw [hflap]
      refine ⟨_, rfl, fun k hk => ⟨by simp [show flapTable.state t k = IfState.segment from hk], ?_⟩⟩
      simp [IfEvent.about]

/-- A hearing with one slot, and one interface with link that is not listened to yet. -/
def oneFreshInterface : Trunks ScanTable TopoRows 1 2 :=
  { hear :=
      { oneLinkedInterface with
        scan := { ifs := [("enp1s0", .linked)], queue := [{ verb := .listen, name := "enp1s0" }] } }
    topo := { table := { rows := [], vlans := [], queue := [] }, taps := fun _ => none } }

/-- Three of a master's announce cadences. -/
def reclassifyNs : UInt64 := 3000000000

def oneParentMachine :
    StepMachine (Trunks ScanTable TopoRows 1 2 × TrunkHistory) (TrunkInput 1 2) (List TapLog) :=
  loggedTrunkMachine flapTable (fun _ => 0) topoRows reclassifyNs

def tapComesUp : WatchAnswers := { stacked := false, opens := true, ifindex := 2, ioAdded := true }

/-- The interface is served as a master. -/
def masterServed (pinned : Bool) (now : Nat) : Option Hunt × ServeArgs 1 × WatchAnswers :=
  (some boxHunt,
    { conf := { segmentCfg "enp1s0" .master with rolePinned := pinned }, forcedRate := 0
      answers := slotAnswers 48000 now }, tapComesUp)

/-- It is served on a hunt that has only begun, which makes it a door. -/
def doorServed (now : Nat) : Option Hunt × ServeArgs 1 × WatchAnswers :=
  (some { boxHunt with verdict := .hunting, heardAnything := false },
    (masterServed false now).2.1, tapComesUp)

/-- Its tap is opened, or its sniffer closed: the event reads no hunt. -/
def linkEvent (a : WatchAnswers) (now : Nat) : Option Hunt × ServeArgs 1 × WatchAnswers :=
  (none, (masterServed false now).2.1, a)

/-- A turn at that time, with those hunts and those events. -/
def turnAt (now : UInt64) (hunts : List String)
    (events : List (Option Hunt × ServeArgs 1 × WatchAnswers)) : TrunkTurn 1 :=
  { clock := now, now := now, hearing := { quietTurn 48000 now.toNat with hunts := hunts }
    events := events, made := [.created] }

/-- The interface's tap is readable, and has one frame. -/
def frameRead (kind : TopoKind) (now : UInt64) : TrunkInput 1 2 :=
  { clock := now, now := now
    act := .io ⟨0, Nat.two_pos⟩ [{ kind := kind, vid := 11, ifindex := 2, outgoing := false }] }

/-- It is listened to, and tagged REAC is heard there. -/
def taggedRun : List (TrunkInput 1 2) :=
  trunkTurn (turnAt 1000000000 [] [linkEvent tapComesUp 1000000000]) ++
    [frameRead .tagged 1100000000]

/-- A hunt passes it over; later the cable has carried no tag of REAC's for a window, and it
is served. -/
def repatchedRun : List (TrunkInput 1 2) :=
  taggedRun ++ trunkTurn (turnAt 1200000000 ["enp1s0"] []) ++ [frameRead .taggedOther 4000000000] ++
    trunkTurn (turnAt 4200000000 ["enp1s0"] [masterServed false 4200000000])

theorem trunk_verdict_repatched :
    topoTrunkNow topoRows reclassifyNs
        (oneParentMachine.after (oneFreshInterface, {}) repatchedRun).1.topo "enp1s0" 4099999999 = true ∧
      serves ((oneParentMachine.after (oneFreshInterface, {}) repatchedRun).1.hear.listeners 0)
        "enp1s0" = true ∧
      oneParentMachine.Guarded
        (fun s i => ElectsNoTrunk reclassifyNs flapTable (fun _ => 0) topoRows s.1 i)
        (oneFreshInterface, {}) repatchedRun ∧
      oneParentMachine.Guarded
        (fun s i => LeavesNoTrunk reclassifyNs flapTable (fun _ => 0) topoRows s.1 i)
        (oneFreshInterface, {}) repatchedRun := by
  have hrun := trunk_verdict reclassifyNs flapTable (fun _ => 0) topoRows_lawful flapTable_lawful
    (by decide) oneFreshInterface rfl (fun _ => rfl) (fun _ => rfl) repatchedRun (by decide +kernel)
  exact ⟨(hrun.1 "enp1s0" 4099999999).mpr (by decide +kernel), by decide +kernel,
    hrun.2.2.1 (by decide +kernel), hrun.2.2.2.mpr (by decide +kernel)⟩

/-- The cable is re-patched, and the link flaps between two polls: the hunt hands the wire
over on the old tap's silence, and the new tap does not open; the new sniffer's hunt has only
begun. -/
def flappedRun : List (TrunkInput 1 2) :=
  taggedRun ++ [{ clock := 5000000000, now := 5000000000, act := .hear (.drain [0] 5000000000) rfl }] ++
    trunkTurn (turnAt 5200000000 ["enp1s0"]
      [linkEvent tapComesUp 5200000000, linkEvent { tapComesUp with opens := false } 5200000000,
        doorServed 5200000000])

/-- A pinned master is served, and tagged REAC is heard under it. -/
def taggedUnderMaster : List (TrunkInput 1 2) :=
  trunkTurn (turnAt 1000000000 [] [linkEvent tapComesUp 1000000000]) ++
    trunkTurn (turnAt 1200000000 ["enp1s0"] [masterServed true 1200000000]) ++
    [frameRead .tagged 1300000000]

/-- Its engine sees a box mastering the wire. -/
def rivalJoined : TrunkInput 1 2 :=
  { clock := 1400000000, now := 1400000000
    act := .hear (.join ⟨0, Nat.one_pos⟩ { boxHunt with verdict := .slave, role := .slave, boxRival := true }
      (masterServed true 1400000000).2.1) rfl }

/-- The verdict stands, and a listener is left on the parent; or the poll joins it. -/
theorem trunk_parent_served :
    flapTable.Lawful ∧
    (topoTrunkNow topoRows reclassifyNs
        (oneParentMachine.after (oneFreshInterface, {}) flappedRun).1.topo "enp1s0" 5200000000 = true ∧
      serves ((oneParentMachine.after (oneFreshInterface, {}) flappedRun).1.hear.listeners 0)
        "enp1s0" = true) ∧
    topoTrunkNow topoRows reclassifyNs
        (oneParentMachine.after (oneFreshInterface, {}) taggedUnderMaster).1.topo "enp1s0"
        rivalJoined.now = true ∧
      Elected flapTable (oneParentMachine.after (oneFreshInterface, {}) taggedUnderMaster).1.hear
        (oneParentMachine.after (oneFreshInterface, {}) (taggedUnderMaster ++ [rivalJoined])).1.hear
        "enp1s0" := by
  refine ⟨flapTable_lawful, ?_⟩
  decide +kernel

end ReacPw
