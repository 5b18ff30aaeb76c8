/-
At every step of the daemon, each live resource has one owner.

The daemon's main opens the segments of its command line in order, starts their
receivers, and runs its loop until it shuts down.  The slots stay kept throughout, and
no two are open on one interface, while main opens nothing on an interface that is
served and starts no receiver under a tap.
-/
import ReacPw.Proofs.Holdings
import ReacPw.Lib.Run

namespace ReacPw

variable {n m : Nat}

namespace HolderTable

/-! ### The slots in the daemon's loop -/

theorem serves_iff {H : Holder m} {name : String} :
    serves H name = true ↔ H.opened = true ∧ H.cfg.source = some name := by
  simp [serves]

@[simp] theorem setSlot_same (h : HolderTable n m) (i : Fin n) (H : Holder m) :
    (h.setSlot i H).slots i = H := by
  simp [setSlot]

theorem setSlot_ne (h : HolderTable n m) {i j : Fin n} (H : Holder m) (hne : j ≠ i) :
    (h.setSlot i H).slots j = h.slots j := by
  simp [setSlot, hne]

/-- Every slot is kept, and no two are open on one interface. -/
structure SlotsKept (h : HolderTable n m) : Prop where
  kept : ∀ i, (h.slots i).Kept
  distinct : ∀ i j name, serves (h.slots i) name = true → serves (h.slots j) name = true → i = j

/-- What is open now was open before, on the same interface. -/
def StaysOpen (h h' : HolderTable n m) : Prop :=
  ∀ i name, serves (h'.slots i) name = true → serves (h.slots i) name = true

/-- A slot filled on an interface that no other slot is open on. -/
theorem SlotsKept.place {h : HolderTable n m} (hk : h.SlotsKept) {i : Fin n} {H : Holder m}
    (hkept : H.Kept)
    (hfree : ∀ j name, j ≠ i → serves (h.slots j) name = true → serves H name = false) :
    (h.setSlot i H).SlotsKept where
  kept := by
    intro j
    by_cases hj : j = i
    · rw [hj, setSlot_same]
      exact hkept
    · rw [setSlot_ne _ _ hj]
      exact hk.kept j
  distinct := by
    have hclash : ∀ j name, j ≠ i → serves (h.slots j) name = true → serves H name = true →
        False := by
      intro j name hj hserves hplaced
      rw [hfree j name hj hserves] at hplaced
      exact Bool.false_ne_true hplaced
    intro j k name hserves hserves'
    by_cases hj : j = i
    · by_cases hki : k = i
      · exact hj.trans hki.symm
      · rw [hj, setSlot_same] at hserves
        rw [setSlot_ne _ _ hki] at hserves'
        exact (hclash k name hki hserves' hserves).elim
    · rw [setSlot_ne _ _ hj] at hserves
      by_cases hki : k = i
      · rw [hki, setSlot_same] at hserves'
        exact (hclash j name hj hserves hserves').elim
      · rw [setSlot_ne _ _ hki] at hserves'
        exact hk.distinct j k name hserves hserves'

/-- A slot changed where it is, or closed. -/
theorem SlotsKept.change {h : HolderTable n m} (hk : h.SlotsKept) {i : Fin n} {H : Holder m}
    (hkept : H.Kept) (hstays : ∀ name, serves H name = true → serves (h.slots i) name = true) :
    (h.setSlot i H).SlotsKept := by
  refine hk.place hkept fun j name hj hserves => ?_
  cases hplaced : serves H name with
  | false => rfl
  | true => exact absurd (hk.distinct j i name hserves (hstays name hplaced)) hj

theorem staysOpen_setSlot {h : HolderTable n m} {i : Fin n} {H : Holder m}
    (hstays : ∀ name, serves H name = true → serves (h.slots i) name = true) :
    StaysOpen h (h.setSlot i H) := by
  intro j name hserves
  by_cases hj : j = i
  · rw [hj, setSlot_same] at hserves
    exact hj ▸ hstays name hserves
  · rwa [setSlot_ne _ _ hj] at hserves

/-- A drop closes the slot it finds. -/
theorem SlotsKept.drop {h : HolderTable n m} (hk : h.SlotsKept) (name : String) :
    (h.hearingDrop name).SlotsKept ∧ StaysOpen h (h.hearingDrop name) ∧
      (h.hearingDrop name).stage = h.stage := by
  unfold hearingDrop
  cases hfound : hearingListener h name with
  | none => exact ⟨hk, fun _ _ hserves => hserves, rfl⟩
  | some i =>
      have hopened : (h.slots i).opened = true := by
        unfold hearingListener at hfound
        split at hfound
        · have hserves : serves (h.slots i) name = true := by simpa using List.find?_some hfound
          exact (serves_iff.mp hserves).1
        · exact absurd hfound (by simp)
      have hstays : ∀ k, serves (h.slots i).drop k = true → serves (h.slots i) k = true :=
        fun k hserves => absurd (serves_iff.mp hserves).1 Bool.false_ne_true
      exact ⟨hk.change (.ofClear rfl ((hk.kept i).drop hopened)) hstays, staysOpen_setSlot hstays, rfl⟩

/-- Those that yield a budget are dropped, one after the other. -/
theorem SlotsKept.yield :
    ∀ (names : List String) {h : HolderTable n m}, h.SlotsKept →
      (h.linkBudgetYield names).SlotsKept ∧ StaysOpen h (h.linkBudgetYield names) ∧
        (h.linkBudgetYield names).stage = h.stage := by
  intro names
  induction names with
  | nil => intro h hk; exact ⟨hk, fun _ _ hserves => hserves, rfl⟩
  | cons name rest ih =>
      intro h hk
      obtain ⟨hfirst, hstays, hstage⟩ := hk.drop name
      obtain ⟨hrest, hstays', hstage'⟩ := ih hfirst
      exact ⟨hrest, fun i k hserves => hstays i k (hstays' i k hserves), hstage'.trans hstage⟩

theorem SlotsKept.serve {h : HolderTable n m} (hk : h.SlotsKept) (hhearing : h.hearing = true)
    {name : String} {cfg : ListenerCfg} (hsource : cfg.source = some name) (a : HolderAnswers m)
    (yielding : List String) :
    (h.hearingServe name cfg a yielding).SlotsKept ∧
      (h.hearingServe name cfg a yielding).stage = h.stage := by
  unfold hearingServe
  split
  · exact ⟨hk, rfl⟩
  · rename_i hnone
    split
    · exact ⟨hk, rfl⟩
    · rename_i i hfree
      have hclosed : (h.slots i).opened = false := by simpa using List.find?_some hfree
      have hunserved : ∀ j, serves (h.slots j) name = false := by
        intro j
        rw [hearingListener, if_pos hhearing, Option.not_isSome_iff_eq_none,
          List.find?_eq_none] at hnone
        simpa using hnone j (List.mem_finRange j)
      obtain ⟨hyield, hstays, hstage⟩ := hk.yield yielding
      obtain ⟨hkept, hplaced⟩ := ((hk.kept i).2 hclosed).serveIn cfg a
      refine ⟨hyield.place hkept fun j k _ hserves => ?_, hstage⟩
      cases hk' : serves ((h.slots i).serveIn cfg a) k with
      | false => rfl
      | true =>
          -- it is open on the name that nothing served
          obtain ⟨hopened, hsource'⟩ := serves_iff.mp hk'
          rw [hplaced hopened, hsource, Option.some.injEq] at hsource'
          have hbefore := hstays j k hserves
          rw [← hsource', hunserved j] at hbefore
          exact absurd hbefore Bool.false_ne_true

/-- A re-open of a listener that is no tap, on the interface it was open on or one that
nothing is open on. -/
theorem SlotsKept.reopen {h : HolderTable n m} (hk : h.SlotsKept) {i : Fin n}
    (change : ListenerCfg → ListenerCfg) (hsource : ∀ c, (change c).source = c.source)
    (htap : ∀ c, (change c).tap = c.tap) (hwire : (h.slots i).cfg.tap = false)
    (hfree : (h.slots i).opened = false →
      ∀ j name, serves (h.slots j) name = true → (h.slots i).cfg.source ≠ some name)
    (a : HolderAnswers m) (yielding : List String) :
    (h.slotReopen i change a yielding).SlotsKept ∧
      (h.slotReopen i change a yielding).stage = h.stage := by
  have hcfg := Holder.reopening_cfg (h.slots i) change
  have hclear := (hk.kept i).reopening change
  have hdown : ∀ name, serves ((h.slots i).reopening change) name = true →
      serves (h.slots i) name = true := fun name hserves =>
    absurd (serves_iff.mp hserves).1 Bool.false_ne_true
  have hclosed := hk.change (.ofClear rfl hclear) hdown
  obtain ⟨hyield, hstays, hstage⟩ := hclosed.yield yielding
  obtain ⟨hkept, hsame⟩ := hclear.reopened rfl rfl (by rw [hcfg, htap]; exact hwire) a
  refine ⟨hyield.place hkept fun j name hj hserves => ?_, hstage⟩
  have hbefore : serves (h.slots j) name = true := by
    have hset := hstays j name hserves
    rwa [setSlot_ne _ _ hj] at hset
  cases hplaced : serves (((h.slots i).reopening change).reopened a) name with
  | false => rfl
  | true =>
      have hon : (h.slots i).cfg.source = some name := by
        have hthere := (serves_iff.mp hplaced).2
        rwa [hsame, hcfg, hsource] at hthere
      cases hopened : (h.slots i).opened with
      | true => exact absurd (hk.distinct j i name hbefore (serves_iff.mpr ⟨hopened, hon⟩)) hj
      | false => exact absurd hon (hfree hopened j name hbefore)

/-- Every opened listener is closed. -/
theorem SlotsKept.shutdown {h : HolderTable n m} (hk : h.SlotsKept) (i : Fin n) :
    (h.shutdown.slots i).own = .straight ∅ ∧
      (h.shutdown.slots i).opened = (h.slots i).opened ∧
      (h.shutdown.slots i).cfg = (h.slots i).cfg := by
  show (if (h.slots i).opened then _ else _ : Holder m).own = _ ∧
    (if (h.slots i).opened then _ else _ : Holder m).opened = _ ∧
    (if (h.slots i).opened then _ else _ : Holder m).cfg = _
  split
  · rename_i hopened
    obtain ⟨s, hup⟩ := (hk.kept i).1 hopened
    obtain ⟨hcfg, hopened', -⟩ := Holder.listenerClose_frame (h.slots i)
    exact ⟨(Holder.listenerClose_clear hup).own, hopened', hcfg⟩
  · rename_i hclosed
    exact ⟨((hk.kept i).2 ((Bool.not_eq_true _).mp hclosed)).own, rfl, rfl⟩

/-! ### The daemon's main -/

/-- What holds at each place of main: the slots are kept, the ones main has yet to open are
closed, and the ones it has started run their receivers. -/
def StageInv (h : HolderTable n m) : MainStage → Prop
  | .opening k => h.SlotsKept ∧
      ∀ i : Fin n, (h.slots i).rxStarted = false ∧ (k ≤ i → (h.slots i).opened = false)
  | .starting k => h.SlotsKept ∧ ∀ i : Fin n,
      (i < k → (h.slots i).opened = true → (h.slots i).rxStarted = true) ∧
      (k ≤ i → (h.slots i).rxStarted = false)
  | .looping => h.SlotsKept
  | .ended => (∀ i, (h.slots i).own = .straight ∅) ∧
      ∀ i j name, serves (h.slots i) name = true → serves (h.slots j) name = true → i = j

/-- No other slot is open on this one's interface. -/
def OnItsOwn (h : HolderTable n m) (i : Fin n) : Prop :=
  ∀ j, j ≠ i → (h.slots j).opened = true →
    (h.slots i).cfg.source = none ∨ (h.slots j).cfg.source ≠ (h.slots i).cfg.source

instance (h : HolderTable n m) (i : Fin n) : Decidable (h.OnItsOwn i) :=
  inferInstanceAs (Decidable (∀ j, j ≠ i → (h.slots j).opened = true →
    (h.slots i).cfg.source = none ∨ (h.slots j).cfg.source ≠ (h.slots i).cfg.source))

theorem OnItsOwn.free {h : HolderTable n m} {i : Fin n} (hown : h.OnItsOwn i) {j : Fin n}
    {name : String} (hj : j ≠ i) (hserves : serves (h.slots j) name = true) :
    (h.slots i).cfg.source ≠ some name := by
  obtain ⟨hopened, hsource⟩ := serves_iff.mp hserves
  intro hsame
  rcases hown j hj hopened with hnone | hne
  · rw [hnone] at hsame
    exact absurd hsame (by simp)
  · exact hne (hsource.trans hsame.symm)

theorem OnItsOwn.closed {h : HolderTable n m} {i : Fin n} (hown : h.OnItsOwn i)
    (hclosed : (h.slots i).opened = false) (j : Fin n) (name : String)
    (hserves : serves (h.slots j) name = true) : (h.slots i).cfg.source ≠ some name := by
  refine hown.free ?_ hserves
  rintro rfl
  exact absurd (hclosed.symm.trans (serves_iff.mp hserves).1) Bool.false_ne_true

/-- Once every slot is closed and clear, main may end. -/
theorem SlotsKept.ended {h : HolderTable n m} (hk : h.SlotsKept)
    (hclosed : ∀ i, (h.slots i).opened = false) : h.StageInv .ended :=
  ⟨fun i => ((hk.kept i).2 (hclosed i)).own, hk.distinct⟩

/-- **One segment of the command line is opened.** -/
theorem mainOpen_inv {h : HolderTable n m} {k : Nat} (hk : k < n) (hinv : h.StageInv (.opening k))
    (hfree : h.OnItsOwn ⟨k, hk⟩) (hstage : h.stage = .opening k) (a : HolderAnswers m) :
    (h.mainStep a).StageInv (h.mainStep a).stage := by
  obtain ⟨hslots, hrest⟩ := hinv
  obtain ⟨hrx, hclosed⟩ := hrest ⟨k, hk⟩
  have hopen := Holder.listenerOpen_opens ((hslots.kept ⟨k, hk⟩).2 (hclosed le_rfl)) hrx a
  unfold mainStep
  rw [hstage]
  dsimp only
  rw [dif_pos hk]
  generalize (h.slots ⟨k, hk⟩).listenerOpen a = r at hopen ⊢
  -- the slots main has yet to open stay as they are
  have hnext : ∀ H : Holder m, H.rxStarted = false → ∀ i : Fin n,
      ((h.setSlot ⟨k, hk⟩ H).slots i).rxStarted = false ∧
      (k + 1 ≤ i → ((h.setSlot ⟨k, hk⟩ H).slots i).opened = false) := by
    intro H hH i
    by_cases hi : i = ⟨k, hk⟩
    · rw [hi, setSlot_same]
      exact ⟨hH, fun hle => absurd hle (by simp)⟩
    · rw [setSlot_ne _ _ hi]
      exact ⟨(hrest i).1, fun hle => (hrest i).2 (Nat.le_of_succ_le hle)⟩
  have hrx' : r.1.rxStarted = false := hopen.rxStarted.trans hrx
  cases hr : r.2 with
  | true =>
      obtain ⟨s, hup⟩ := hopen.up hr
      have hplaced : (h.setSlot ⟨k, hk⟩ { r.1 with opened := true }).SlotsKept := by
        refine hslots.place (.ofUpheld rfl (hup.setOpened true)) fun j name hj hserves => ?_
        cases hnew : serves ({ r.1 with opened := true } : Holder m) name with
        | false => rfl
        | true =>
            have hon := (serves_iff.mp hnew).2
            exact absurd (hopen.source.symm.trans hon) (hfree.free hj hserves)
      exact ⟨⟨hplaced.kept, hplaced.distinct⟩, hnext _ hrx'⟩
  | false =>
      have hdown : r.1.opened = false := hopen.opened.trans (hclosed le_rfl)
      have hchanged : (h.setSlot ⟨k, hk⟩ r.1).SlotsKept := by
        refine hslots.change (.ofClear hdown (hopen.down hr)) fun name hserves => ?_
        rw [(serves_iff.mp hserves).1] at hdown
        exact absurd hdown.symm Bool.false_ne_true
      by_cases hone : n = 1
      · simp only [Bool.false_eq_true, if_false, if_pos hone]
        refine ⟨fun i => ?_, hchanged.distinct⟩
        have hi : i = ⟨k, hk⟩ := Fin.ext (by have := i.isLt; omega)
        show ((h.setSlot ⟨k, hk⟩ r.1).slots i).own = _
        rw [hi, setSlot_same]
        exact (hopen.down hr).own
      · simp only [Bool.false_eq_true, if_false, if_neg hone]
        exact ⟨⟨hchanged.kept, hchanged.distinct⟩, hnext _ hrx'⟩

/-- Main may start this receiver: under no tap, unless a vacant one's does not start. -/
def FeedsNoTap (H : Holder m) (rxStarts : Bool) : Prop :=
  H.cfg.tap = true → .rx ∈ H.own.held ∧ rxStarts = false

instance (H : Holder m) (rxStarts : Bool) : Decidable (FeedsNoTap H rxStarts) :=
  inferInstanceAs (Decidable (H.cfg.tap = true → .rx ∈ H.own.held ∧ rxStarts = false))

/-- An opened listener whose receiver main starts, or closes because it does not start. -/
theorem mainStarted {H : Holder m} (hkept : H.Kept) (hopened : H.opened = true)
    (hidle : H.rxStarted = false) {ok : Bool} (hfeeds : FeedsNoTap H ok) :
    ((H.reacRxStart ok).2 = true ∧
      ({ (H.reacRxStart ok).1 with rxStarted := true } : Holder m).Kept ∧
      (H.reacRxStart ok).1.opened = true ∧ (H.reacRxStart ok).1.cfg = H.cfg) ∨
    ((H.reacRxStart ok).2 = false ∧ (H.reacRxStart ok).1.listenerClose.Clear ∧
      (H.reacRxStart ok).1.listenerClose.cfg = H.cfg ∧
      (H.reacRxStart ok).1.listenerClose.rxStarted = false) := by
  obtain ⟨s, hup⟩ := hkept.1 hopened
  obtain ⟨hcfg, -, hrx⟩ := Holder.listenerClose_frame H
  cases htap : H.cfg.tap with
  | true =>
      obtain ⟨hheld, rfl⟩ := hfeeds htap
      rw [hup.own] at hheld
      rw [Holder.reacRxStart_eq hup.own hheld fun h => absurd h Bool.false_ne_true]
      exact Or.inr ⟨rfl, Holder.listenerClose_clear hup, hcfg, hrx.trans hidle⟩
  | false =>
      obtain ⟨hheld, hring, -⟩ := hup.wireShape htap
      rw [Holder.reacRxStart_eq hup.own hheld fun _ => ⟨hring, hup.idle hidle⟩]
      split
      · exact Or.inl ⟨rfl, .ofUpheld hopened (hup.feeder_taken htap), hopened, rfl⟩
      · exact Or.inr ⟨rfl, Holder.listenerClose_clear hup, hcfg, hrx.trans hidle⟩

/-- **The receiver of one segment of the command line is started.** -/
theorem mainStart_inv {h : HolderTable n m} {k : Nat} (hk : k < n)
    (hinv : h.StageInv (.starting k)) (hstage : h.stage = .starting k) (a : HolderAnswers m)
    (hfeeds : (h.slots ⟨k, hk⟩).opened = true → FeedsNoTap (h.slots ⟨k, hk⟩) a.rxStarts) :
    (h.mainStep a).StageInv (h.mainStep a).stage := by
  obtain ⟨hslots, hrest⟩ := hinv
  have hidle : (h.slots ⟨k, hk⟩).rxStarted = false := (hrest ⟨k, hk⟩).2 le_rfl
  unfold mainStep
  rw [hstage]
  dsimp only
  rw [dif_pos hk]
  cases hopened : (h.slots ⟨k, hk⟩).opened with
  | false =>
      rw [if_pos (by simp)]
      refine ⟨⟨hslots.kept, hslots.distinct⟩, fun i => ⟨fun hlt hup => ?_, fun hle => ?_⟩⟩
      · rcases Nat.lt_succ_iff_lt_or_eq.mp hlt with hlt | heq
        · exact (hrest i).1 hlt hup
        · have hi : i = ⟨k, hk⟩ := Fin.ext heq
          have hup' : (h.slots i).opened = true := hup
          rw [hi, hopened] at hup'
          exact absurd hup' Bool.false_ne_true
      · exact (hrest i).2 (Nat.le_of_succ_le hle)
  | true =>
      rw [if_neg (by simp)]
      -- the slots main has yet to start stay as they are
      have hnext : ∀ H : Holder m, (H.opened = true → H.rxStarted = true) → ∀ i : Fin n,
          (i < k + 1 → ((h.setSlot ⟨k, hk⟩ H).slots i).opened = true →
            ((h.setSlot ⟨k, hk⟩ H).slots i).rxStarted = true) ∧
          (k + 1 ≤ i → ((h.setSlot ⟨k, hk⟩ H).slots i).rxStarted = false) := by
        intro H hH i
        by_cases hi : i = ⟨k, hk⟩
        · rw [hi, setSlot_same]
          exact ⟨fun _ => hH, fun hle => absurd hle (by simp)⟩
        · rw [setSlot_ne _ _ hi]
          have hne : (i : Nat) ≠ k := fun heq => hi (Fin.ext heq)
          exact ⟨fun hlt => (hrest i).1 (by omega), fun hle => (hrest i).2 (by omega)⟩
      rcases mainStarted (hslots.kept ⟨k, hk⟩) hopened hidle (hfeeds hopened) with
        ⟨hok, hkept, hopened', hcfg⟩ | ⟨hok, hclear, hcfg, hrx⟩
      · rw [if_pos hok]
        have hplaced := hslots.change hkept fun name hserves => by
          have hthere := (serves_iff.mp hserves).2
          exact serves_iff.mpr ⟨hopened, (congrArg _ hcfg).symm.trans hthere⟩
        exact ⟨⟨hplaced.kept, hplaced.distinct⟩, hnext _ fun _ => rfl⟩
      · rw [if_neg (by simp [hok])]
        split
        · -- a lone segment's listener is closed, and the daemon ends
          rename_i hone
          have honly : ∀ i : Fin n, i = ⟨k, hk⟩ := fun i => Fin.ext (by have := i.isLt; omega)
          refine ⟨fun i => ?_, fun i j _ _ _ => (honly i).trans (honly j).symm⟩
          show ((h.setSlot ⟨k, hk⟩ _).slots i).own = _
          rw [honly i, setSlot_same]
          exact hclear.own
        · have hplaced := hslots.change (i := ⟨k, hk⟩)
            (H := { ((h.slots ⟨k, hk⟩).reacRxStart a.rxStarts).1.listenerClose with opened := false })
            (.ofClear rfl ⟨hclear.own, hclear.tapOpen⟩)
            fun name hserves => absurd (serves_iff.mp hserves).1 Bool.false_ne_true
          exact ⟨⟨hplaced.kept, hplaced.distinct⟩,
            hnext _ fun h => absurd h Bool.false_ne_true⟩

/-- When a step of main keeps one owner for each resource: it opens nothing on an interface
that another listener is open on, and starts no receiver under a tap. -/
def MainOwned (h : HolderTable n m) (a : HolderAnswers m) : MainStage → Prop
  | .opening k => ∀ hk : k < n, h.OnItsOwn ⟨k, hk⟩
  | .starting k => ∀ hk : k < n, (h.slots ⟨k, hk⟩).opened = true →
      FeedsNoTap (h.slots ⟨k, hk⟩) a.rxStarts
  | _ => True

instance (h : HolderTable n m) (a : HolderAnswers m) :
    (stage : MainStage) → Decidable (h.MainOwned a stage)
  | .opening k => inferInstanceAs (Decidable (∀ hk : k < n, h.OnItsOwn ⟨k, hk⟩))
  | .starting k => inferInstanceAs (Decidable (∀ hk : k < n, (h.slots ⟨k, hk⟩).opened = true →
      FeedsNoTap (h.slots ⟨k, hk⟩) a.rxStarts))
  | .looping => inferInstanceAs (Decidable True)
  | .ended => inferInstanceAs (Decidable True)

/-- **Main's own steps keep the slots.** -/
theorem mainStep_inv {h : HolderTable n m} (hinv : h.StageInv h.stage) (a : HolderAnswers m)
    (howned : h.MainOwned a h.stage) : (h.mainStep a).StageInv (h.mainStep a).stage := by
  cases hstage : h.stage with
  | opening k =>
      rw [hstage] at hinv howned
      by_cases hk : k < n
      · exact mainOpen_inv hk hinv (howned hk) hstage a
      · unfold mainStep
        rw [hstage]
        dsimp only
        rw [dif_neg hk]
        split
        · refine ⟨⟨hinv.1.kept, hinv.1.distinct⟩, fun i => ⟨fun hlt => ?_, fun _ => (hinv.2 i).1⟩⟩
          exact absurd hlt (Nat.not_lt_zero _)
        · rename_i hnone
          rw [not_exists] at hnone
          exact hinv.1.ended fun i => (Bool.not_eq_true _).mp (hnone i)
  | starting k =>
      rw [hstage] at hinv howned
      by_cases hk : k < n
      · exact mainStart_inv hk hinv hstage a (howned hk)
      · unfold mainStep
        rw [hstage]
        dsimp only
        rw [dif_neg hk]
        split
        · exact ⟨hinv.1.kept, hinv.1.distinct⟩
        · -- what was opened was started, so nothing is open
          rename_i hnone
          rw [not_exists] at hnone
          refine hinv.1.ended fun i => ?_
          cases hopened : (h.slots i).opened with
          | false => rfl
          | true =>
              have hlt : (i : Nat) < k := lt_of_lt_of_le i.isLt (Nat.le_of_not_lt hk)
              exact absurd ((hinv.2 i).1 hlt hopened) (hnone i)
  | looping =>
      have hsame : h.mainStep a = h := by unfold mainStep; rw [hstage]
      rw [hsame]
      exact hinv
  | ended =>
      have hsame : h.mainStep a = h := by unfold mainStep; rw [hstage]
      rw [hsame]
      exact hinv

/-! ### Every run -/

/-- When a step keeps one owner for each resource: main's own steps do, and a re-open is of
no tap, on an interface that no other listener is open on. -/
def StepOwned (h : HolderTable n m) : HolderAct n m → Prop
  | .main a => h.MainOwned a h.stage
  | .reopenRate i .. => (h.slots i).cfg.tap = false ∧ h.OnItsOwn i
  | .reopenRole i .. => (h.slots i).cfg.tap = false ∧ h.OnItsOwn i
  | _ => True

instance (h : HolderTable n m) : (e : HolderAct n m) → Decidable (h.StepOwned e)
  | .main a => inferInstanceAs (Decidable (h.MainOwned a h.stage))
  | .reopenRate i .. => inferInstanceAs (Decidable ((h.slots i).cfg.tap = false ∧ h.OnItsOwn i))
  | .reopenRole i .. => inferInstanceAs (Decidable ((h.slots i).cfg.tap = false ∧ h.OnItsOwn i))
  | .serve .. => inferInstanceAs (Decidable True)
  | .drop .. => inferInstanceAs (Decidable True)
  | .autodetect .. => inferInstanceAs (Decidable True)
  | .shutdown => inferInstanceAs (Decidable True)

theorem holderStep_inv {h : HolderTable n m} (hinv : h.StageInv h.stage) (e : HolderAct n m)
    (hstep : h.StepOwned e) : (holderStep h e).StageInv (holderStep h e).stage := by
  cases hstage : h.stage with
  | ended =>
      have hsame : holderStep h e = h := by unfold holderStep; rw [hstage]
      rw [hsame]
      exact hinv
  | looping =>
      have hk : h.SlotsKept := by rw [hstage] at hinv; exact hinv
      have hact : holderStep h e = h.act e := by unfold holderStep; rw [hstage]
      have hlooped : ∀ h' : HolderTable n m, h'.SlotsKept → h'.stage = h.stage →
          h'.StageInv h'.stage := by
        intro h' hk' hstage'
        rw [hstage', hstage]
        exact hk'
      rw [hact]
      cases e with
      | main a => exact mainStep_inv hinv a hstep
      | serve name conf hunt forcedRate a yielding =>
          show StageInv (if h.hearing then _ else h) _
          unfold act
          split
          · rename_i hhearing
            obtain ⟨hk', hstage'⟩ := hk.serve hhearing (serveCfg_source name conf hunt forcedRate) a
              yielding
            exact hlooped _ hk' hstage'
          · exact hinv
      | drop name =>
          obtain ⟨hk', -, hstage'⟩ := hk.drop name
          exact hlooped _ hk' hstage'
      | reopenRate i hz a yielding =>
          obtain ⟨hk', hstage'⟩ := hk.reopen (rateChange hz) (fun _ => rfl) (fun _ => rfl) hstep.1
            hstep.2.closed a yielding
          exact hlooped _ hk' hstage'
      | reopenRole i role a yielding =>
          obtain ⟨hk', hstage'⟩ := hk.reopen (roleChange role) (fun _ => rfl) (fun _ => rfl) hstep.1
            hstep.2.closed a yielding
          exact hlooped _ hk' hstage'
      | autodetect i takesAway builds =>
          obtain ⟨hkept, hopened, hcfg⟩ := (hk.kept i).autodetect takesAway builds
          refine hlooped _ (hk.change hkept fun name hserves => ?_) rfl
          rw [serves_iff, hopened, hcfg] at hserves
          exact serves_iff.mpr hserves
      | shutdown =>
          refine ⟨fun i => (hk.shutdown i).1, fun i j name hi hj => ?_⟩
          have hback : ∀ i, serves (h.shutdown.slots i) name = true →
              serves (h.slots i) name = true := by
            intro i hserves
            obtain ⟨-, hopened, hcfg⟩ := hk.shutdown i
            rw [serves_iff, hopened, hcfg] at hserves
            exact serves_iff.mpr hserves
          exact hk.distinct i j name (hback i hi) (hback j hj)
  | opening k =>
      cases e with
      | main a =>
          have hact : holderStep h (.main a) = h.mainStep a := by unfold holderStep; rw [hstage]
          rw [hact]
          exact mainStep_inv hinv a hstep
      | _ =>
          unfold holderStep
          rw [hstage]
          exact hinv
  | starting k =>
      cases e with
      | main a =>
          have hact : holderStep h (.main a) = h.mainStep a := by unfold holderStep; rw [hstage]
          rw [hact]
          exact mainStep_inv hinv a hstep
      | _ =>
          unfold holderStep
          rw [hstage]
          exact hinv

theorem holdersStart_inv (live : Option (Fin n → ListenerCfg)) :
    (holdersStart live : HolderTable n m).StageInv (holdersStart live : HolderTable n m).stage := by
  cases live with
  | none =>
      exact ⟨fun _ => .ofClear rfl ⟨rfl, rfl⟩, fun _ _ _ hserves =>
        absurd (serves_iff.mp hserves).1 Bool.false_ne_true⟩
  | some cfgs =>
      exact ⟨⟨fun _ => .ofClear rfl ⟨rfl, rfl⟩, fun _ _ _ hserves =>
        absurd (serves_iff.mp hserves).1 Bool.false_ne_true⟩, fun _ => ⟨rfl, fun _ => rfl⟩⟩

/-- A resource of a slot is live. -/
def Live (h : HolderTable n m) (t : Fin n × Resource m) : Prop := t.2 ∈ (h.slots t.1).own.live

/-- A listener owns what its own fields hold. -/
def Owns (h : HolderTable n m) (i : Fin n) (t : Fin n × Resource m) : Prop :=
  t.1 = i ∧ t.2 ∈ (h.slots i).own.held

structure OneOwner (h : HolderTable n m) : Prop where
  owned : ∀ t, h.Live t → ∃! i, (h.slots i).opened = true ∧ h.Owns i t
  closed : ∀ i, (h.slots i).opened = false → ∀ t, h.Live t → ¬ h.Owns i t
  /-- Nothing was lost, released twice or used once released, and no receiver's thread was
  joined that had not been started. -/
  faultless : ∀ i, (h.slots i).own.faults = []
  distinct : ∀ i j name, serves (h.slots i) name = true → serves (h.slots j) name = true → i = j

/-- Where every account is straight, and empty unless its slot is open. -/
theorem OneOwner.ofStraight {h : HolderTable n m} (hown : ∀ i, ∃ s, (h.slots i).own = .straight s)
    (hempty : ∀ i, (h.slots i).opened = false → (h.slots i).own = .straight ∅)
    (hdistinct : ∀ i j name, serves (h.slots i) name = true → serves (h.slots j) name = true →
      i = j) : h.OneOwner where
  owned := by
    intro t ht
    have hopened : (h.slots t.1).opened = true := by
      cases hopened : (h.slots t.1).opened with
      | true => rfl
      | false =>
          rw [Live, hempty _ hopened] at ht
          exact absurd ht (Finset.notMem_empty _)
    obtain ⟨s, hs⟩ := hown t.1
    have hheld : t.2 ∈ (h.slots t.1).own.held := by
      rw [Live, hs] at ht
      rw [hs]
      exact ht
    exact ⟨t.1, ⟨hopened, rfl, hheld⟩, fun i hi => hi.2.1.symm⟩
  closed := by
    rintro i hclosed t - ⟨-, hheld⟩
    rw [hempty i hclosed] at hheld
    exact absurd hheld (Finset.notMem_empty _)
  faultless := by
    intro i
    obtain ⟨s, hs⟩ := hown i
    rw [hs]
    rfl
  distinct := hdistinct

theorem StageInv.oneOwner {h : HolderTable n m} {stage : MainStage} (hinv : h.StageInv stage) :
    h.OneOwner := by
  have hkept : ∀ h : HolderTable n m, h.SlotsKept → h.OneOwner := by
    intro h hk
    refine .ofStraight (fun i => ?_) (fun i hclosed => ((hk.kept i).2 hclosed).own) hk.distinct
    cases hopened : (h.slots i).opened with
    | true =>
        obtain ⟨s, hup⟩ := (hk.kept i).1 hopened
        exact ⟨s, hup.own⟩
    | false => exact ⟨∅, ((hk.kept i).2 hopened).own⟩
  cases stage with
  | opening k => exact hkept h hinv.1
  | starting k => exact hkept h hinv.1
  | looping => exact hkept h hinv
  | ended => exact .ofStraight (fun i => ⟨∅, hinv.1 i⟩) (fun i _ => hinv.1 i) hinv.2

end HolderTable

open HolderTable in
/-- **Each live resource has one owner, whatever the world refuses**, in every run whose
steps open nothing on an interface that is served and start no receiver under a tap. -/
theorem one_owner (live : Option (Fin n → ListenerCfg)) (run : List (HolderAct n m))
    (hrun : (holderMachine n m).Guarded StepOwned (holdersStart live) run) :
    ((holderMachine n m).after (holdersStart live) run).OneOwner := by
  have hinv := (holderMachine n m).invariant_guarded (I := fun h => h.StageInv h.stage)
    (fun _ e hinv hstep => holderStep_inv hinv e hstep) run (holdersStart live)
    (holdersStart_inv live) hrun
  exact hinv.oneOwner

/-! ### A master's segment, and two command lines -/

/-- A world in which everything comes up, and a tap hears nothing. -/
def everythingUp (m : Nat) : HolderAnswers m :=
  { tapOpens := true, streams := ⟨0, Nat.succ_pos m⟩, tapNode := fun _ => true, tapStarts := true, rxOpens := true,
    doorNode := true, fits := true, claim := .claimed, sinkMade := true, slaveOpens := true,
    slaveStarts := true, sendMade := true, timerMade := true, pinSource := true, pinSink := true,
    capture := true, rxStarts := true }

/-- A master that comes up, is re-opened with its capture node there, and loses its second
send; a slave whose thread does not start. -/
def twoListeners : List (HolderAct 2 1) :=
  [.main (everythingUp 1), .main { everythingUp 1 with slaveStarts := false },
    .main (everythingUp 1), .main (everythingUp 1), .main (everythingUp 1), .main (everythingUp 1),
    .autodetect ⟨0, Nat.two_pos⟩ false true, .reopenRate ⟨0, Nat.two_pos⟩ 96000 { everythingUp 1 with sinkMade := false } [],
    .shutdown]

theorem one_owner_two :
    ((holderMachine 2 1).after
      (holdersStart (some fun i =>
        if i = 0 then segmentCfg "eth0" .master else segmentCfg "eth1" .slave))
      twoListeners).OneOwner :=
  one_owner _ twoListeners (by decide)

/-- A tap that hears nothing is a door whose receiver main starts, and its teardown releases
the receiver under its thread.  An interface named twice is opened twice. -/
theorem owners_broken :
    ¬ ((holderMachine 1 1).after
      (holdersStart (some fun _ => { segmentCfg "eth0" .master with tap := true }))
      [.main (everythingUp 1), .main (everythingUp 1), .main (everythingUp 1),
        .main (everythingUp 1), .shutdown]).OneOwner ∧
    ¬ ((holderMachine 2 1).after
      (holdersStart (some fun _ => segmentCfg "eth0" .slave))
      [.main (everythingUp 1), .main (everythingUp 1)]).OneOwner := by
  constructor
  · intro hone
    exact absurd (hone.faultless 0) (by decide)
  · intro hone
    exact absurd (hone.distinct 0 1 "eth0" (by decide) (by decide)) (by decide)

end ReacPw
