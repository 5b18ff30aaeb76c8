/-
One owner for each resource of the daemon's listeners.

While a slot is open, what its fields say it holds is what is live, and the flags its
teardown goes by tell the truth about the rest (`Upheld`); while it is closed, nothing
of it is live (`Clear`).  An open turns the second into the first, or leaves the second
on each of its ways out; a close turns the first into the second.  What breaks this is
the receiver's thread under a tap, whose teardown does not know of it, and a command
line that names an interface twice.
-/
import ReacPw.Holdings

namespace ReacPw

variable {n m : Nat}

namespace Holder

/-! ### The two states of a slot -/

/-- A closed slot: nothing of it is live, and nothing went wrong. -/
structure Clear (H : Holder m) : Prop where
  own : H.own = .straight ∅
  tapOpen : H.tapOpen = false

/-- An open slot with those resources. -/
structure Upheld (H : Holder m) (s : Finset (Resource m)) : Prop where
  own : H.own = .straight s
  feeder : H.rxStarted = true ↔ .feeder ∈ s
  slave : H.slaveOpen = true ↔ .slave ∈ s
  slaveThread : H.slaveOpen = true ↔ .slaveThread ∈ s
  txRing : .txRing ∈ s → H.txRingInit = true
  tap : H.tapOpen = true ↔ .tap ∈ s
  /-- A tap has its streams, or the receiver of a vacant door. -/
  tapShape : H.cfg.tap = true → ∀ r ∈ s, r = .tap ∨ (∃ i, r = .tapSrc i) ∨ r = .rx ∨ r = .ring
  wireShape : H.cfg.tap = false → .rx ∈ s ∧ .ring ∈ s ∧ .tap ∉ s ∧ ∀ i, .tapSrc i ∉ s
  timer : .adTimer ∈ s → .sink ∈ s

/-! ### Closing -/

theorem graphNodes_mem {r : Resource m} :
    r ∈ graphNodes m ↔ r = .adTimer ∨ r = .src ∨ r = .sink ∨ ∃ i, r = .tapSrc i := by
  simp [graphNodes, tapNodes, eq_comm]

theorem tapNodes_mem {r : Resource m} : r ∈ tapNodes m ↔ ∃ i, r = .tapSrc i := by
  simp [tapNodes, eq_comm]

/-- No resource uses a stream's node. -/
theorem tapNodes_first (s : Finset (Resource m)) :
    Account.UsersFirst Resource.uses s (tapNodes m) := by
  refine Account.usersFirst_of_unused _ _ _ fun t ht u _ => ?_
  obtain ⟨i, rfl⟩ := tapNodes_mem.mp ht
  cases u <;> rfl

theorem graphNodes_first (s : Finset (Resource m)) :
    Account.UsersFirst Resource.uses s (graphNodes m) := by
  refine ⟨fun u _ => by cases u <;> rfl, fun u _ => by cases u <;> rfl, ?_, tapNodes_first _⟩
  -- the sink's users are the two before it
  intro u hu
  cases u with
  | src => simp at hu
  | adTimer => simp at hu
  | _ => rfl

/-- The receiver and its ring, once nothing else reads them. -/
theorem receiver_first {s : Finset (Resource m)} (rest : List (Resource m))
    (hfeeder : .feeder ∉ s) (hsink : .sink ∉ s) (hsrc : .src ∉ s)
    (hrest : Account.UsersFirst Resource.uses ((s.erase .rx).erase .ring) rest) :
    Account.UsersFirst Resource.uses s (.rx :: .ring :: rest) := by
  refine ⟨fun u hu => ?_, fun u hu => ?_, hrest⟩
  · cases u with
    | feeder => exact absurd hu hfeeder
    | sink => exact absurd hu hsink
    | src => exact absurd hu hsrc
    | _ => rfl
  · cases u with
    | rx => simp at hu
    | feeder => exact absurd (Finset.mem_of_mem_erase hu) hfeeder
    | src => exact absurd (Finset.mem_of_mem_erase hu) hsrc
    | _ => rfl

/-- **A listener on its wire is closed with nothing left.** -/
theorem listenerClose_wire {H : Holder m} {s : Finset (Resource m)} (hup : H.Upheld s)
    (htap : H.cfg.tap = false) : (listenerClose H).own = .straight ∅ := by
  obtain ⟨-, -, hnotap, hnostream⟩ := hup.wireShape htap
  have hfeeder : (if H.rxStarted then H.own.stop Resource.uses .feeder else H.own) =
      .straight (s.erase .feeder) := by
    rw [hup.own]
    exact Account.stopIf_straight _ hup.feeder fun u _ => by cases u <;> rfl
  have hnodes := Account.freeAll_straight Resource.uses (graphNodes m) (s.erase .feeder)
    (graphNodes_first _)
  -- what is left when the graph's nodes are gone
  have hleft : ∀ r, r ∈ s.erase .feeder \ (graphNodes m).toFinset ↔
      r ∈ s ∧ (r = .rx ∨ r = .ring ∨ r = .txRing ∨ r = .seglock ∨ r = .slave ∨
        r = .slaveThread) := by
    intro r
    rw [Finset.mem_sdiff, List.mem_toFinset, graphNodes_mem, Finset.mem_erase]
    cases r with
    | tap => simp [hnotap]
    | tapSrc i => simp
    | _ => simp
  generalize s.erase .feeder \ (graphNodes m).toFinset = left at hnodes hleft
  have hslave : (if H.slaveOpen then
      ((Account.straight left).stop Resource.uses .slaveThread).stop Resource.uses .slave
      else Account.straight left) = .straight ((left.erase .slaveThread).erase .slave) := by
    split
    · rename_i hopen
      have hthread : .slaveThread ∈ left := (hleft _).mpr ⟨hup.slaveThread.mp hopen, by simp⟩
      have hslave : .slave ∈ left := (hleft _).mpr ⟨hup.slave.mp hopen, by simp⟩
      rw [Account.stop_straight _ hthread fun u _ => by cases u <;> rfl]
      refine Account.stop_straight _ (Finset.mem_erase.mpr ⟨by simp, hslave⟩) fun u hu => ?_
      cases u with
      | slaveThread => simp at hu
      | _ => rfl
    · rename_i hopen
      have hthread : .slaveThread ∉ left := fun h => hopen (hup.slaveThread.mpr ((hleft _).mp h).1)
      have hslave : .slave ∉ left := fun h => hopen (hup.slave.mpr ((hleft _).mp h).1)
      rw [Finset.erase_eq_of_notMem hthread, Finset.erase_eq_of_notMem hslave]
  have hrings : ∀ r, r ∈ (left.erase .slaveThread).erase .slave ↔
      r ∈ s ∧ (r = .rx ∨ r = .ring ∨ r = .txRing ∨ r = .seglock) := by
    intro r
    rw [Finset.mem_erase, Finset.mem_erase, hleft]
    cases r <;> simp
  generalize (left.erase .slaveThread).erase .slave = rings at hslave hrings
  have htxRing : (if H.txRingInit then (Account.straight rings).free Resource.uses .txRing
      else Account.straight rings) = .straight (rings.erase .txRing) := by
    split
    · refine Account.free_straight _ fun u hu => ?_
      rcases ((hrings u).mp hu).2 with rfl | rfl | rfl | rfl <;> rfl
    · rename_i hinit
      have hnot : .txRing ∉ rings := fun h => hinit (hup.txRing ((hrings _).mp h).1)
      rw [Finset.erase_eq_of_notMem hnot]
  have hlast : ∀ r, r ∈ rings.erase .txRing ↔ r ∈ s ∧ (r = .rx ∨ r = .ring ∨ r = .seglock) := by
    intro r
    rw [Finset.mem_erase, hrings]
    cases r <;> simp
  generalize rings.erase .txRing = last at htxRing hlast
  have hempty : last \ [Resource.rx, .ring, .seglock].toFinset = ∅ := by
    ext r
    rw [Finset.mem_sdiff, hlast, List.mem_toFinset]
    simp
    tauto
  unfold listenerClose
  rw [if_neg (by simp [htap])]
  show (Account.freeAll _ _ (if _ then _ else _)) = _
  rw [hfeeder, hnodes, hslave, htxRing, Account.freeAll_straight, hempty]
  refine receiver_first _ ?_ ?_ ?_ ⟨fun u hu => ?_, trivial⟩
  · intro h; simpa using ((hlast _).mp h).2
  · intro h; simpa using ((hlast _).mp h).2
  · intro h; simpa using ((hlast _).mp h).2
  · have hu' := Finset.mem_of_mem_erase (Finset.mem_of_mem_erase hu)
    rcases ((hlast u).mp hu').2 with rfl | rfl | rfl <;> rfl

/-- The resources of a tap that serves streams, or of one on its way there. -/
def Streams (s : Finset (Resource m)) : Prop := ∀ r ∈ s, r = .tap ∨ ∃ i, r = .tapSrc i

theorem Streams.insert {s : Finset (Resource m)} {r : Resource m} (hs : Streams s)
    (hr : r = .tap ∨ ∃ i, r = .tapSrc i) : Streams (insert r s) := by
  intro t ht
  rcases Finset.mem_insert.mp ht with rfl | ht
  · exact hr
  · exact hs t ht

/-- The tap goes after its streams' nodes, and the receiver of a vacant door stays. -/
theorem listenerCloseTap_own {H : Holder m} {s : Finset (Resource m)} (hown : H.own = .straight s)
    (htap : H.tapOpen = true ↔ .tap ∈ s) :
    (listenerCloseTap H).own = .straight ((s \ (tapNodes m).toFinset).erase .tap) ∧
      (listenerCloseTap H).tapOpen = false := by
  have hnodes := Account.freeAll_straight Resource.uses (tapNodes m) s (tapNodes_first s)
  have hkept : .tap ∈ s ↔ .tap ∈ s \ (tapNodes m).toFinset := by
    rw [Finset.mem_sdiff, List.mem_toFinset, tapNodes_mem]
    simp
  have hgone : ∀ u ∈ s \ (tapNodes m).toFinset, u.uses .tap = false := by
    intro u hu
    rw [Finset.mem_sdiff, List.mem_toFinset, tapNodes_mem] at hu
    cases u with
    | tapSrc i => exact absurd ⟨i, rfl⟩ hu.2
    | _ => rfl
  have hstop := Account.stopIf_straight Resource.uses (htap.trans hkept) hgone
  have hbooks : (H.books (Account.freeAll Resource.uses (tapNodes m))).own =
      .straight (s \ (tapNodes m).toFinset) := by
    show Account.freeAll _ _ H.own = _
    rw [hown, hnodes]
  rw [← hbooks] at hstop
  unfold listenerCloseTap
  dsimp only
  split
  · rename_i hopen
    have hopen' : H.tapOpen = true := hopen
    rw [if_pos hopen'] at hstop
    exact ⟨hstop.trans (congrArg _ rfl), rfl⟩
  · rename_i hopen
    have hopen' : ¬ H.tapOpen = true := hopen
    rw [if_neg hopen'] at hstop
    exact ⟨hstop, (Bool.not_eq_true _).mp hopen'⟩

/-- A tap that serves only streams is closed with nothing left. -/
theorem listenerCloseTap_clear {H : Holder m} {s : Finset (Resource m)}
    (hown : H.own = .straight s) (htap : H.tapOpen = true ↔ .tap ∈ s) (hs : Streams s) :
    (listenerCloseTap H).Clear := by
  obtain ⟨hleft, hopen⟩ := listenerCloseTap_own hown htap
  refine ⟨?_, hopen⟩
  have hempty : (s \ (tapNodes m).toFinset).erase .tap = ∅ := by
    refine Finset.eq_empty_of_forall_notMem fun r hr => ?_
    rw [Finset.mem_erase, Finset.mem_sdiff, List.mem_toFinset, tapNodes_mem] at hr
    rcases hs r hr.2.1 with htap | hstream
    · exact hr.1 htap
    · exact hr.2.2 hstream
  rw [hleft, hempty]

/-- A tap is closed before its listener's nodes, and they before its receiver. -/
theorem listenerClose_of_tap {H : Holder m} (htap : H.cfg.tap = true) :
    (listenerClose H).own = ((listenerCloseTap H).own.freeAll Resource.uses (graphNodes m)).freeAll
        Resource.uses [.rx, .ring] ∧
      (listenerClose H).tapOpen = (listenerCloseTap H).tapOpen := by
  rw [listenerClose, if_pos htap, listenerDropNodes]
  exact ⟨by rw [books_own, books_own], by rw [books_tapOpen, books_tapOpen]⟩

theorem listenerClose_tap {H : Holder m} {s : Finset (Resource m)} (hup : H.Upheld s)
    (htap : H.cfg.tap = true) : (listenerClose H).Clear := by
  obtain ⟨hleft, hopen⟩ := listenerCloseTap_own hup.own hup.tap
  have hrings : ∀ r ∈ (s \ (tapNodes m).toFinset).erase .tap, r = .rx ∨ r = .ring := by
    intro r hr
    rw [Finset.mem_erase, Finset.mem_sdiff, List.mem_toFinset, tapNodes_mem] at hr
    rcases hup.tapShape htap r hr.2.1 with h | h | h
    · exact absurd h hr.1
    · exact absurd h hr.2.2
    · exact h
  generalize (s \ (tapNodes m).toFinset).erase .tap = left at hleft hrings
  have hnodes := Account.freeAll_straight Resource.uses (graphNodes m) left (graphNodes_first _)
  have hsame : left \ (graphNodes m).toFinset = left := by
    refine Finset.sdiff_eq_self_of_disjoint (Finset.disjoint_left.mpr fun r hr hnode => ?_)
    rw [List.mem_toFinset, graphNodes_mem] at hnode
    rcases hrings r hr with rfl | rfl <;> simp at hnode
  rw [hsame] at hnodes
  have hempty : left \ [Resource.rx, .ring].toFinset = ∅ := by
    refine Finset.eq_empty_of_forall_notMem fun r hr => ?_
    rw [Finset.mem_sdiff] at hr
    rcases hrings r hr.1 with rfl | rfl <;> simp at hr
  have hapart : ∀ r : Resource m, r ≠ .rx → r ≠ .ring → r ∉ left := by
    intro r hrx hring hr
    rcases hrings r hr with h | h
    · exact hrx h
    · exact hring h
  obtain ⟨hown, hflag⟩ := listenerClose_of_tap htap
  refine ⟨?_, hflag.trans hopen⟩
  rw [hown, hleft, hnodes, Account.freeAll_straight, hempty]
  exact receiver_first _ (hapart _ (by simp) (by simp)) (hapart _ (by simp) (by simp))
    (hapart _ (by simp) (by simp)) trivial

theorem listenerCloseTap_frame (H : Holder m) :
    (listenerCloseTap H).cfg = H.cfg ∧ (listenerCloseTap H).opened = H.opened ∧
      (listenerCloseTap H).rxStarted = H.rxStarted := by
  unfold listenerCloseTap
  dsimp only
  split <;> exact ⟨rfl, rfl, rfl⟩

theorem listenerClose_frame (H : Holder m) :
    (listenerClose H).cfg = H.cfg ∧ (listenerClose H).opened = H.opened ∧
      (listenerClose H).rxStarted = H.rxStarted := by
  unfold listenerClose
  split
  · exact listenerCloseTap_frame H
  · exact ⟨rfl, rfl, rfl⟩

/-- **An open slot is closed with nothing left**, in every shape. -/
theorem listenerClose_clear {H : Holder m} {s : Finset (Resource m)} (hup : H.Upheld s) :
    (listenerClose H).Clear := by
  cases htap : H.cfg.tap with
  | true => exact listenerClose_tap hup htap
  | false =>
      refine ⟨listenerClose_wire hup htap, ?_⟩
      have hnotap : ¬ H.tapOpen = true := fun h => (hup.wireShape htap).2.2.1 (hup.tap.mp h)
      unfold listenerClose
      rw [if_neg (by simp [htap])]
      exact (Bool.not_eq_true _).mp hnotap

/-! ### Opening -/

/-- What an open makes of a clear slot: an open one, or a clear one again. -/
structure Opens (H : Holder m) (r : Holder m × Bool) : Prop where
  opened : r.1.opened = H.opened
  rxStarted : r.1.rxStarted = H.rxStarted
  source : r.1.cfg.source = H.cfg.source
  tap : r.1.cfg.tap = H.cfg.tap
  up : r.2 = true → ∃ s, r.1.Upheld s
  down : r.2 = false → r.1.Clear

theorem Opens.ofUp {H H' : Holder m} {s : Finset (Resource m)} (hup : H'.Upheld s)
    (hopened : H'.opened = H.opened) (hrx : H'.rxStarted = H.rxStarted) (hcfg : H'.cfg = H.cfg) :
    Opens H (H', true) where
  opened := hopened
  rxStarted := hrx
  source := congrArg ListenerCfg.source hcfg
  tap := congrArg ListenerCfg.tap hcfg
  up _ := ⟨s, hup⟩
  down h := absurd h.symm Bool.false_ne_true

theorem Opens.ofClear {H H' : Holder m} (hclear : H'.Clear) (hopened : H'.opened = H.opened)
    (hrx : H'.rxStarted = H.rxStarted) (hcfg : H'.cfg = H.cfg) : Opens H (H', false) where
  opened := hopened
  rxStarted := hrx
  source := congrArg ListenerCfg.source hcfg
  tap := congrArg ListenerCfg.tap hcfg
  up h := absurd h Bool.false_ne_true
  down _ := hclear

/-- An open that goes on from a later state of the same listener. -/
theorem Opens.from {H H' : Holder m} {r : Holder m × Bool} (h : Opens H' r)
    (hopened : H'.opened = H.opened) (hrx : H'.rxStarted = H.rxStarted)
    (hsource : H'.cfg.source = H.cfg.source) (htap : H'.cfg.tap = H.cfg.tap) : Opens H r where
  opened := h.opened.trans hopened
  rxStarted := h.rxStarted.trans hrx
  source := h.source.trans hsource
  tap := h.tap.trans htap
  up := h.up
  down := h.down

/-- The way out of an open that closes what it had opened. -/
theorem Opens.closed {H H' : Holder m} {s : Finset (Resource m)} (hup : H'.Upheld s)
    (hopened : H'.opened = H.opened) (hrx : H'.rxStarted = H.rxStarted) (hcfg : H'.cfg = H.cfg) :
    Opens H (listenerClose H', false) := by
  obtain ⟨hcfg', hopened', hrx'⟩ := listenerClose_frame H'
  exact .ofClear (listenerClose_clear hup) (hopened'.trans hopened) (hrx'.trans hrx)
    (hcfg'.trans hcfg)

/-- One more resource that no flag speaks of. -/
theorem Upheld.take {H : Holder m} {s : Finset (Resource m)} (hup : H.Upheld s)
    (given : List (Resource m)) (t : Resource m) (htap : H.cfg.tap = false)
    (hplain : t = .src ∨ t = .sink ∨ t = .seglock ∨ t = .adTimer ∧ .sink ∈ s) (hfresh : t ∉ s)
    (hover : ∀ u ∈ given, u ∈ s) : (H.books (Account.take given t)).Upheld (insert t s) := by
  have hother : ∀ r : Resource m, r ≠ .src → r ≠ .sink → r ≠ .seglock → r ≠ .adTimer →
      (r ∈ insert t s ↔ r ∈ s) := by
    intro r hsrc hsink hlock htimer
    have hne : r ≠ t := by
      rintro rfl
      rcases hplain with h | h | h | ⟨h, -⟩
      · exact hsrc h
      · exact hsink h
      · exact hlock h
      · exact htimer h
    rw [Finset.mem_insert]
    exact or_iff_right hne
  refine
    { own := ?_, feeder := ?_, slave := ?_, slaveThread := ?_, txRing := ?_, tap := ?_,
      tapShape := ?_, wireShape := ?_, timer := ?_ }
  · show Account.take given t H.own = _
    rw [hup.own]
    exact Account.take_straight hfresh hover
  · rw [hother _ (by simp) (by simp) (by simp) (by simp)]; exact hup.feeder
  · rw [hother _ (by simp) (by simp) (by simp) (by simp)]; exact hup.slave
  · rw [hother _ (by simp) (by simp) (by simp) (by simp)]; exact hup.slaveThread
  · rw [hother _ (by simp) (by simp) (by simp) (by simp)]; exact hup.txRing
  · rw [hother _ (by simp) (by simp) (by simp) (by simp)]; exact hup.tap
  · intro h
    exact absurd (htap.symm.trans h) Bool.false_ne_true
  · intro _
    obtain ⟨hrx, hring, hnotap, hnostream⟩ := hup.wireShape htap
    refine ⟨Finset.mem_insert_of_mem hrx, Finset.mem_insert_of_mem hring, ?_, fun i => ?_⟩
    · rw [hother _ (by simp) (by simp) (by simp) (by simp)]; exact hnotap
    · rw [hother _ (by simp) (by simp) (by simp) (by simp)]; exact hnostream i
  · intro htimer
    rcases Finset.mem_insert.mp htimer with rfl | hold
    · rcases hplain with h | h | h | ⟨-, hsink⟩
      · exact absurd h (by simp)
      · exact absurd h (by simp)
      · exact absurd h (by simp)
      · exact Finset.mem_insert_of_mem hsink
    · exact Finset.mem_insert_of_mem (hup.timer hold)

/-- The last part of an open, on an engine that is up or on none. -/
theorem listenerFinish_opens {H : Holder m} {s : Finset (Resource m)} (hup : H.Upheld s)
    (htap : H.cfg.tap = false) (hsrc : .src ∉ s) (htimer : .adTimer ∉ s) (a : HolderAnswers m) :
    Opens H (listenerFinish H a) := by
  obtain ⟨hrx, hring, -⟩ := hup.wireShape htap
  have hheld : H.own.held = s := by rw [hup.own]; rfl
  have htouch : (if .sink ∈ H.own.held then H.books (Account.touch [.sink, .rx]) else H) = H := by
    split
    · rename_i hsink
      rw [hheld] at hsink
      have hsame : Account.touch [.sink, .rx] H.own = H.own := by
        rw [hup.own]
        exact Account.touch_straight (by simp [hsink, hrx])
      unfold books
      rw [hsame]
    · rfl
  unfold listenerFinish
  rw [htouch]
  dsimp only
  rw [hheld]
  split
  · -- a master with its engine: the timer, and the nodes of a pin
    rename_i hmaster
    have hsink := hmaster.2
    rw [if_pos hsink]
    have htimed : ∃ s', (if a.timerMade then H.books (Account.take [.sink] .adTimer) else H).Upheld s' ∧
        .src ∉ s' ∧ .sink ∈ s' ∧ .rx ∈ s' ∧ .ring ∈ s' := by
      split
      · refine ⟨insert .adTimer s, hup.take [.sink] .adTimer htap (by simp [hsink]) htimer (by simp [hsink]), ?_⟩
        simp [hsrc, hsink, hrx, hring]
      · exact ⟨s, hup, hsrc, hsink, hrx, hring⟩
    have hframe : ∀ M : Holder m,
        M = (if a.timerMade then H.books (Account.take [.sink] .adTimer) else H) →
        M.opened = H.opened ∧ M.rxStarted = H.rxStarted ∧ M.cfg = H.cfg := by
      rintro M rfl
      split <;> exact ⟨rfl, rfl, rfl⟩
    obtain ⟨s', hup', hsrc', hsink', hrx', hring'⟩ := htimed
    generalize hM : (if a.timerMade then H.books (Account.take [.sink] .adTimer) else H) = M at hup' ⊢
    obtain ⟨hopened, hrxs, hcfg⟩ := hframe M hM.symm
    split
    · exact .ofUp hup' hopened hrxs hcfg
    · split
      · exact .closed hup' hopened hrxs hcfg
      · have hpinned := hup'.take ([.ring, .rx] ++ [.sink]) .src (by rw [hcfg]; exact htap)
          (Or.inl rfl) hsrc' (by simp [hsink', hrx', hring'])
        split
        · exact .closed hpinned hopened hrxs hcfg
        · exact .ofUp hpinned hopened hrxs hcfg
  · split
    · exact .closed hup rfl rfl rfl
    · refine .ofUp (hup.take _ .src htap (Or.inl rfl) hsrc fun u hu => ?_) rfl rfl rfl
      rcases List.mem_append.mp hu with hu | hu
      · rcases List.mem_cons.mp hu with rfl | hu
        · exact hring
        · rw [List.mem_singleton.mp hu]; exact hrx
      · split at hu
        · rename_i hsink
          rw [List.mem_singleton.mp hu]; exact hsink
        · exact absurd hu List.not_mem_nil

/-- What a wire's open holds before any engine. -/
def Bare (s : Finset (Resource m)) : Prop :=
  ∀ r ∈ s, r = .rx ∨ r = .ring ∨ r = .txRing ∨ r = .seglock

/-- Before any engine only the receiver uses anything: its ring. -/
theorem Bare.unused {s : Finset (Resource m)} (hs : Bare s) {t : Resource m}
    (hring : t = .ring → .rx ∉ s) : ∀ u ∈ s, u.uses t = false := by
  intro u hu
  rcases hs u hu with rfl | rfl | rfl | rfl
  · cases t with
    | ring => exact absurd hu (hring rfl)
    | _ => rfl
  · rfl
  · rfl
  · rfl

theorem Bare.erase {s : Finset (Resource m)} (hs : Bare s) (t : Resource m) : Bare (s.erase t) :=
  fun r hr => hs r (Finset.mem_of_mem_erase hr)

/-- **A way out before any engine**: everything is released by hand, the receiver before its
ring. -/
theorem Bare.freed {H : Holder m} {s : Finset (Resource m)} (hs : Bare s)
    (hown : H.own = .straight s) (htapOpen : H.tapOpen = false) (first rest : List (Resource m))
    (hnot : .ring ∉ first) (hall : ∀ r ∈ s, r ∈ first ++ .rx :: rest) :
    (H.books (Account.freeAll Resource.uses (first ++ .rx :: rest))).Clear := by
  have hrest : ∀ (ts : List (Resource m)) (s : Finset (Resource m)), Bare s → .rx ∉ s →
      Account.UsersFirst Resource.uses s ts := fun ts s hs hrx =>
    Account.usersFirst_of_unused _ _ _ fun _ _ => hs.unused fun _ => hrx
  have hfirst : ∀ (ts : List (Resource m)) (s : Finset (Resource m)), Bare s → .ring ∉ ts →
      Account.UsersFirst Resource.uses s (ts ++ .rx :: rest) := by
    intro ts
    induction ts with
    | nil =>
        intro s hs _
        exact ⟨hs.unused (by simp), hrest _ _ (hs.erase _) (by simp)⟩
    | cons t ts ih =>
        intro s hs hring
        rw [List.mem_cons, not_or] at hring
        exact ⟨hs.unused fun h => absurd h.symm hring.1, ih _ (hs.erase t) hring.2⟩
  refine ⟨?_, htapOpen⟩
  show Account.freeAll _ _ H.own = _
  rw [hown, Account.freeAll_straight _ _ _ (hfirst first s hs hnot)]
  congr 1
  refine Finset.sdiff_eq_empty_iff_subset.mpr fun r hr => ?_
  exact List.mem_toFinset.mpr (hall r hr)

/-- The transmit ring, and its flag. -/
theorem Upheld.txRing_taken {H : Holder m} {s : Finset (Resource m)} (hup : H.Upheld s)
    (htap : H.cfg.tap = false) (hfresh : .txRing ∉ s) :
    ({ H.books (Account.take [] .txRing) with txRingInit := true } : Holder m).Upheld
      (insert .txRing s) where
  own := by
    show Account.take _ _ H.own = _
    rw [hup.own]
    exact Account.take_straight hfresh (by simp)
  feeder := hup.feeder.trans (by simp)
  slave := hup.slave.trans (by simp)
  slaveThread := hup.slaveThread.trans (by simp)
  txRing _ := rfl
  tap := hup.tap.trans (by simp)
  tapShape h := absurd (htap.symm.trans h) Bool.false_ne_true
  wireShape _ := by
    obtain ⟨hrx, hring, hnotap, hnostream⟩ := hup.wireShape htap
    simp [hrx, hring, hnotap, hnostream]
  timer h := by
    simp only [Finset.mem_insert, reduceCtorEq, false_or] at h ⊢
    exact hup.timer h

/-- The master's branch, on a receiver and nothing else. -/
theorem listenerMaster_opens {H : Holder m} (hup : H.Upheld {.rx, .ring})
    (htap : H.cfg.tap = false) (a : HolderAnswers m) : Opens H (listenerMaster H a) := by
  have hring := hup.txRing_taken htap (by simp)
  have htapOpen : H.tapOpen = false := by
    have hnot : ¬ H.tapOpen = true := fun h => (hup.wireShape htap).2.2.1 (hup.tap.mp h)
    exact (Bool.not_eq_true _).mp hnot
  have hbare : Bare (insert .txRing {.rx, .ring} : Finset (Resource m)) := by
    intro r hr
    simp only [Finset.mem_insert, Finset.mem_singleton] at hr
    tauto
  unfold listenerMaster
  generalize hR : ({ H.books (Account.take [] .txRing) with txRingInit := true } : Holder m) = R
    at hring ⊢
  obtain ⟨hopened, hrx, hcfg, hopen⟩ : R.opened = H.opened ∧ R.rxStarted = H.rxStarted ∧
      R.cfg = H.cfg ∧ R.tapOpen = false := by
    rw [← hR]
    exact ⟨rfl, rfl, rfl, htapOpen⟩
  have hrefused : Opens H (R.books (Account.freeAll Resource.uses [.rx, .ring, .txRing]), false) :=
    .ofClear (hbare.freed hring.own hopen [] [.ring, .txRing] (by simp) (by simp)) hopened hrx hcfg
  dsimp only
  split
  · exact hrefused
  · split
    · exact hrefused
    · -- past the lock, which may not be there to take
      have hlocked : ∃ s, (if a.claim = .claimed then R.books (Account.take [] .seglock) else R).Upheld s ∧
          Bare s ∧ .txRing ∈ s := by
        split
        · refine ⟨_, hring.take [] .seglock (hcfg ▸ htap) (by simp) (by simp) (by simp), ?_, by simp⟩
          intro r hr
          rcases Finset.mem_insert.mp hr with rfl | hr
          · exact Or.inr (Or.inr (Or.inr rfl))
          · exact hbare r hr
        · exact ⟨_, hring, hbare, by simp⟩
      obtain ⟨s, hlock, hs, htx⟩ := hlocked
      generalize hM : (if a.claim = .claimed then R.books (Account.take [] .seglock) else R) = M
        at hlock ⊢
      obtain ⟨hopened', hrx', hcfg', hopen'⟩ : M.opened = R.opened ∧ M.rxStarted = R.rxStarted ∧
          M.cfg = R.cfg ∧ M.tapOpen = R.tapOpen := by
        rw [← hM]
        split <;> exact ⟨rfl, rfl, rfl, rfl⟩
      have hnone : ∀ r : Resource m, r ≠ .rx → r ≠ .ring → r ≠ .txRing → r ≠ .seglock → r ∉ s := by
        intro r h1 h2 h3 h4 hr
        rcases hs r hr with h | h | h | h <;> contradiction
      split
      · refine .ofClear (hs.freed hlock.own (hopen'.trans hopen) [.seglock] [.ring, .txRing]
          (by simp) fun r hr => ?_) (hopened'.trans hopened) (hrx'.trans hrx) (hcfg'.trans hcfg)
        rcases hs r hr with rfl | rfl | rfl | rfl <;> simp
      · have htapM : M.cfg.tap = false := by rw [hcfg', hcfg]; exact htap
        have hsink := hlock.take [.txRing] .sink htapM (by simp)
          (hnone _ (by simp) (by simp) (by simp) (by simp)) (by simp [htx])
        refine (listenerFinish_opens hsink htapM ?_ ?_ a).from (hopened'.trans hopened)
          (hrx'.trans hrx) (by show M.cfg.source = _; rw [hcfg', hcfg])
          (by show M.cfg.tap = _; rw [hcfg', hcfg])
        · simp [hnone]
        · simp [hnone]

/-- The slave engine, open and running. -/
theorem Upheld.slave_taken {H : Holder m} {s : Finset (Resource m)} (hup : H.Upheld s)
    (htap : H.cfg.tap = false) (hslave : .slave ∉ s) (hthread : .slaveThread ∉ s)
    (htx : .txRing ∈ s) :
    (({ H.books (Account.take [.txRing] .slave) with slaveOpen := true } : Holder m).books
      (Account.take [.slave] .slaveThread)).Upheld (insert .slaveThread (insert .slave s)) where
  own := by
    show Account.take _ _ (Account.take _ _ H.own) = _
    rw [hup.own, Account.take_straight hslave (by simp [htx])]
    exact Account.take_straight (by simp [hthread]) (by simp)
  feeder := hup.feeder.trans (by simp)
  slave := ⟨fun _ => by simp, fun _ => rfl⟩
  slaveThread := ⟨fun _ => by simp, fun _ => rfl⟩
  txRing h := hup.txRing (by simpa using h)
  tap := hup.tap.trans (by simp)
  tapShape h := absurd (htap.symm.trans h) Bool.false_ne_true
  wireShape _ := by
    obtain ⟨hrx, hring, hnotap, hnostream⟩ := hup.wireShape htap
    simp [hrx, hring, hnotap, hnostream]
  timer h := by
    simp only [Finset.mem_insert, reduceCtorEq, false_or] at h ⊢
    exact hup.timer h

/-- The slave's branch comes up, with an engine or without one. -/
theorem listenerSlave_upheld {H : Holder m} (hup : H.Upheld {.rx, .ring})
    (htap : H.cfg.tap = false) (a : HolderAnswers m) :
    ∃ s, (listenerSlave H a).Upheld s ∧ .src ∉ s ∧ .adTimer ∉ s ∧
      (listenerSlave H a).opened = H.opened ∧ (listenerSlave H a).rxStarted = H.rxStarted ∧
      (listenerSlave H a).cfg = H.cfg := by
  have hring := hup.txRing_taken htap (by simp)
  unfold listenerSlave
  generalize hR : ({ H.books (Account.take [] .txRing) with txRingInit := true } : Holder m) = R
    at hring ⊢
  obtain ⟨hopened, hrx, hcfg⟩ : R.opened = H.opened ∧ R.rxStarted = H.rxStarted ∧
      R.cfg = H.cfg := by
    rw [← hR]
    exact ⟨rfl, rfl, rfl⟩
  have htapR : R.cfg.tap = false := by rw [hcfg]; exact htap
  dsimp only
  split
  · exact ⟨_, hring, by simp, by simp, hopened, hrx, hcfg⟩
  · split
    · -- an engine that does not start is closed again
      have hback : ({ ({ R.books (Account.take [.txRing] .slave) with slaveOpen := true } :
          Holder m).books (Account.stop Resource.uses .slave) with slaveOpen := false } :
          Holder m) = R := by
        have hown : Account.stop Resource.uses .slave (Account.take [.txRing] .slave R.own) =
            R.own := by
          rw [hring.own, Account.take_straight (by simp) (by simp),
            Account.stop_straight _ (by simp), Finset.erase_insert (by simp)]
          intro u hu
          cases u with
          | slaveThread => simp at hu
          | _ => rfl
        have hflag : R.slaveOpen = false := by
          have hnot : ¬ R.slaveOpen = true := fun h => by simpa using hring.slave.mp h
          exact (Bool.not_eq_true _).mp hnot
        calc _ = ({ R with
                slaveOpen := false
                own := (R.own.take [.txRing] .slave).stop Resource.uses .slave } : Holder m) := rfl
          _ = R := by rw [hown, ← hflag]
      rw [hback]
      exact ⟨_, hring, by simp, by simp, hopened, hrx, hcfg⟩
    · have hrun := hring.slave_taken htapR (by simp) (by simp) (by simp)
      split
      · exact ⟨_, hrun.take [.txRing] .sink htapR (by simp) (by simp) (by simp), by simp, by simp, hopened, hrx,
          hcfg⟩
      · exact ⟨_, hrun, by simp, by simp, hopened, hrx, hcfg⟩

/-- **The open from the receiver on**, where a tap's is a vacant door. -/
theorem listenerReceive_opens {H : Holder m} (hclear : H.Clear) (hrx : H.rxStarted = false)
    (hslave : H.slaveOpen = false)
    (hvacant : H.cfg.tap = true → H.cfg.doorOnly = true ∧ H.cfg.doorVacant = true)
    (a : HolderAnswers m) : Opens H (listenerReceive H a) := by
  unfold listenerReceive
  split
  · exact .ofClear hclear rfl rfl rfl
  · have hown : (H.books fun A => (A.take [] .ring).take [.ring] .rx).own =
        .straight {.rx, .ring} := by
      show Account.take _ _ (Account.take _ _ H.own) = _
      rw [hclear.own, Account.take_straight (by simp) (by simp),
        Account.take_straight (by simp) (by simp)]
      rfl
    have hup : (H.books fun A => (A.take [] .ring).take [.ring] .rx).Upheld {.rx, .ring} :=
      { own := hown
        feeder := by simp [books, hrx]
        slave := by simp [books, hslave]
        slaveThread := by simp [books, hslave]
        txRing := by simp
        tap := by simp [books, hclear.tapOpen]
        tapShape := by
          intro _ r hr
          simp only [Finset.mem_insert, Finset.mem_singleton] at hr
          exact Or.inr (Or.inr hr)
        wireShape := by simp
        timer := by simp }
    generalize hR : (H.books fun A => (A.take [] .ring).take [.ring] .rx) = R at hup ⊢
    obtain ⟨hopened, hrx', hcfg, hopen⟩ : R.opened = H.opened ∧ R.rxStarted = H.rxStarted ∧
        R.cfg = H.cfg ∧ R.tapOpen = false := by
      rw [← hR]
      exact ⟨rfl, rfl, rfl, hclear.tapOpen⟩
    have hfrom : ∀ {r : Holder m × Bool}, Opens R r → Opens H r := fun h =>
      h.from hopened hrx' (by rw [hcfg]) (by rw [hcfg])
    have hwire : R.cfg.doorVacant = false ∨ R.cfg.doorOnly = false → R.cfg.tap = false := by
      intro hnot
      cases htap : R.cfg.tap with
      | false => rfl
      | true =>
          rw [hcfg] at htap hnot
          rw [(hvacant htap).1, (hvacant htap).2] at hnot
          exact absurd hnot (by simp)
    refine hfrom ?_
    dsimp only
    split
    · unfold listenerDoor
      split
      · exact .ofUp hup rfl rfl rfl
      · rename_i hdoor
        have htap := hwire (Or.inl ((Bool.not_eq_true _).mp hdoor))
        split
        · have hbare : Bare ({.rx, .ring} : Finset (Resource m)) := by
            intro r hr
            simp only [Finset.mem_insert, Finset.mem_singleton] at hr
            tauto
          exact .ofClear (hbare.freed hup.own hopen [] [.ring] (by simp) (by simp)) rfl rfl rfl
        · exact .ofUp (hup.take [.ring, .rx] .src htap (Or.inl rfl) (by simp) (by simp)) rfl rfl rfl
    · rename_i hdoor
      have htap := hwire (Or.inr ((Bool.not_eq_true _).mp hdoor))
      split
      · exact listenerFinish_opens hup htap (by simp) (by simp) a
      · split
        · exact listenerMaster_opens hup htap a
        · obtain ⟨s, hups, hsrc, htimer, hopened', hrx'', hcfg'⟩ := listenerSlave_upheld hup htap a
          exact (listenerFinish_opens hups (by rw [hcfg']; exact htap) hsrc htimer a).from hopened'
            hrx'' (by rw [hcfg']) (by rw [hcfg'])

/-- The nodes of a tap's streams, as far as they come up. -/
theorem tapServe_streams (a : HolderAnswers m) :
    ∀ (is : List (Fin m)) (H : Holder m) (s : Finset (Resource m)), is.Nodup →
      H.own = .straight s → .tap ∈ s → Streams s → (∀ i ∈ is, .tapSrc i ∉ s) →
      ∃ s', (tapServe a is H).1 = { H with own := .straight s' } ∧ .tap ∈ s' ∧ Streams s' := by
  intro is
  induction is with
  | nil =>
      intro H s _ hown htap hs _
      exact ⟨s, by rw [← hown]; rfl, htap, hs⟩
  | cons i rest ih =>
      intro H s hnodup hown htap hs hfresh
      obtain ⟨hnot, hrest⟩ := List.nodup_cons.mp hnodup
      unfold tapServe
      split
      · have htaken : (H.books (Account.take [.tap] (.tapSrc i))).own =
            .straight (insert (.tapSrc i) s) := by
          show Account.take _ _ H.own = _
          rw [hown]
          exact Account.take_straight (hfresh i List.mem_cons_self) (by simp [htap])
        obtain ⟨s', hres, htap', hs'⟩ := ih _ _ hrest htaken (Finset.mem_insert_of_mem htap)
          (hs.insert (Or.inr ⟨i, rfl⟩)) (by
            intro k hk
            rw [Finset.mem_insert, not_or]
            refine ⟨?_, hfresh k (List.mem_cons_of_mem _ hk)⟩
            rintro heq
            exact hnot (Resource.tapSrc.inj heq ▸ hk))
        exact ⟨s', hres, htap', hs'⟩
      · exact ⟨s, by rw [← hown], htap, hs⟩

/-- What opening a tap makes of a clear slot. -/
theorem listenerOpenTap_cases {H : Holder m} (hclear : H.Clear) (a : HolderAnswers m) :
    ((listenerOpenTap H a).2 = .up ∧ ∃ s, .tap ∈ s ∧ Streams s ∧
      (listenerOpenTap H a).1 = { H with tapOpen := true, own := .straight s }) ∨
    (listenerOpenTap H a).2 ≠ .up ∧ (listenerOpenTap H a).1 = H := by
  have hback : ∀ s : Finset (Resource m), .tap ∈ s → Streams s →
      listenerCloseTap { H with tapOpen := true, own := .straight s } = H := by
    intro s htap hs
    have hc := listenerCloseTap_clear (H := { H with tapOpen := true, own := .straight s }) rfl
      (by simp [htap]) hs
    have hstep : ∀ K : Holder m, K.Clear → K = { K with tapOpen := H.tapOpen, own := H.own } :=
      fun K hK => by rw [hclear.tapOpen, hclear.own, ← hK.tapOpen, ← hK.own]
    rw [hstep _ hc]
    unfold listenerCloseTap
    dsimp only
    split <;> rfl
  have htaken : ({ H.books (Account.take [] .tap) with tapOpen := true } : Holder m) =
      { H with tapOpen := true, own := .straight {.tap} } := by
    have hown : Account.take [] .tap H.own = .straight {.tap} := by
      rw [hclear.own, Account.take_straight (by simp) (by simp)]
      rfl
    calc _ = ({ H with tapOpen := true, own := H.own.take [] .tap } : Holder m) := rfl
      _ = _ := by rw [hown]
  have hbare : Streams ({.tap} : Finset (Resource m)) := fun r hr =>
    Or.inl (Finset.mem_singleton.mp hr)
  unfold listenerOpenTap
  split
  · exact Or.inr ⟨by simp, rfl⟩
  · dsimp only
    rw [htaken]
    split
    · exact Or.inr ⟨by simp, hback _ (by simp) hbare⟩
    · obtain ⟨s, hserved, htap, hs⟩ := tapServe_streams a ((List.finRange m).take a.streams)
        { H with tapOpen := true, own := .straight {.tap} } {.tap}
        ((List.nodup_finRange m).sublist (List.take_sublist _ _)) rfl (by simp) hbare (by simp)
      split
      · exact Or.inl ⟨rfl, s, htap, hs, hserved⟩
      · refine Or.inr ⟨by simp, ?_⟩
        dsimp only
        rw [hserved]
        exact hback s htap hs

/-- A clear slot has no node to drop, and nothing is lost with its fields. -/
theorem Clear.cleared {H : Holder m} (hclear : H.Clear) :
    listenerCleared H = { H with slaveOpen := false, txRingInit := false } := by
  have hnodes : listenerHoldsNodes H = false := by
    simp [listenerHoldsNodes, hclear.own]
  have hforget : Account.forget {.src, .sink, .seglock, .adTimer} H.own = H.own := by
    rw [hclear.own]
    exact Account.forget_straight (Finset.disjoint_empty_left _)
  unfold listenerCleared
  rw [if_neg (by simp [hnodes])]
  calc _ = ({ H with
          slaveOpen := false
          txRingInit := false
          own := H.own.forget {.src, .sink, .seglock, .adTimer} } : Holder m) := rfl
    _ = _ := by rw [hforget]

/-- **Every open of a clear slot ends with an open listener or a clear slot**, whatever is
refused and in every shape. -/
theorem listenerOpen_opens {H : Holder m} (hclear : H.Clear) (hrx : H.rxStarted = false)
    (a : HolderAnswers m) : Opens H (listenerOpen H a) := by
  unfold listenerOpen
  rw [hclear.cleared]
  generalize hR : ({ H with slaveOpen := false, txRingInit := false } : Holder m) = R
  obtain ⟨hclearR, hrxR, hslave, hopened, hcfg⟩ : R.Clear ∧ R.rxStarted = false ∧
      R.slaveOpen = false ∧ R.opened = H.opened ∧ R.cfg = H.cfg := by
    rw [← hR]
    exact ⟨⟨hclear.own, hclear.tapOpen⟩, hrx, rfl, rfl, rfl⟩
  have hfrom : ∀ {r : Holder m × Bool}, Opens R r → Opens H r := fun h =>
    h.from hopened (hrxR.trans hrx.symm) (by rw [hcfg]) (by rw [hcfg])
  refine hfrom ?_
  dsimp only
  split
  · rename_i htap
    rcases listenerOpenTap_cases hclearR a with ⟨hup, s, hheld, hs, hres⟩ | ⟨hnot, hres⟩
    · rw [hup, hres]
      have hother : ∀ r : Resource m, r ≠ .tap → (∀ i, r ≠ .tapSrc i) → r ∉ s := by
        intro r hne hstream hr
        rcases hs r hr with h | ⟨i, h⟩
        · exact hne h
        · exact hstream i h
      refine .ofUp (s := s) ?_ rfl rfl rfl
      exact
        { own := rfl
          feeder := by simp [hrxR, hother]
          slave := by simp [hslave, hother]
          slaveThread := by simp [hslave, hother]
          txRing := by simp [hother]
          tap := by simp [hheld]
          tapShape := fun _ r hr => (hs r hr).imp_right Or.inl
          wireShape := fun h => absurd (htap.symm.trans h) (by simp)
          timer := by simp [hother] }
    · cases hfound : (listenerOpenTap R a).2 with
      | up => exact absurd hfound hnot
      | failed =>
          rw [hres]
          exact .ofClear hclearR rfl rfl rfl
      | vacant =>
          rw [hres]
          have hvacated : (cfgVacated R.cfg).doorOnly = true ∧ (cfgVacated R.cfg).doorVacant = true ∧
              (cfgVacated R.cfg).source = R.cfg.source ∧ (cfgVacated R.cfg).tap = R.cfg.tap := by
            unfold cfgVacated
            rw [if_pos htap]
            exact ⟨rfl, rfl, rfl, rfl⟩
          refine (listenerReceive_opens (H := { R with cfg := cfgVacated R.cfg })
            ⟨hclearR.own, hclearR.tapOpen⟩ hrxR hslave
            (fun _ => ⟨hvacated.1, hvacated.2.1⟩) a).from rfl rfl hvacated.2.2.1 hvacated.2.2.2
  · rename_i htap
    exact listenerReceive_opens hclearR hrxR hslave (fun h => absurd h htap) a

/-! ### The callers -/

/-- A slot as the daemon's loop finds it: open and upheld, or closed and clear. -/
def Kept (H : Holder m) : Prop :=
  (H.opened = true → ∃ s, H.Upheld s) ∧ (H.opened = false → H.Clear)

theorem Kept.ofClear {H : Holder m} (hclosed : H.opened = false) (hclear : H.Clear) : H.Kept :=
  ⟨fun h => absurd (hclosed.symm.trans h) Bool.false_ne_true, fun _ => hclear⟩

theorem Kept.ofUpheld {H : Holder m} {s : Finset (Resource m)} (hopened : H.opened = true)
    (hup : H.Upheld s) : H.Kept :=
  ⟨fun _ => ⟨s, hup⟩, fun h => absurd (h.symm.trans hopened) Bool.false_ne_true⟩

/-- The open flag is the callers'. -/
theorem Upheld.setOpened {H : Holder m} {s : Finset (Resource m)} (hup : H.Upheld s) (flag : Bool) :
    ({ H with opened := flag } : Holder m).Upheld s :=
  { own := hup.own, feeder := hup.feeder, slave := hup.slave, slaveThread := hup.slaveThread,
    txRing := hup.txRing, tap := hup.tap, tapShape := hup.tapShape, wireShape := hup.wireShape,
    timer := hup.timer }

theorem Upheld.idle {H : Holder m} {s : Finset (Resource m)} (hup : H.Upheld s)
    (hrx : H.rxStarted = false) : .feeder ∉ s := fun h =>
  absurd (hrx.symm.trans (hup.feeder.mpr h)) Bool.false_ne_true

/-- The receiver's start, on a receiver that is open. -/
theorem reacRxStart_eq {H : Holder m} {s : Finset (Resource m)} (hown : H.own = .straight s)
    (hrx : .rx ∈ s) {ok : Bool} (hidle : ok = true → .ring ∈ s ∧ .feeder ∉ s) :
    reacRxStart H ok =
      if ok then ({ H with own := .straight (insert .feeder s) }, true) else (H, false) := by
  have htouch : H.books (Account.touch [.rx]) = H := by
    have hsame : Account.touch [.rx] H.own = H.own := by
      rw [hown]
      exact Account.touch_straight (by simp [hrx])
    unfold books
    rw [hsame]
  unfold reacRxStart
  dsimp only
  rw [htouch]
  split
  · rename_i hok
    obtain ⟨hring, hfeeder⟩ := hidle hok
    have htake : Account.take [.rx, .ring] .feeder H.own = .straight (insert .feeder s) := by
      rw [hown]
      exact Account.take_straight hfeeder (by simp [hrx, hring])
    unfold books
    rw [htake]
  · rfl

/-- A started receiver, and its flag. -/
theorem Upheld.feeder_taken {H : Holder m} {s : Finset (Resource m)} (hup : H.Upheld s)
    (htap : H.cfg.tap = false) :
    ({ H with own := .straight (insert .feeder s), rxStarted := true } : Holder m).Upheld
      (insert .feeder s) where
  own := rfl
  feeder := ⟨fun _ => by simp, fun _ => rfl⟩
  slave := hup.slave.trans (by simp)
  slaveThread := hup.slaveThread.trans (by simp)
  txRing h := hup.txRing (by simpa using h)
  tap := hup.tap.trans (by simp)
  tapShape h := absurd (htap.symm.trans h) Bool.false_ne_true
  wireShape _ := by
    obtain ⟨hrx, hring, hnotap, hnostream⟩ := hup.wireShape htap
    simp [hrx, hring, hnotap, hnostream]
  timer h := by
    simp only [Finset.mem_insert, reduceCtorEq, false_or] at h ⊢
    exact hup.timer h

/-- A listener on its wire that came up, once its receiver is started or it is closed. -/
theorem Upheld.started {H : Holder m} {s : Finset (Resource m)} (hup : H.Upheld s)
    (htap : H.cfg.tap = false) (hrx : H.rxStarted = false) (ok : Bool) :
    ((reacRxStart H ok).2 = true ∧
      ({ (reacRxStart H ok).1 with opened := true, rxStarted := true } : Holder m).Kept ∧
      (reacRxStart H ok).1.cfg = H.cfg) ∨
    ((reacRxStart H ok).2 = false ∧ (reacRxStart H ok).1 = H) := by
  obtain ⟨hheld, hring, -⟩ := hup.wireShape htap
  rw [reacRxStart_eq hup.own hheld fun _ => ⟨hring, hup.idle hrx⟩]
  split
  · exact Or.inl ⟨rfl, .ofUpheld rfl ((hup.feeder_taken htap).setOpened true), rfl⟩
  · exact Or.inr ⟨rfl, rfl⟩

theorem Clear.memset {H : Holder m} (hclear : H.Clear) (cfg : ListenerCfg) :
    (H.memset cfg).Clear := by
  refine ⟨?_, rfl⟩
  show H.own.forget H.own.held = _
  rw [hclear.own]
  exact Account.forget_straight (Finset.disjoint_empty_left _)

/-- **A serve leaves its slot open on what it was given, or zeroed.** -/
theorem Clear.serveIn {H : Holder m} (hclear : H.Clear) (cfg : ListenerCfg) (a : HolderAnswers m) :
    (H.serveIn cfg a).Kept ∧
      ((H.serveIn cfg a).opened = true → (H.serveIn cfg a).cfg.source = cfg.source) := by
  have hopen := listenerOpen_opens (hclear.memset cfg) rfl a
  have hzeroed : ∀ K : Holder m, K.Clear → (K.memset .zeroed).Kept ∧
      ((K.memset .zeroed).opened = true → (K.memset .zeroed).cfg.source = cfg.source) := fun K hK =>
    ⟨.ofClear rfl (hK.memset .zeroed), fun h => absurd h Bool.false_ne_true⟩
  unfold Holder.serveIn
  generalize listenerOpen (H.memset cfg) a = r at hopen ⊢
  have hrx : r.1.rxStarted = false := hopen.rxStarted
  have hsource : r.1.cfg.source = cfg.source := hopen.source
  dsimp only
  cases hr : r.2 with
  | false =>
      rw [if_pos (by simp)]
      exact hzeroed _ (hopen.down hr)
  | true =>
      obtain ⟨s, hup⟩ := hopen.up hr
      rw [if_neg (by simp)]
      split
      · -- a door or a tap starts nothing
        refine ⟨.ofUpheld (s := s) rfl ?_, fun _ => hsource⟩
        have hsame : ({ r.1 with opened := true, rxStarted := false } : Holder m) =
            { r.1 with opened := true } := by rw [← hrx]
        rw [hsame]
        exact hup.setOpened true
      · rename_i hfeeds
        have htap : r.1.cfg.tap = false := by
          rw [Bool.or_eq_true, not_or] at hfeeds
          exact (Bool.not_eq_true _).mp hfeeds.2
        rcases hup.started htap hrx a.rxStarts with ⟨hok, hkept, hcfg⟩ | ⟨hok, hres⟩
        · rw [if_pos hok]
          exact ⟨hkept, fun _ => by rw [← hsource]; exact congrArg _ hcfg⟩
        · rw [if_neg (by simp [hok]), hres]
          exact hzeroed _ (listenerClose_clear hup)

theorem Clear.flags {H : Holder m} (hclear : H.Clear) (opened rxStarted : Bool)
    (cfg : ListenerCfg) :
    ({ H with opened := opened, rxStarted := rxStarted, cfg := cfg } : Holder m).Clear :=
  ⟨hclear.own, hclear.tapOpen⟩

theorem Kept.drop {H : Holder m} (hkept : H.Kept) (hopened : H.opened = true) : H.drop.Clear := by
  obtain ⟨s, hup⟩ := hkept.1 hopened
  have hclear := listenerClose_clear hup
  exact ⟨hclear.own, hclear.tapOpen⟩

/-- **A re-open closes its slot first.** -/
theorem Kept.reopening {H : Holder m} (hkept : H.Kept) (change : ListenerCfg → ListenerCfg) :
    (H.reopening change).Clear := by
  unfold Holder.reopening
  split
  · rename_i hopened
    obtain ⟨s, hup⟩ := hkept.1 hopened
    exact (listenerClose_clear hup).flags _ _ _
  · rename_i hclosed
    exact (hkept.2 ((Bool.not_eq_true _).mp hclosed)).flags _ _ _

theorem reopening_cfg (H : Holder m) (change : ListenerCfg → ListenerCfg) :
    (H.reopening change).cfg = change H.cfg := by
  unfold Holder.reopening
  dsimp only
  split
  · rw [(listenerClose_frame H).1]
  · rfl

/-- **A re-open leaves its slot open, or closed and clear**, where the listener is no tap. -/
theorem Clear.reopened {H : Holder m} (hclear : H.Clear) (hclosed : H.opened = false)
    (hrx : H.rxStarted = false) (htap : H.cfg.tap = false) (a : HolderAnswers m) :
    (H.reopened a).Kept ∧ (H.reopened a).cfg.source = H.cfg.source := by
  have hopen := listenerOpen_opens hclear hrx a
  unfold Holder.reopened
  generalize listenerOpen H a = r at hopen ⊢
  dsimp only
  cases hr : r.2 with
  | false =>
      rw [if_pos (by simp)]
      exact ⟨.ofClear (hopen.opened.trans hclosed) (hopen.down hr), hopen.source⟩
  | true =>
      obtain ⟨s, hup⟩ := hopen.up hr
      rw [if_neg (by simp)]
      rcases hup.started (hopen.tap.trans htap) (hopen.rxStarted.trans hrx) a.rxStarts with
        ⟨hok, hkept, hcfg⟩ | ⟨hok, hres⟩
      · rw [if_pos hok]
        exact ⟨hkept, by rw [← hopen.source]; exact congrArg _ hcfg⟩
      · rw [if_neg (by simp [hok]), hres]
        have hclear' := listenerClose_clear hup
        refine ⟨.ofClear rfl ⟨hclear'.own, hclear'.tapOpen⟩, ?_⟩
        show (listenerClose r.1).cfg.source = _
        rw [(listenerClose_frame r.1).1]
        exact hopen.source

/-- The capture node taken away. -/
theorem Upheld.src_freed {H : Holder m} {s : Finset (Resource m)} (hup : H.Upheld s)
    (htap : H.cfg.tap = false) :
    (H.books (Account.free Resource.uses .src)).Upheld (s.erase .src) where
  own := by
    show Account.free _ _ H.own = _
    rw [hup.own]
    exact Account.free_straight _ fun u _ => by cases u <;> rfl
  feeder := hup.feeder.trans (by simp)
  slave := hup.slave.trans (by simp)
  slaveThread := hup.slaveThread.trans (by simp)
  txRing h := hup.txRing (Finset.mem_of_mem_erase h)
  tap := hup.tap.trans (by simp)
  tapShape h := absurd (htap.symm.trans h) Bool.false_ne_true
  wireShape _ := by
    obtain ⟨hrx, hring, hnotap, hnostream⟩ := hup.wireShape htap
    simp [hrx, hring, hnotap, hnostream]
  timer h := by simpa using hup.timer (Finset.mem_of_mem_erase h)

/-- The autodetect timer finds its slot open, and leaves it so. -/
theorem Kept.autodetect {H : Holder m} (hkept : H.Kept) (takesAway builds : Bool) :
    (H.autodetect takesAway builds).Kept ∧
      (H.autodetect takesAway builds).opened = H.opened ∧
      (H.autodetect takesAway builds).cfg = H.cfg := by
  unfold Holder.autodetect
  split
  · exact ⟨hkept, rfl, rfl⟩
  · rename_i htimer
    rw [not_not] at htimer
    cases hopened : H.opened with
    | false =>
        rw [(hkept.2 hopened).own] at htimer
        exact absurd htimer (Finset.notMem_empty _)
    | true =>
        obtain ⟨s, hup⟩ := hkept.1 hopened
        rw [hup.own] at htimer
        have hsink := hup.timer htimer
        have htap : H.cfg.tap = false := by
          cases htap : H.cfg.tap with
          | false => rfl
          | true => exact absurd (hup.tapShape htap _ hsink) (by simp)
        have htaken : ∃ s', (if takesAway then H.books (Account.free Resource.uses .src)
            else H).Upheld s' ∧ .sink ∈ s' := by
          split
          · exact ⟨_, hup.src_freed htap, by simpa using hsink⟩
          · exact ⟨s, hup, hsink⟩
        obtain ⟨s', hup', hsink'⟩ := htaken
        dsimp only
        generalize hM : (if takesAway then H.books (Account.free Resource.uses .src) else H) = M
          at hup' ⊢
        obtain ⟨hopenedM, hcfg⟩ : M.opened = true ∧ M.cfg = H.cfg := by
          rw [← hM]
          split <;> exact ⟨hopened, rfl⟩
        obtain ⟨hrx, hring, -⟩ := hup'.wireShape (by rw [hcfg]; exact htap)
        split
        · rename_i hbuilds
          have hsrc : .src ∉ s' := by simpa [hup'.own] using hbuilds.2
          refine ⟨.ofUpheld hopenedM (hup'.take [.ring, .rx, .sink] .src (by rw [hcfg]; exact htap)
            (Or.inl rfl) hsrc (by simp [hring, hrx, hsink'])), hopenedM, hcfg⟩
        · exact ⟨.ofUpheld hopenedM hup', hopenedM, hcfg⟩

end Holder

end ReacPw
