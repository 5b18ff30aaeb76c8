/-
Who gives a port's budget up, and what is left of the rest.

A yield is all or nothing.  When it happens every holder of the port is dropped, each
in its own slot: the table finds a listener by its interface, and an opened listener
is on an interface of its own (`Placed`).  The induction over the yielding names is
`linkBudgetYield_slots`.

Whether it happens is read off the node's pacer and the listener's latch.  A joined
slave's node and a box's have no pacer, and the latch says what the last publishing
found, in the roles that publish it.  So the walk is right where what it reads agrees
with what the holders are doing (`YieldRead`).
-/
import ReacPw.BudgetYield
import ReacPw.Proofs.Placed
import ReacPw.Proofs.LinkBudget

namespace ReacPw

variable {σ : Type*} {n : Nat} {η : Type*}

/-! ### What a yield owes -/

/-- A listener that sends on a port beside its taker. -/
def holdsPort (h : Hearing σ n) (taker port : String) (i : Fin n) : Bool :=
  sendsOn (h.listeners i) port && (h.listeners i).cfg.source != some taker

/-- The holders' interfaces, in the order of the slots. -/
def portNames (h : Hearing σ n) (taker port : String) : List String :=
  ((List.finRange n).filter (holdsPort h taker port)).filterMap fun i =>
    (h.listeners i).cfg.source

/-- An end of a pairing with a box: a slave joined to one, or `role = box`. -/
def pairsWithBox (L : Listener) : Bool :=
  L.cfg.role == .slave && (L.cfg.joinBoxMaster || L.cfg.boxModel)

/-- A listener that carries something, or that the operator answered for. -/
def carries (L : Listener) (w : SinkTruth) : Bool :=
  L.cfg.rolePinned || w.framesArriving || pairsWithBox L || (sinkFacts L w).pastProbing ||
    (sinkFacts L w).recognizedBox

/-- All of them yield: dropped in their slots and no other, handed back to the interface
table, their sniffers told, and counted. -/
structure AllYield (S : IfScan σ) (t : HuntTable σ n η) (taker port : String) (now : Nat)
    (r : HuntTable σ n η × Nat) : Prop where
  slots : ∀ i, r.1.hear.listeners i =
    if holdsPort t.hear taker port i then listenerDropped (t.hear.listeners i)
    else t.hear.listeners i
  scan : r.1.hear.scan =
    (portNames t.hear taker port).foldl (fun s name => S.serveFailed s name now) t.hear.scan
  told : ∀ i, holdsPort t.hear taker port i = true → ∀ name ∈ (t.hear.listeners i).cfg.source,
    ∃ sn, r.1.sniff name = some sn ∧ sn.budgetYielded = true
  count : r.2 = (List.finRange n).countP (holdsPort t.hear taker port)

/-- Some holder of the port carries something. -/
def PortCarries (h : Hearing σ n) (taker port : String) (w : Fin n → SinkTruth) : Prop :=
  ∃ i, holdsPort h taker port i = true ∧ carries (h.listeners i) (w i) = true

instance (h : Hearing σ n) (taker port : String) (w : Fin n → SinkTruth) :
    Decidable (PortCarries h taker port w) := by
  unfold PortCarries
  infer_instance

/-- **A yield evicts only what carries nothing.** -/
def YieldsRight (S : IfScan σ) (t : HuntTable σ n η) (taker txIf : String)
    (w : Fin n → SinkTruth) (now : Nat) : Prop :=
  let r := budgetYield S t taker txIf (fun i => sinkFacts (t.hear.listeners i) (w i)) now
  if PortCarries t.hear taker (linkPortOf txIf) w then r = (t, 0)
  else AllYield S t taker (linkPortOf txIf) now r

/-! ### What the walk reads -/

/-- A holder that keeps the port from yielding. -/
def keepsBudget (L : Listener) (w : SinkTruth) : Bool :=
  L.cfg.rolePinned || !listenerBudgetEmpty L (sinkFacts L w)

def PortKeeps (h : Hearing σ n) (taker port : String) (w : Fin n → SinkTruth) : Prop :=
  ∃ i, holdsPort h taker port i = true ∧ keepsBudget (h.listeners i) (w i) = true

instance (h : Hearing σ n) (taker port : String) (w : Fin n → SinkTruth) :
    Decidable (PortKeeps h taker port w) := by
  unfold PortKeeps
  infer_instance

/-- Every holder's sniffer is open. -/
def HoldersHeard (t : HuntTable σ n η) (taker port : String) : Prop :=
  ∀ i, holdsPort t.hear taker port i = true → ∀ name ∈ (t.hear.listeners i).cfg.source,
    (t.sniff name).isSome = true

instance (t : HuntTable σ n η) (taker port : String) : Decidable (HoldersHeard t taker port) := by
  unfold HoldersHeard
  infer_instance

/-- A holder the walk overlooks.  Frames arrive, or it is an end of a pairing with a box; but
its latch is down, and its pacer, where it has one, is PROBING and knows no box.  A slave just
joined to a box is one, and a master in PROBING with frames on its wire. -/
def overlooked (L : Listener) (w : SinkTruth) : Bool :=
  (w.framesArriving || pairsWithBox L) && !w.heardLatch &&
    !(L.cfg.rolePinned || L.cfg.tap || (sinkFacts L w).pastProbing ||
      (sinkFacts L w).recognizedBox)

/-- A holder that carries nothing, but is tapped, or the latch of frames that stopped is still
up. -/
def stillKept (L : Listener) (w : SinkTruth) : Bool :=
  (w.heardLatch || L.cfg.tap) && !carries L w

/-- The walk reads the port right: a holder it overlooks shares the port with one it keeps, one
it keeps for nothing shares it with one that carries something; and where it keeps none there
is a sniffer to tell of each. -/
structure YieldRead (t : HuntTable σ n η) (taker txIf : String) (w : Fin n → SinkTruth) :
    Prop where
  overlooked : ∀ i, holdsPort t.hear taker (linkPortOf txIf) i = true →
    overlooked (t.hear.listeners i) (w i) = true → PortKeeps t.hear taker (linkPortOf txIf) w
  stillKept : ∀ i, holdsPort t.hear taker (linkPortOf txIf) i = true →
    stillKept (t.hear.listeners i) (w i) = true → PortCarries t.hear taker (linkPortOf txIf) w
  told : PortKeeps t.hear taker (linkPortOf txIf) w ∨ HoldersHeard t taker (linkPortOf txIf)

instance (t : HuntTable σ n η) (taker txIf : String) (w : Fin n → SinkTruth) :
    Decidable (YieldRead t taker txIf w) :=
  decidable_of_iff (_ ∧ _ ∧ _) ⟨fun h => ⟨h.1, h.2.1, h.2.2⟩, fun h => ⟨h.1, h.2, h.3⟩⟩

/-- A holder is open, and its sink is up. -/
theorem holdsPort_sends {h : Hearing σ n} {taker port : String} {i : Fin n}
    (hholds : holdsPort h taker port i = true) :
    (h.listeners i).opened = true ∧ (h.listeners i).sink.isSome = true := by
  simp only [holdsPort, sendsOn, Bool.and_eq_true] at hholds
  exact hholds.1.1

/-- A holder yields unless it was pinned, is tapped, or its latch or its pacer answers. -/
theorem keepsBudget_iff {L : Listener} (hup : L.opened = true ∧ L.sink.isSome = true)
    {w : SinkTruth} :
    keepsBudget L w = true ↔ L.cfg.rolePinned = true ∨ L.cfg.tap = true ∨
      w.heardLatch = true ∨ (sinkFacts L w).pastProbing = true ∨
      (sinkFacts L w).recognizedBox = true := by
  have hlatch : (sinkFacts L w).heard = w.heardLatch := rfl
  simp only [keepsBudget, listenerBudgetEmpty, hup.1, hup.2, hlatch]
  grind

/-- A holder that carries something is kept or overlooked. -/
theorem carries_kept {L : Listener} (hup : L.opened = true ∧ L.sink.isSome = true)
    {w : SinkTruth} (hcarries : carries L w = true) :
    keepsBudget L w = true ∨ overlooked L w = true := by
  rw [keepsBudget_iff hup]
  simp only [carries, Bool.or_eq_true] at hcarries
  simp only [overlooked, Bool.and_eq_true, Bool.or_eq_true, Bool.not_eq_true',
    Bool.or_eq_false_iff]
  grind

/-- An overlooked holder carries something. -/
theorem overlooked_carries {L : Listener} {w : SinkTruth} (h : overlooked L w = true) :
    carries L w = true := by
  simp only [overlooked, Bool.and_eq_true, Bool.or_eq_true] at h
  simp only [carries, Bool.or_eq_true]
  tauto

/-- A holder that is kept carries something, or is kept for nothing. -/
theorem kept_carries {L : Listener} (hup : L.opened = true ∧ L.sink.isSome = true)
    {w : SinkTruth} (hkeeps : keepsBudget L w = true) :
    carries L w = true ∨ stillKept L w = true := by
  rw [keepsBudget_iff hup] at hkeeps
  cases hcarries : carries L w with
  | true => exact Or.inl rfl
  | false =>
      simp only [carries, Bool.or_eq_false_iff] at hcarries
      simp only [stillKept, carries, Bool.and_eq_true, Bool.or_eq_true, Bool.not_eq_true',
        Bool.or_eq_false_iff]
      grind

theorem stillKept_kept {L : Listener} (hup : L.opened = true ∧ L.sink.isSome = true)
    {w : SinkTruth} (h : stillKept L w = true) : keepsBudget L w = true := by
  rw [keepsBudget_iff hup]
  simp only [stillKept, Bool.and_eq_true, Bool.or_eq_true] at h
  tauto

/-- **Read right, the walk keeps a holder exactly where one carries something.** -/
theorem yieldRead_iff (t : HuntTable σ n η) (taker txIf : String) (w : Fin n → SinkTruth) :
    YieldRead t taker txIf w ↔
      (PortCarries t.hear taker (linkPortOf txIf) w ↔
        PortKeeps t.hear taker (linkPortOf txIf) w) ∧
      (PortKeeps t.hear taker (linkPortOf txIf) w ∨ HoldersHeard t taker (linkPortOf txIf)) := by
  constructor
  · rintro ⟨hover, hstill, htold⟩
    refine ⟨⟨?_, ?_⟩, htold⟩
    · rintro ⟨i, hholds, hcarries⟩
      rcases carries_kept (holdsPort_sends hholds) hcarries with hkept | hlost
      · exact ⟨i, hholds, hkept⟩
      · exact hover i hholds hlost
    · rintro ⟨i, hholds, hkept⟩
      rcases kept_carries (holdsPort_sends hholds) hkept with hcarries | hnothing
      · exact ⟨i, hholds, hcarries⟩
      · exact hstill i hholds hnothing
  · rintro ⟨hboth, htold⟩
    exact ⟨fun i hholds hlost => hboth.mp ⟨i, hholds, overlooked_carries hlost⟩,
      fun i hholds hnothing =>
        hboth.mpr ⟨i, hholds, stillKept_kept (holdsPort_sends hholds) hnothing⟩, htold⟩

/-! ### The walk -/

/-- On a table that is placed every holder has an interface. -/
theorem holder_source {h : Hearing σ n} (hp : Placed h) {taker port : String} {i : Fin n}
    (hholds : holdsPort h taker port i = true) :
    ∃ name, (h.listeners i).cfg.source = some name ∧ serves (h.listeners i) name = true := by
  simp only [holdsPort, sendsOn, Bool.and_eq_true] at hholds
  obtain ⟨name, hserves⟩ := hp.sourced i hholds.1.1.1
  exact ⟨name, (serves_iff.mp hserves).2, hserves⟩

theorem budgetHolders_eq {h : Hearing σ n} (hp : Placed h) (taker port : String) :
    budgetHolders h taker port = (List.finRange n).filter (holdsPort h taker port) := by
  rw [budgetHolders, if_pos hp.enabled]
  refine List.filter_congr fun i _ => ?_
  unfold holdsPort
  cases hsends : sendsOn (h.listeners i) port with
  | false => rfl
  | true =>
      have hopened : (h.listeners i).opened = true := by
        simp only [sendsOn, Bool.and_eq_true] at hsends
        exact hsends.1.1
      obtain ⟨name, hserves⟩ := hp.sourced i hopened
      rw [(serves_iff.mp hserves).2]
      rfl

theorem budgetYielders_keeps {h : Hearing σ n} (hp : Placed h) {taker port : String}
    {w : Fin n → SinkTruth} (hkeeps : PortKeeps h taker port w) :
    budgetYielders h taker port (fun i => sinkFacts (h.listeners i) (w i)) = [] := by
  obtain ⟨i, hholds, hkeep⟩ := hkeeps
  rw [budgetYielders, budgetHolders_eq hp, if_neg]
  intro hall
  have hmem : i ∈ (List.finRange n).filter (holdsPort h taker port) :=
    List.mem_filter.mpr ⟨List.mem_finRange i, hholds⟩
  have hempty := List.all_eq_true.mp hall i hmem
  rw [keepsBudget, Bool.or_eq_true] at hkeep
  rw [Bool.and_eq_true] at hempty
  rcases hkeep with hpinned | hkeep
  · rw [hpinned] at hempty
    exact absurd hempty.2 (by decide)
  · rw [hempty.1] at hkeep
    exact absurd hkeep (by decide)

theorem budgetYielders_empty {h : Hearing σ n} (hp : Placed h) {taker port : String}
    {w : Fin n → SinkTruth} (hempty : ¬ PortKeeps h taker port w) :
    budgetYielders h taker port (fun i => sinkFacts (h.listeners i) (w i)) =
      portNames h taker port := by
  rw [budgetYielders, budgetHolders_eq hp, if_pos]
  · rfl
  · refine List.all_eq_true.mpr fun i hmem => ?_
    have hholds := (List.mem_filter.mp hmem).2
    cases hkeep : keepsBudget (h.listeners i) (w i) with
    | true => exact absurd ⟨i, hholds, hkeep⟩ hempty
    | false =>
        rw [keepsBudget, Bool.or_eq_false_iff, Bool.not_eq_false'] at hkeep
        simp [hkeep.1, hkeep.2]

/-- Every holder has one name in the list. -/
theorem portNames_length {h : Hearing σ n} (hp : Placed h) (taker port : String) :
    (portNames h taker port).length = (List.finRange n).countP (holdsPort h taker port) := by
  have hall : ∀ l : List (Fin n), (∀ i ∈ l, holdsPort h taker port i = true) →
      (l.filterMap fun i => (h.listeners i).cfg.source).length = l.length := by
    intro l
    induction l with
    | nil => intro _; rfl
    | cons i rest ih =>
        intro hl
        obtain ⟨name, hname, -⟩ := holder_source hp (hl i List.mem_cons_self)
        rw [List.filterMap_cons, hname]
        simp [ih fun j hj => hl j (List.mem_cons_of_mem _ hj)]
  rw [List.countP_eq_length_filter]
  exact hall _ fun i hi => (List.mem_filter.mp hi).2

/-- A name in the list is a holder's, and whoever serves it is that holder. -/
theorem serves_portNames {h : Hearing σ n} (hp : Placed h) (taker port : String) (i : Fin n) :
    (∃ name ∈ portNames h taker port, serves (h.listeners i) name = true) ↔
      holdsPort h taker port i = true := by
  constructor
  · rintro ⟨name, hmem, hserves⟩
    obtain ⟨j, hj, hname⟩ := List.mem_filterMap.mp hmem
    have hholds := (List.mem_filter.mp hj).2
    obtain ⟨name', hname', hserves'⟩ := holder_source hp hholds
    have hsame : name' = name := Option.some.inj (hname'.symm.trans hname)
    rw [hp.distinct i j name hserves (hsame ▸ hserves')]
    exact hholds
  · intro hholds
    obtain ⟨name, hname, hserves⟩ := holder_source hp hholds
    refine ⟨name, List.mem_filterMap.mpr ⟨i, ?_, hname⟩, hserves⟩
    exact List.mem_filter.mpr ⟨List.mem_finRange i, hholds⟩

/-- **Every slot on a yielding interface is dropped, and no other.** -/
theorem linkBudgetYield_slots (S : IfScan σ) (now : Nat) :
    ∀ (names : List String) (h : Hearing σ n), Placed h → ∀ j,
      (linkBudgetYield S h names now).listeners j =
        if ∃ name ∈ names, serves (h.listeners j) name = true then
          listenerDropped (h.listeners j)
        else h.listeners j := by
  intro names
  induction names with
  | nil => intro h _ j; simp [linkBudgetYield]
  | cons name rest ih =>
      intro h hp j
      have hfirst : (hearingRehear S h name now).listeners j =
          if serves (h.listeners j) name then listenerDropped (h.listeners j)
          else h.listeners j := hearingDrop_exact hp name j
      have hrest := ih (hearingRehear S h name now) (hp.rehear S name now) j
      show (linkBudgetYield S (hearingRehear S h name now) rest now).listeners j = _
      rw [hrest, hfirst]
      by_cases hserves : serves (h.listeners j) name = true
      · -- closed by the first, and then on no interface
        have hnone : ¬ ∃ k ∈ rest, serves (listenerDropped (h.listeners j)) k = true := by
          rintro ⟨k, -, hk⟩
          rw [serves_dropped] at hk
          exact absurd hk Bool.false_ne_true
        have hsome : ∃ k ∈ name :: rest, serves (h.listeners j) k = true :=
          ⟨name, List.mem_cons_self, hserves⟩
        rw [if_pos hserves, if_neg hnone, if_pos hsome]
      · rw [if_neg hserves]
        simp [hserves]

/-! ### The yield -/

theorem budgetYield_keeps (S : IfScan σ) {t : HuntTable σ n η} (hp : Placed t.hear)
    {taker txIf : String} {w : Fin n → SinkTruth} (now : Nat)
    (hkeeps : PortKeeps t.hear taker (linkPortOf txIf) w) :
    budgetYield S t taker txIf (fun i => sinkFacts (t.hear.listeners i) (w i)) now = (t, 0) := by
  unfold budgetYield
  rw [budgetYielders_keeps hp hkeeps]
  rfl

theorem countP_holders {h : Hearing σ n} {taker port : String} {i : Fin n}
    (hholds : holdsPort h taker port i = true) :
    (List.finRange n).countP (holdsPort h taker port) ≠ 0 := by
  have hpos := List.countP_pos_iff.mpr ⟨i, List.mem_finRange i, hholds⟩
  omega

/-- Where nobody keeps the port, all yield, as far as there are sniffers to tell. -/
theorem budgetYield_empty (S : IfScan σ) {t : HuntTable σ n η} (hp : Placed t.hear)
    {taker txIf : String} {w : Fin n → SinkTruth} (now : Nat)
    (hempty : ¬ PortKeeps t.hear taker (linkPortOf txIf) w) :
    (budgetYield S t taker txIf (fun i => sinkFacts (t.hear.listeners i) (w i)) now).2 =
        (List.finRange n).countP (holdsPort t.hear taker (linkPortOf txIf)) ∧
      (AllYield S t taker (linkPortOf txIf) now
          (budgetYield S t taker txIf (fun i => sinkFacts (t.hear.listeners i) (w i)) now) ↔
        HoldersHeard t taker (linkPortOf txIf)) := by
  have hcount : (budgetYield S t taker txIf
      (fun i => sinkFacts (t.hear.listeners i) (w i)) now).2 =
      (List.finRange n).countP (holdsPort t.hear taker (linkPortOf txIf)) := by
    unfold budgetYield
    rw [budgetYielders_empty hp hempty]
    exact portNames_length hp taker (linkPortOf txIf)
  have hsniff : ∀ i, holdsPort t.hear taker (linkPortOf txIf) i = true →
      ∀ name ∈ (t.hear.listeners i).cfg.source,
      (budgetYield S t taker txIf (fun i => sinkFacts (t.hear.listeners i) (w i)) now).1.sniff
        name = (t.sniff name).map .yielded := by
    intro i hholds name hname
    have hmem : name ∈ portNames t.hear taker (linkPortOf txIf) :=
      List.mem_filterMap.mpr ⟨i, List.mem_filter.mpr ⟨List.mem_finRange i, hholds⟩, hname⟩
    rw [budgetYield_parts, budgetYielders_empty hp hempty]
    exact if_pos hmem
  refine ⟨hcount, fun hall i hholds name hname => ?_, fun hheard => ⟨?_, ?_, ?_, hcount⟩⟩
  · obtain ⟨sn, hsn, -⟩ := hall.told i hholds name hname
    rw [hsniff i hholds name hname] at hsn
    obtain ⟨old, hold, -⟩ := Option.map_eq_some_iff.mp hsn
    rw [hold]
    rfl
  · intro i
    rw [budgetYield_parts, budgetYielders_empty hp hempty]
    dsimp only
    rw [linkBudgetYield_slots S now _ _ hp]
    simp only [serves_portNames hp]
  · rw [budgetYield_parts, budgetYielders_empty hp hempty]
    exact linkBudgetYield_scan S now _ _
  · intro i hholds name hname
    obtain ⟨sn, hsn⟩ := Option.isSome_iff_exists.mp (hheard i hholds name hname)
    exact ⟨sn.yielded, by rw [hsniff i hholds name hname, hsn]; rfl, rfl⟩

/-- A yield on a placed table is right exactly where the walk reads it right. -/
theorem yieldsRight_iff (S : IfScan σ) {t : HuntTable σ n η} (hp : Placed t.hear)
    (taker txIf : String) (w : Fin n → SinkTruth) (now : Nat) :
    YieldsRight S t taker txIf w now ↔ YieldRead t taker txIf w := by
  rw [yieldRead_iff]
  unfold YieldsRight
  dsimp only
  by_cases hkeeps : PortKeeps t.hear taker (linkPortOf txIf) w
  · -- nobody yields
    rw [budgetYield_keeps S hp now hkeeps]
    by_cases hcarries : PortCarries t.hear taker (linkPortOf txIf) w
    · rw [if_pos hcarries]
      exact iff_of_true rfl ⟨iff_of_true hcarries hkeeps, Or.inl hkeeps⟩
    · rw [if_neg hcarries]
      refine iff_of_false (fun hall => ?_) (fun hread => hcarries (hread.1.mpr hkeeps))
      obtain ⟨i, hholds, -⟩ := hkeeps
      exact countP_holders hholds hall.count.symm
  · -- everybody does
    obtain ⟨hcount, hall⟩ := budgetYield_empty S hp now hkeeps
    by_cases hcarries : PortCarries t.hear taker (linkPortOf txIf) w
    · rw [if_pos hcarries]
      refine iff_of_false (fun hnobody => ?_) (fun hread => hkeeps (hread.1.mp hcarries))
      obtain ⟨i, hholds, -⟩ := hcarries
      rw [hnobody] at hcount
      exact countP_holders hholds hcount.symm
    · rw [if_neg hcarries, hall]
      constructor
      · intro hheard
        exact ⟨iff_of_false hcarries hkeeps, Or.inr hheard⟩
      · rintro ⟨-, hkept | hheard⟩
        · exact absurd hkept hkeeps
        · exact hheard

/-- **A yield evicts only what carries nothing, exactly where it is read right**: in every
run of the hearing, whatever slot is being opened, and whatever its world is doing. -/
theorem budget_yield_right (S : IfScan σ) (speed : String → Nat) (h : Hearing σ n)
    (hen : h.enabled = true) (hclosed : ∀ i, (h.listeners i).opened = false)
    (run : List (HearAct n)) (i : Fin n) (L : Listener) (hopening : L.opened = false)
    (sniff : String → Option (SniffSlot η)) (taker txIf : String) (w : Fin n → SinkTruth)
    (now : Nat) :
    YieldsRight S ⟨((hearMachine S speed).after h run).setSlot i L, sniff⟩ taker txIf w now ↔
      YieldRead ⟨((hearMachine S speed).after h run).setSlot i L, sniff⟩ taker txIf w :=
  yieldsRight_iff S ((hearing_placed S speed hen hclosed run).setSlot (staysPut_closed hopening))
    taker txIf w now

/-! ### Two VLANs of one port -/

/-- A hearing with two slots, and a VLAN of a 100 Mbit/s port whose serve is queued. -/
def oneVlanQueued : Hearing ScanTable 2 :=
  { enabled := true, listeners := fun _ => .zeroed
    scan := { ifs := [("enp1s0.12", .segment)], queue := [⟨.serve, "enp1s0.12"⟩] }
    ignored := fun _ => false }

/-- The VLAN is served, as its hunt has it. -/
def vlanServed (hunt : Hunt) : HearAct 2 :=
  .apply (some hunt)
    { conf := segmentCfg "enp1s0.12" .master, forcedRate := 0
      answers :=
        { facts := fun _ => { heard := false, pastProbing := false, recognizedBox := false }
          open_ := opensAt 96000, now := 1000000000 } }

/-- The other VLAN's listener as it is being opened. -/
def otherVlanOpening : Listener :=
  { Listener.zeroed with cfg := segmentCfg "enp1s0.11" .master }

/-- Nothing arrives, nothing answers. -/
def idleSink : SinkTruth :=
  { heardLatch := false, framesArriving := false, pastProbing := false, recognizedBox := false }

def vlanMasterHunt : Hunt :=
  { verdict := .master, role := .master, boxRival := false, defersAsTap := false,
    heardAnything := true }

/-- A box masters the wire, and is joined. -/
def vlanJoinHunt : Hunt :=
  { verdict := .slave, role := .slave, boxRival := true, defersAsTap := false,
    heardAnything := true }

/-- A sniffer that is open on the VLAN and no other. -/
def vlanSniffer (name : String) : Option (SniffSlot Unit) :=
  if name = "enp1s0.12" then
    some { hunt := (), tapPinned := false, watched := true, budgetYielded := false,
           budgetYieldSaid := false, undecidedSaid := false }
  else none

/-- A master that courts nobody gives its port up. -/
theorem budget_yield_right_master :
    YieldsRight scanTable
      ⟨((hearMachine scanTable hundredMbit).after oneVlanQueued [vlanServed vlanMasterHunt]).setSlot 1
        otherVlanOpening, vlanSniffer⟩ "enp1s0.11" "enp1s0.11" (fun _ => idleSink) 2000000000 :=
  (budget_yield_right scanTable hundredMbit oneVlanQueued rfl (fun _ => rfl) _ 1 otherVlanOpening
    rfl vlanSniffer "enp1s0.11" "enp1s0.11" (fun _ => idleSink) 2000000000).mpr (by decide)

/-- And so does a slave that has just joined a box, before the first publishing steps its
latch. -/
theorem budget_yield_evicts_join :
    ¬ YieldsRight scanTable
      ⟨((hearMachine scanTable hundredMbit).after oneVlanQueued [vlanServed vlanJoinHunt]).setSlot 1
        otherVlanOpening, fun _ => (none : Option (SniffSlot Unit))⟩ "enp1s0.11" "enp1s0.11"
      (fun _ => idleSink) 2000000000 := by
  intro hright
  have hplaced := (hearing_placed scanTable hundredMbit (h := oneVlanQueued) rfl (fun _ => rfl)
    [vlanServed vlanJoinHunt]).setSlot (i := 1) (L := otherVlanOpening) (staysPut_closed rfl)
  exact absurd ((yieldsRight_iff scanTable hplaced _ _ _ _).mp hright) (by decide)

end ReacPw
