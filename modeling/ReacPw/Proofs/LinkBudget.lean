/-
What the listeners of one port may cost it together.

A port of known speed that carries two streams or more must carry what they cost.
The master's branch of an open asks before it sends, of the hearing's own table;
the slave's branch, and the opens of a daemon given its segments on the command
line, ask nobody.

Closing a slot takes a stream away and an open adds one, so the induction is on
what happens to the table.  Its one real case is a slot that comes up sending:
there the port's other streams and the new one are what the admission added up,
or what the unasked open had to fit beside (`FitsUnasked`).
-/
import ReacPw.Hearing
import Mathlib.Algebra.Order.BigOperators.Group.Finset

namespace ReacPw

variable {σ : Type*} {n : Nat}

/-! ### The streams of a port -/

/-- The slots that transmit on a port, whatever table or role they are of. -/
def portSenders (h : Hearing σ n) (port : String) : Finset (Fin n) :=
  Finset.univ.filter fun i => sendsOn (h.listeners i) port = true

def portCostKbit (h : Hearing σ n) (port : String) : Nat :=
  ∑ i ∈ portSenders h port, masterCostKbit (h.listeners i).sampleRate

/-- **The budget of one port**: two streams or more fit on what it is known to carry. -/
def PortKept (speed : String → Nat) (h : Hearing σ n) (port : String) : Prop :=
  speed port ≠ 0 → 2 ≤ (portSenders h port).card →
    portCostKbit h port ≤ linkCapKbit (speed port)

/-- The budget of every port. -/
def BudgetKept (speed : String → Nat) (h : Hearing σ n) : Prop := ∀ port, PortKept speed h port

/-- Slot by slot, nothing sends that did not, nor at another rate. -/
def SendsNoMore (h h' : Hearing σ n) (port : String) (j : Fin n) : Prop :=
  sendsOn (h'.listeners j) port = true → sendsOn (h.listeners j) port = true ∧
    (h'.listeners j).sampleRate = (h.listeners j).sampleRate

theorem sendsNoMore_of_eq {h h' : Hearing σ n} {port : String} {j : Fin n}
    (heq : h'.listeners j = h.listeners j) : SendsNoMore h h' port j := by
  intro hsends
  rw [heq] at hsends ⊢
  exact ⟨hsends, rfl⟩

theorem sendsOn_opened {L : Listener} {port : String} (hsends : sendsOn L port = true) :
    L.opened = true := by
  rw [sendsOn, Bool.and_eq_true, Bool.and_eq_true] at hsends
  exact hsends.1.1

theorem sendsOn_sink {L : Listener} {port : String} (hsends : sendsOn L port = true) :
    L.sink.isSome = true := by
  rw [sendsOn, Bool.and_eq_true, Bool.and_eq_true] at hsends
  exact hsends.1.2

theorem sendsNoMore_of_closed {h h' : Hearing σ n} {port : String} {j : Fin n}
    (hclosed : (h'.listeners j).opened = false) : SendsNoMore h h' port j := by
  intro hsends
  rw [sendsOn_opened hsends] at hclosed
  exact absurd hclosed.symm Bool.false_ne_true

theorem sendsNoMore_of_kept {h h' : Hearing σ n} {port : String} {names : List String}
    {j : Fin n} (hkept : KeptOrDropped h h' names j) : SendsNoMore h h' port j := by
  rcases hkept with heq | ⟨-, hdropped⟩
  · exact sendsNoMore_of_eq heq
  · exact sendsNoMore_of_closed (by rw [hdropped]; rfl)

/-- A sum over fewer slots, each at the rate it had. -/
theorem senders_cost_le {h h' : Hearing σ n} {s s' : Finset (Fin n)} (hsub : s' ⊆ s)
    (hrate : ∀ j ∈ s', (h'.listeners j).sampleRate = (h.listeners j).sampleRate) :
    ∑ i ∈ s', masterCostKbit (h'.listeners i).sampleRate ≤
      ∑ i ∈ s, masterCostKbit (h.listeners i).sampleRate :=
  calc ∑ i ∈ s', masterCostKbit (h'.listeners i).sampleRate
      = ∑ i ∈ s', masterCostKbit (h.listeners i).sampleRate :=
        Finset.sum_congr rfl fun j hj => by rw [hrate j hj]
    _ ≤ ∑ i ∈ s, masterCostKbit (h.listeners i).sampleRate :=
        Finset.sum_le_sum_of_subset hsub

/-- A port on which nothing sends more keeps its budget. -/
theorem portKept_of_less {speed : String → Nat} {h h' : Hearing σ n} {port : String}
    (hkept : PortKept speed h port) (hless : ∀ j, SendsNoMore h h' port j) :
    PortKept speed h' port := by
  intro hknown htwo
  have hsub : portSenders h' port ⊆ portSenders h port := by
    intro j hj
    have hsends : sendsOn (h'.listeners j) port = true := by simpa [portSenders] using hj
    simpa [portSenders] using (hless j hsends).1
  have hrate : ∀ j ∈ portSenders h' port,
      (h'.listeners j).sampleRate = (h.listeners j).sampleRate := by
    intro j hj
    exact (hless j (by simpa [portSenders] using hj)).2
  exact (senders_cost_le hsub hrate).trans
    (hkept hknown (htwo.trans (Finset.card_le_card hsub)))

/-- The other streams of a port do not grow either. -/
theorem portUsed_le {h h' : Hearing σ n} {port : String} (self : Fin n)
    (hless : ∀ j, j ≠ self → SendsNoMore h h' port j) :
    portHolders h' self port ⊆ portHolders h self port ∧
      portUsedKbit h' self port ≤ portUsedKbit h self port := by
  have hmem : ∀ j ∈ portHolders h' self port,
      j ≠ self ∧ sendsOn (h'.listeners j) port = true := by
    intro j hj
    simpa [portHolders] using hj
  have hsub : portHolders h' self port ⊆ portHolders h self port := by
    intro j hj
    obtain ⟨hne, hsends⟩ := hmem j hj
    simpa [portHolders] using ⟨hne, (hless j hne hsends).1⟩
  exact ⟨hsub, senders_cost_le hsub fun j hj => (hless j (hmem j hj).1 (hmem j hj).2).2⟩

/-- A slot that sends beside others it fits with keeps the port's budget. -/
theorem portKept_of_fits {speed : String → Nat} {h : Hearing σ n} {i : Fin n} {port : String}
    (hsends : sendsOn (h.listeners i) port = true)
    (hfits : portHolders h i port = ∅ ∨
      (speed port ≠ 0 → portUsedKbit h i port + masterCostKbit (h.listeners i).sampleRate ≤
        linkCapKbit (speed port))) : PortKept speed h port := by
  have hself : i ∉ portHolders h i port := by simp [portHolders]
  have hsenders : portSenders h port = insert i (portHolders h i port) := by
    ext j
    by_cases hj : j = i
    · simp [portSenders, hj, hsends]
    · simp [portSenders, portHolders, hj]
  intro hknown htwo
  rcases hfits with halone | hfits
  · rw [hsenders, halone] at htwo
    exact absurd htwo (by simp)
  · have hsum : portCostKbit h port =
        masterCostKbit (h.listeners i).sampleRate + portUsedKbit h i port := by
      unfold portCostKbit portUsedKbit
      rw [hsenders, Finset.sum_insert hself]
    have hle := hfits hknown
    omega

/-! ### One open -/

/-- What the world has to grant before an open leaves its listener with a sink: to a
master the segment lock, and the nodes when it brings them up itself; to a slave its
engine and the nodes. -/
def sinkGranted (L : Listener) (a : OpenAnswers) : Bool :=
  a.rxOpens && a.sinkMade &&
    match L.cfg.role with
    | .master => a.claim != .held && (!L.cfg.pinModel || a.nodesEnsured)
    | .slave => a.slaveOpens && a.slaveStarts && a.nodesEnsured

/-- An open that puts a sink up and is not asked of the table it lives in: a master's that
is not the hearing's, asked only whether it fits alone, or a slave's that sends. -/
def sendsUnasked (speed : String → Nat) (h : Hearing σ n) (i : Fin n) (dev : String)
    (a : OpenAnswers) : Bool :=
  let L := h.listeners i
  !L.cfg.tap && !L.cfg.doorOnly && sinkGranted L a &&
    match L.cfg.role with
    | .master => !h.enabled &&
        reacLinkBudgetFits (speed (linkPortOf dev)) 0 (masterCostKbit a.sampleRate)
    | .slave => L.cfg.joinBoxMaster || L.cfg.boxModel

/-- An open that puts a sink up unasked is alone on its port, or fits beside what already
sends there. -/
def FitsUnasked (speed : String → Nat) (h : Hearing σ n) (i : Fin n) (a : SlotAnswers n) : Prop :=
  ∀ dev ∈ (h.listeners i).cfg.txIf, sendsUnasked speed h i dev a.open_ = true →
    portHolders h i (linkPortOf dev) = ∅ ∨
      reacLinkBudgetFits (speed (linkPortOf dev)) (portUsedKbit h i (linkPortOf dev))
        (masterCostKbit a.open_.sampleRate) = true

instance (speed : String → Nat) (h : Hearing σ n) (i : Fin n) (a : SlotAnswers n) :
    Decidable (FitsUnasked speed h i a) := by
  unfold FitsUnasked
  infer_instance

theorem listenerPrepared_pinModel (L : Listener) (a : OpenAnswers) :
    (listenerPrepared L a).cfg.pinModel = L.cfg.pinModel := by
  obtain ⟨hz, hrated⟩ := cfgRated_eq (cfgVacated L.cfg) a.resolvedRate
  have hcfg : (listenerPrepared L a).cfg = { cfgVacated L.cfg with forcedRate := hz } := hrated
  rw [hcfg]
  unfold cfgVacated
  split <;> rfl

theorem listenerFinish_nodes {L : Listener} {a : OpenAnswers}
    (hup : (listenerFinish L a).2 = true) :
    a.nodesEnsured = true ∨ L.cfg.role = .master ∧ L.cfg.pinModel = false := by
  unfold listenerFinish at hup
  dsimp only at hup
  cases hnodes : a.nodesEnsured with
  | true => exact Or.inl rfl
  | false =>
      rw [hnodes] at hup
      by_cases hmaster : L.cfg.role = .master ∧ L.sink.isSome = true
      · rw [if_pos hmaster] at hup
        cases hpin : L.cfg.pinModel with
        | false => exact Or.inr ⟨hmaster.1, rfl⟩
        | true => simp [hpin] at hup
      · simp [if_neg hmaster] at hup

theorem listenerMasterEngine_granted {fits : Bool} {a : OpenAnswers} {sink : SinkNode}
    (h : listenerMasterEngine fits a = some sink) : a.claim ≠ .held ∧ a.sinkMade = true := by
  unfold listenerMasterEngine at h
  split at h
  · exact absurd h (by simp)
  split at h
  · exact absurd h (by simp)
  rename_i hclaim
  split at h
  · exact absurd h (by simp)
  rename_i hmade
  exact ⟨hclaim, by simpa using hmade⟩

theorem listenerSlaveEngine_granted {L : Listener} {a : OpenAnswers}
    (h : (listenerSlaveEngine L a).1.isSome = true) :
    a.slaveOpens = true ∧ a.slaveStarts = true ∧ a.sinkMade = true := by
  unfold listenerSlaveEngine at h
  split at h
  · rename_i hslave
    dsimp only at h
    split at h
    · rename_i hsend
      exact ⟨hslave.1, hslave.2, hsend.2⟩
    · exact absurd h Bool.false_ne_true
  · exact absurd h Bool.false_ne_true

/-- **A listener that came up with a sink was granted one.** -/
theorem listenerOpen_granted {L : Listener} {fits : Bool} {a : OpenAnswers}
    (hup : (listenerOpen L fits a).2 = true)
    (hsink : (listenerOpen L fits a).1.sink.isSome = true) : sinkGranted L a = true := by
  obtain ⟨-, -, hroleP, -, -, -, -⟩ := listenerPrepared_cfg L a
  have hpinP := listenerPrepared_pinModel L a
  unfold listenerOpen at hup hsink
  dsimp only at hup hsink
  split at hup
  · exact absurd hup Bool.false_ne_true
  rename_i hfailed
  rw [if_neg hfailed] at hsink
  split at hup
  · rename_i htap
    rw [if_pos htap] at hsink
    exact absurd hsink Bool.false_ne_true
  rename_i htap
  rw [if_neg htap] at hsink
  split at hup
  · exact absurd hup Bool.false_ne_true
  rename_i hrx
  rw [if_neg hrx] at hsink
  have hrx : a.rxOpens = true := by simpa using hrx
  split at hup
  · -- a door has no sink
    rename_i hdoor
    rw [if_pos hdoor] at hsink
    revert hsink
    unfold listenerDoor
    split
    · exact fun hsink => absurd hsink Bool.false_ne_true
    · split <;> exact fun hsink => absurd hsink Bool.false_ne_true
  rename_i hdoor
  rw [if_neg hdoor] at hsink
  unfold listenerEngine at hup hsink
  dsimp only at hup hsink
  split at hup
  · rename_i htx
    rw [if_pos htx, listenerFinish_other (by simp [listenerPrepared]) hup] at hsink
    exact absurd hsink Bool.false_ne_true
  rename_i htx
  rw [if_neg htx] at hsink
  cases hrole : L.cfg.role with
  | master =>
      rw [hroleP, hrole] at hup
      dsimp only at hup
      cases hengine : listenerMasterEngine fits a with
      | none =>
          rw [hengine] at hup
          exact absurd hup Bool.false_ne_true
      | some sink =>
          rw [hengine] at hup
          obtain ⟨hclaim, hmade⟩ := listenerMasterEngine_granted hengine
          unfold sinkGranted
          rw [hrole, hrx, hmade]
          rcases listenerFinish_nodes hup with hnodes | ⟨-, hpin⟩
          · simp [hclaim, hnodes]
          · simp [hclaim, show L.cfg.pinModel = false from hpinP.symm.trans hpin]
  | slave =>
      rw [hroleP, hrole] at hup hsink
      dsimp only at hup hsink
      rw [listenerFinish_other (by simp [hroleP, hrole]) hup] at hsink
      obtain ⟨hopens, hstarts, hmade⟩ := listenerSlaveEngine_granted hsink
      have hnodes := listenerFinish_nodes hup
      unfold sinkGranted
      rw [hrole, hrx, hmade, hopens, hstarts]
      rcases hnodes with hnodes | ⟨hmaster, -⟩
      · simp [hnodes]
      · exact absurd (hmaster.symm.trans (hroleP.trans hrole)) (by decide)

/-- A listener that came up sending is a master the budget admitted, or a slave with a
send of its own. -/
theorem listenerUp_sends {L M : Listener} {fits : Bool} {a : OpenAnswers}
    (hup : ListenerUp L fits a M) (hsink : M.sink.isSome = true) :
    ∃ dev, L.cfg.txIf = some dev ∧ M.cfg.txIf = some dev ∧ M.sampleRate = a.sampleRate ∧
      L.cfg.tap = false ∧ L.cfg.doorOnly = false ∧
      (L.cfg.role = .master ∧ fits = true ∨
        L.cfg.role = .slave ∧ (L.cfg.joinBoxMaster = true ∨ L.cfg.boxModel = true)) := by
  obtain ⟨-, htxP, -, -, hdoorP, -, -⟩ := listenerPrepared_cfg L a
  cases hup with
  | tap => exact absurd hsink Bool.false_ne_true
  | vacant => exact absurd hsink Bool.false_ne_true
  | door => exact absurd hsink Bool.false_ne_true
  | master dev src htap hasks hfits htx hrole hsrc =>
      have hdoor : L.cfg.doorOnly = false := by
        simp only [listenerAsksBudget, hdoorP, Bool.and_eq_true, Bool.not_eq_true',
          Bool.or_eq_false_iff] at hasks
        exact hasks.1.1.2.1
      exact ⟨dev, htx, htxP.trans htx, rfl, htap, hdoor, Or.inl ⟨hrole, hfits⟩⟩
  | slave dev sink slaveOpen htap hdoor htx hrole hsends =>
      refine ⟨dev, htx, htxP.trans htx, rfl, htap, hdoor, Or.inr ⟨hrole, ?_⟩⟩
      rcases hsends with rfl | ⟨-, hsends⟩
      · exact absurd hsink Bool.false_ne_true
      · exact hsends
  | silent => exact absurd hsink Bool.false_ne_true

/-- Its configuration is the one it came up on, which feeds the rings. -/
theorem listenerUp_feeds {L M : Listener} {fits : Bool} {a : OpenAnswers}
    (hup : ListenerUp L fits a M) (hsink : M.sink.isSome = true) :
    M.cfg = (listenerReceiving L a).cfg ∧ M.cfg.doorOnly = false ∧ M.cfg.tap = false := by
  obtain ⟨-, -, -, htapP, hdoorP, -, -⟩ := listenerPrepared_cfg L a
  obtain ⟨-, -, -, -, htap, hdoor, -⟩ := listenerUp_sends hup hsink
  have hcfg : M.cfg = (listenerReceiving L a).cfg := by
    cases hup with
    | tap => exact absurd hsink Bool.false_ne_true
    | _ => rfl
  rw [hcfg]
  refine ⟨rfl, hdoorP.trans ?_, htapP.trans htap⟩
  rw [hdoor, htap]
  rfl

variable (S : IfScan σ) (speed : String → Nat)

/-- **An open keeps every port's budget.**  The slot is closed as it is opened, and what
comes up in it is what the open left. -/
theorem budgetKept_open {h : Hearing σ n} {i : Fin n} {a : SlotAnswers n} {L' M : Listener}
    (hkept : BudgetKept speed h) (hclosed : (h.listeners i).opened = false)
    (hfits : sendsOn L' (linkPortOf (L'.cfg.txIf.getD "")) = true → FitsUnasked speed h i a)
    (hM : M = (listenerOpen (h.listeners i) (slotAdmitted S speed h i a).2 a.open_).1)
    (hup : L'.opened = true →
      (listenerOpen (h.listeners i) (slotAdmitted S speed h i a).2 a.open_).2 = true ∧
        L'.cfg = M.cfg ∧ L'.sink = M.sink ∧ L'.sampleRate = M.sampleRate) :
    BudgetKept speed ((slotAdmitted S speed h i a).1.setSlot i L') := by
  intro port
  have hslot := slotAdmitted_slot S speed h i a
  have hothers : ∀ j, j ≠ i →
      SendsNoMore h ((slotAdmitted S speed h i a).1.setSlot i L') port j := by
    intro j hj hsends
    rw [setSlot_ne _ _ hj] at hsends ⊢
    exact sendsNoMore_of_kept (hslot j) hsends
  cases hsends : sendsOn L' port with
  | false =>
      refine portKept_of_less (hkept port) fun j => ?_
      by_cases hj : j = i
      · intro hsends'
        rw [hj, setSlot_same, hsends] at hsends'
        exact absurd hsends' Bool.false_ne_true
      · exact hothers j hj
  | true =>
      have hparts : L'.sink.isSome = true ∧ linkPortOf (L'.cfg.txIf.getD "") = port := by
        rw [sendsOn, Bool.and_eq_true, Bool.and_eq_true, beq_iff_eq] at hsends
        exact ⟨hsends.1.2, hsends.2⟩
      have hguard := hfits (by rw [hparts.2]; exact hsends)
      obtain ⟨hcame, hcfg, hsink, hrate⟩ := hup (sendsOn_opened hsends)
      have hsinkM : M.sink.isSome = true := by
        rw [← hsink]
        exact hparts.1
      have hgranted := listenerOpen_granted hcame (by rw [← hM]; exact hsinkM)
      obtain ⟨dev, htx, htxM, hrateM, htap, hdoor, hwho⟩ :=
        listenerUp_sends (listenerOpen_up hcame) (by rw [← hM]; exact hsinkM)
      rw [← hM] at htxM hrateM
      have hport : linkPortOf dev = port := by
        rw [← hparts.2, hcfg, htxM]
        rfl
      refine portKept_of_fits (by rw [setSlot_same]; exact hsends) ?_
      rw [setSlot_same, hrate, hrateM]
      obtain ⟨hsub, hused⟩ := portUsed_le i hothers
      -- the slot being opened is nobody's to drop
      have hself : (slotAdmitted S speed h i a).1.listeners i = h.listeners i := by
        rcases hslot i with heq | ⟨⟨m, -, hserves⟩, -⟩
        · exact heq
        · rw [serves, hclosed] at hserves
          exact absurd hserves Bool.false_ne_true
      have hfit : (h.listeners i).cfg.role = .master →
          reacLinkBudgetFits (speed port)
            (if h.enabled = true then portUsedKbit (slotAdmitted S speed h i a).1 i port else 0)
            (masterCostKbit a.open_.sampleRate) = true := by
        intro hmaster
        have hadmit : slotFits speed (slotAdmitted S speed h i a).1 i a.open_.sampleRate = true := by
          rcases hwho with ⟨-, hadmit⟩ | ⟨hslave, -⟩
          · exact hadmit
          · exact absurd (hmaster.symm.trans hslave) (by decide)
        rw [slotFits, linkUsedKbit, slotAdmitted_enabled, hself, htx] at hadmit
        rw [← hport]
        exact hadmit
      by_cases hasked : h.enabled = true ∧ (h.listeners i).cfg.role = .master
      · refine Or.inr fun hknown => ?_
        have hfit := hfit hasked.2
        rw [if_pos hasked.1, reacLinkBudgetFits_known hknown] at hfit
        have hsame : portUsedKbit ((slotAdmitted S speed h i a).1.setSlot i L') i port ≤
            portUsedKbit (slotAdmitted S speed h i a).1 i port :=
          (portUsed_le i fun j hj => sendsNoMore_of_eq (setSlot_ne _ _ hj)).2
        omega
      · have hunasked : sendsUnasked speed h i dev a.open_ = true := by
          unfold sendsUnasked
          rcases hwho with ⟨hmaster, -⟩ | ⟨hslave, hsendsOf⟩
          · have hlive : h.enabled = false := by
              cases hen : h.enabled with
              | false => rfl
              | true => exact absurd ⟨hen, hmaster⟩ hasked
            have hfit := hfit hmaster
            rw [hlive, if_neg Bool.false_ne_true, ← hport] at hfit
            simp [htap, hdoor, hgranted, hmaster, hlive, hfit]
          · simp [htap, hdoor, hgranted, hslave, hsendsOf]
        have hguard := hguard dev (by rw [htx]; rfl) hunasked
        rw [hport] at hguard
        rcases hguard with halone | hfit
        · exact Or.inl (Finset.subset_empty.mp (halone ▸ hsub))
        · refine Or.inr fun hknown => ?_
          rw [reacLinkBudgetFits_known hknown] at hfit
          omega

/-! ### Every act on the table -/

/-- Every open of an act that comes up sending and unasked fits. -/
def OpensFit (h : Hearing σ n) : TableAct n → Prop
  | .serve name conf hunt forcedRate a =>
      h.enabled = true → hearingListener h name = none → a.open_.rxStarts = true →
        ∀ i ∈ freeSlot h, FitsUnasked speed
          (h.setSlot i { Listener.zeroed with cfg := serveCfg name conf hunt forcedRate }) i a
  | .drop _ => True
  | .reopenRate i hz a =>
      (h.listeners i).opened = true → a.open_.rxStarts = true →
        FitsUnasked speed (h.setSlot i (listenerReopening (h.listeners i) (rateChange hz))) i a
  | .reopenRole i role a =>
      (h.listeners i).opened = true → a.open_.rxStarts = true →
        FitsUnasked speed (h.setSlot i (listenerReopening (h.listeners i) (roleChange role))) i a
  -- its receiver starts later, and the listener sends before it does
  | .openLive i a =>
      h.enabled = false → (h.listeners i).opened = false → FitsUnasked speed h i a
  | .startLive _ _ => True

instance (h : Hearing σ n) (act : TableAct n) : Decidable (OpensFit speed h act) := by
  cases act <;> (unfold OpensFit; infer_instance)

/-- Putting something closed in a slot adds no stream. -/
theorem budgetKept_close {h : Hearing σ n} {i : Fin n} {L : Listener}
    (hkept : BudgetKept speed h) (hclosed : L.opened = false) :
    BudgetKept speed (h.setSlot i L) := by
  intro port
  refine portKept_of_less (hkept port) fun j => ?_
  by_cases hj : j = i
  · exact sendsNoMore_of_closed (by rw [hj, setSlot_same]; exact hclosed)
  · exact sendsNoMore_of_eq (setSlot_ne _ _ hj)

/-- A re-open that left the listener up came up, and its receiver started. -/
theorem listenerReopen_up {L : Listener} {change : ListenerCfg → ListenerCfg} {fits : Bool}
    {a : OpenAnswers} (hopen : (listenerReopen L change fits a).opened = true) :
    (listenerOpen (listenerReopening L change) fits a).2 = true ∧ a.rxStarts = true ∧
      listenerReopen L change fits a =
        { (listenerOpen (listenerReopening L change) fits a).1 with
          opened := true, rxStarted := true } := by
  have hclosed := listenerOpen_opened (listenerReopening L change) fits a
  unfold listenerReopen at hopen ⊢
  dsimp only at hopen ⊢
  split at hopen
  · rw [hclosed] at hopen
    exact absurd hopen Bool.false_ne_true
  rename_i hcame
  split at hopen
  · exact absurd hopen Bool.false_ne_true
  rename_i hrx
  rw [if_neg hcame, if_neg hrx]
  exact ⟨by simpa using hcame, by simpa using hrx, rfl⟩

/-- A serve that left the slot up came up, and the receiver of one that sends started. -/
theorem listenerServe_up {cfg : ListenerCfg} {fits : Bool} {a : OpenAnswers}
    (hopen : (listenerServe cfg fits a).1.opened = true) :
    (listenerOpen { Listener.zeroed with cfg := cfg } fits a).2 = true ∧
      ((listenerServe cfg fits a).1.sink.isSome = true → a.rxStarts = true) ∧
      ∃ feeds, (listenerServe cfg fits a).1 =
        { (listenerOpen { Listener.zeroed with cfg := cfg } fits a).1 with
          opened := true, rxStarted := feeds } := by
  unfold listenerServe at hopen ⊢
  dsimp only at hopen ⊢
  split at hopen
  · rename_i hcame
    rw [if_pos hcame]
    refine ⟨hcame.1, fun hsink => hcame.2 ?_, _, rfl⟩
    obtain ⟨-, hdoor, htap⟩ := listenerUp_feeds (listenerOpen_up hcame.1) hsink
    rw [hdoor, htap]
    rfl
  · exact absurd hopen Bool.false_ne_true

theorem budgetKept_reopen {h : Hearing σ n} {i : Fin n} {change : ListenerCfg → ListenerCfg}
    {a : SlotAnswers n} (hkept : BudgetKept speed h)
    (hfits : a.open_.rxStarts = true →
      FitsUnasked speed (h.setSlot i (listenerReopening (h.listeners i) change)) i a) :
    BudgetKept speed (slotReopen S speed h i change a) := by
  refine budgetKept_open S speed (budgetKept_close speed hkept rfl) (by rw [setSlot_same]; rfl)
    (fun hsends => hfits (listenerReopen_up (sendsOn_opened hsends)).2.1) rfl fun hopen => ?_
  obtain ⟨hcame, -, hres⟩ := listenerReopen_up hopen
  rw [setSlot_same]
  exact ⟨hcame, by rw [hres], by rw [hres], by rw [hres]⟩

theorem budgetKept_serve {h : Hearing σ n} {name : String} {cfg : ListenerCfg}
    {a : SlotAnswers n} (hkept : BudgetKept speed h)
    (hfits : hearingListener h name = none → a.open_.rxStarts = true → ∀ i ∈ freeSlot h,
      FitsUnasked speed (h.setSlot i { Listener.zeroed with cfg := cfg }) i a) :
    BudgetKept speed (hearingServe S speed h name cfg a) := by
  have hscan : ∀ h' : Hearing σ n, BudgetKept speed h' →
      BudgetKept speed (h'.serveFailed S name a.now) := fun h' hkept' port =>
    portKept_of_less (hkept' port) fun j => sendsNoMore_of_eq rfl
  unfold hearingServe
  split
  · exact hkept
  · rename_i hnew
    cases hfree : freeSlot h with
    | none => exact hscan h hkept
    | some i =>
        have hup : BudgetKept speed
            ((slotAdmitted S speed (h.setSlot i { Listener.zeroed with cfg := cfg }) i a).1.setSlot i
              (listenerServe cfg (slotAdmitted S speed
                (h.setSlot i { Listener.zeroed with cfg := cfg }) i a).2 a.open_).1) := by
          refine budgetKept_open S speed (budgetKept_close speed hkept rfl)
            (by rw [setSlot_same]; rfl) (fun hsends => ?_) rfl fun hopen => ?_
          · have hrx := (listenerServe_up (sendsOn_opened hsends)).2.1 (sendsOn_sink hsends)
            exact hfits (by simpa using hnew) hrx i hfree
          · obtain ⟨hcame, -, feeds, hres⟩ := listenerServe_up hopen
            rw [setSlot_same]
            exact ⟨hcame, by rw [hres], by rw [hres], by rw [hres]⟩
        dsimp only
        split
        · exact hup
        · exact hscan _ hup

/-- Every act whose unasked opens fit keeps the budget of every port. -/
theorem tableStep_budget (h : Hearing σ n) (act : TableAct n) (hkept : BudgetKept speed h)
    (hfits : OpensFit speed h act) : BudgetKept speed (tableStep S speed h act) := by
  cases act with
  | serve name conf hunt forcedRate a =>
      show BudgetKept speed (if h.enabled = true then _ else h)
      split
      · rename_i hen
        exact budgetKept_serve S speed hkept (hfits hen)
      · exact hkept
  | drop name =>
      show BudgetKept speed (hearingDrop h name)
      rcases hearingDrop_cases h name with ⟨-, hres⟩ | ⟨i, -, hres⟩
      · rw [hres]
        exact hkept
      · rw [hres]
        exact budgetKept_close speed hkept rfl
  | reopenRate i hz a =>
      show BudgetKept speed (if (h.listeners i).opened = true then _ else h)
      split
      · rename_i hopen
        exact budgetKept_reopen S speed hkept (hfits hopen)
      · exact hkept
  | reopenRole i role a =>
      show BudgetKept speed (if (h.listeners i).opened = true then _ else h)
      split
      · rename_i hopen
        exact budgetKept_reopen S speed hkept (hfits hopen)
      · exact hkept
  | openLive i a =>
      show BudgetKept speed (if (h.enabled || (h.listeners i).opened) = true then h else _)
      split
      · exact hkept
      · rename_i hlive
        have hlive : h.enabled = false ∧ (h.listeners i).opened = false := by
          simpa using hlive
        exact budgetKept_open S speed hkept hlive.2 (fun _ => hfits hlive.1 hlive.2) rfl
          fun hopen => ⟨hopen, rfl, rfl, rfl⟩
  | startLive i ok =>
      show BudgetKept speed (if _ then h else if ok = true then _ else _)
      split
      · exact hkept
      · split
        · intro port
          refine portKept_of_less (hkept port) fun j => ?_
          by_cases hj : j = i
          · subst hj
            intro hsends
            rw [setSlot_same] at hsends ⊢
            exact ⟨hsends, rfl⟩
          · exact sendsNoMore_of_eq (setSlot_ne _ _ hj)
        · exact budgetKept_close speed hkept rfl

/-- The table as a machine. -/
def tableMachine : StepMachine (Hearing σ n) (TableAct n) Unit where
  step h act := (tableStep S speed h act, ())

/-- **Every port's budget is kept, in every run** from a table with nothing open, whose
opens that come up sending unasked all fit beside what already sends on their port. -/
theorem link_budget_kept (h : Hearing σ n) (hclosed : ∀ i, (h.listeners i).opened = false)
    (run : List (TableAct n)) (hfits : (tableMachine S speed).Guarded (OpensFit speed) h run) :
    BudgetKept speed ((tableMachine S speed).after h run) := by
  have hstart : BudgetKept speed h := by
    intro port _ htwo
    have hnone : portSenders h port = ∅ := by
      refine Finset.filter_eq_empty_iff.mpr fun j _ hsends => ?_
      exact absurd (sendsOn_opened hsends) (by rw [hclosed j]; exact Bool.false_ne_true)
    rw [hnone, Finset.card_empty] at htwo
    omega
  exact (tableMachine S speed).invariant_guarded (tableStep_budget S speed) run h hstart hfits

/-! ### Two segments on one port -/

/-- A daemon given two VLANs of one port on its command line, to be their master. -/
def twoLiveMasters : Hearing ScanTable 2 :=
  { enabled := false
    listeners := fun i =>
      { Listener.zeroed with
        cfg := segmentCfg (if i = 0 then "enp1s0.11" else "enp1s0.12") .master }
    scan := { ifs := [], queue := [] }
    ignored := fun _ => false }

def nothingKnown (rate : Nat) : SlotAnswers 2 :=
  { facts := fun _ => { heard := false, pastProbing := false, recognizedBox := false }
    open_ := opensAt rate, now := 1000000000 }

/-- The port of the two is a 100 Mbit/s one. -/
def hundredMbit (port : String) : Nat := if port = "enp1s0" then 100 else 0

/-- Both opened at 48 kHz fit beside each other. -/
theorem link_budget_kept_two_masters :
    (portSenders ((tableMachine scanTable hundredMbit).after twoLiveMasters
      [.openLive 0 (nothingKnown 48000), .startLive 0 true, .openLive 1 (nothingKnown 48000),
        .startLive 1 true]) "enp1s0").card = 2 ∧
    BudgetKept hundredMbit
      ((tableMachine scanTable hundredMbit).after twoLiveMasters
        [.openLive 0 (nothingKnown 48000), .startLive 0 true, .openLive 1 (nothingKnown 48000),
          .startLive 1 true]) :=
  ⟨by decide, link_budget_kept scanTable hundredMbit twoLiveMasters (by decide) _ (by decide)⟩

/-- Both opened at 96 kHz do not fit, and nothing asked. -/
theorem link_budget_exceeded_live :
    ¬ BudgetKept hundredMbit
      ((tableMachine scanTable hundredMbit).after twoLiveMasters
        [.openLive 0 (nothingKnown 96000), .openLive 1 (nothingKnown 96000)]) := by
  intro hkept
  exact absurd (hkept "enp1s0" (by decide) (by decide)) (by decide)

end ReacPw
