/-
A port's budget is not traded back and forth, in the runs that trade no old evidence.

What is remembered of a segment that yielded is whether a frame has been heard on it
since, whether the sniffer it had is open still, and what that sniffer's hunt had
heard by then (`YieldNote`).  Until a frame is heard, such a sniffer has its latch set
and a hunt that says what it said; a sniffer opened later has neither latch nor
evidence, and its hunt masters a wire on a pin alone (`TradeInv`).

So a wire is handed back too soon in two ways: the hunt that outlived the yield had
heard something before it, which the latch does not tell from something heard since,
or the conf has pinned the segment a master in between.  A run is guarded at these,
and the guard is exact.
-/
import ReacPw.HearingHunt
import ReacPw.Proofs.BudgetYield

namespace ReacPw

variable {σ : Type*} {n : Nat} {η : Type*}

/-! ### What is remembered of a yield -/

/-- A segment that gave its port's budget up. -/
structure YieldNote where
  /-- A frame was heard on it since. -/
  heardSince : Bool
  /-- The sniffer that was open then is open still. -/
  survived : Bool
  /-- And its hunt had heard something by then. -/
  evidence : Bool
  deriving DecidableEq, Repr

/-- The tables, and what is remembered of each segment. -/
abbrev TradeState (σ : Type*) (n : Nat) (η : Type*) :=
  HuntTable σ n η × (String → Option YieldNote)

section
variable (S : IfScan σ) (speed : String → Nat) (A : HuntApi η) (windowNs : Nat)

def yieldNote (sniffer : Option (SniffSlot η)) : YieldNote :=
  { heardSince := false, survived := sniffer.isSome
    evidence := sniffer.any fun sn => A.heardAnything sn.hunt }

/-- A frame that reaches an open sniffer and is a sighting. -/
def sighted (t : HuntTable σ n η) (name : String) (bytes : List UInt8) (now : Nat) : Bool :=
  (t.sniff name).any fun sn => (A.observe sn.hunt bytes now).2

/-- What a move adds to the notes. -/
def noteMove (ν : String → Option YieldNote) (t : HuntTable σ n η) (move : HuntMove σ n)
    (_ : Option (String × HandedAs)) : String → Option YieldNote :=
  match move with
  | .table act => fun k =>
      if k ∈ tableYields speed t.hear act then some (yieldNote A (t.sniff k)) else ν k
  | .closeSniffer name =>
      Function.update ν name ((ν name).map fun y => { y with survived := false })
  | .frame name bytes now _ =>
      Function.update ν name ((ν name).map fun y =>
        { y with heardSince := y.heardSince || sighted A t name bytes now })
  | _ => ν

/-- The daemon's moves, with the notes beside them. -/
def tradeMachine : StepMachine (TradeState σ n η) (HuntMove σ n) (Option (String × HandedAs)) :=
  (huntMachine S speed A windowNs).withHistory (noteMove speed A)

/-- **A segment that yielded is handed back to be mastered only when a frame was heard on it
since.** -/
def HandsBackHeard (s : TradeState σ n η) (move : HuntMove σ n) : Prop :=
  ∀ name, ((tradeMachine S speed A windowNs).step s move).2 = some (name, .master) →
    ∀ y ∈ s.2 name, y.heardSince = true

/-- Whether a turn gets as far as the hunt's verdict. -/
def turnAsks (t : HuntTable σ n η) (name : String) (sn : SniffSlot η) (w : HuntTurn) : Bool :=
  decide (S.state t.hear.scan name = .linked) && !(w.trunk || w.tapBinds || w.retryHeld) &&
    !sn.tapPinned

/-- A turn masters a segment that yielded and has heard nothing since: on what the sniffer
that outlived the yield had heard before it, or on a pin read after it. -/
def tradesEvidence (s : TradeState σ n η) : HuntMove σ n → Bool
  | .turn name w =>
      match s.1.sniff name, s.2 name with
      | some sn, some y =>
          turnAsks S s.1 name sn w && (A.said (A.step sn.hunt w.now)).verdict == .master &&
            !y.heardSince && (if y.survived then y.evidence else A.pinned sn.hunt)
      | _, _ => false
  | _ => false

/-! ### What holds until a frame is heard -/

/-- The sniffer of a segment that yielded and has heard nothing since. -/
structure Unheard (y : YieldNote) (sniffer : Option (SniffSlot η)) : Prop where
  survived : y.survived = true → ∃ sn, sniffer = some sn ∧ sn.budgetYielded = true ∧
    A.heardAnything sn.hunt = y.evidence
  fresh : y.survived = false → ∀ sn ∈ sniffer, sn.budgetYielded = false ∧
    A.heardAnything sn.hunt = false ∧ A.silent sn.hunt = false

/-- Every segment that yielded and has heard nothing since. -/
def TradeInv (s : TradeState σ n η) : Prop :=
  ∀ k, ∀ y ∈ s.2 k, y.heardSince = false → Unheard A y (s.1.sniff k)

theorem unheard_yield (sniffer : Option (SniffSlot η)) :
    Unheard A (yieldNote A sniffer) (sniffer.map .yielded) := by
  cases sniffer with
  | none => exact ⟨fun hsurvived => absurd hsurvived Bool.false_ne_true, fun _ sn hsn => by simp at hsn⟩
  | some sn =>
      refine ⟨fun _ => ⟨sn.yielded, rfl, rfl, ?_⟩, fun hgone => absurd hgone (by simp [yieldNote])⟩
      simp [yieldNote, SniffSlot.yielded]

/-- A hunt that says no more than it did. -/
theorem Unheard.keep {y : YieldNote} {sn sn' : SniffSlot η} (hun : Unheard A y (some sn))
    (hlatch : sn'.budgetYielded = sn.budgetYielded)
    (hheard : A.heardAnything sn'.hunt = A.heardAnything sn.hunt)
    (hsilent : A.silent sn'.hunt = A.silent sn.hunt) : Unheard A y (some sn') where
  survived := by
    intro hsurvived
    obtain ⟨old, hold, hyielded, hevidence⟩ := hun.survived hsurvived
    obtain rfl := Option.some.inj hold
    exact ⟨sn', rfl, hlatch.trans hyielded, hheard.trans hevidence⟩
  fresh := by
    intro hgone new hnew
    obtain rfl := Option.some.inj hnew
    obtain ⟨hnot, hquiet, hloud⟩ := hun.fresh hgone sn rfl
    exact ⟨hlatch.trans hnot, hheard.trans hquiet, hsilent.trans hloud⟩

/-- A move that touches one sniffer keeps what holds of the others. -/
theorem tradeInv_update {s : TradeState σ n η} {name : String} {sniffer : Option (SniffSlot η)}
    {note : Option YieldNote} {t : HuntTable σ n η} (hinv : TradeInv A s)
    (hsniff : t.sniff = Function.update s.1.sniff name sniffer)
    (hname : ∀ y ∈ note, y.heardSince = false → Unheard A y sniffer) :
    TradeInv A (t, Function.update s.2 name note) := by
  intro k y hy hquiet
  replace hy : y ∈ Function.update s.2 name note k := hy
  show Unheard A y (t.sniff k)
  rw [hsniff]
  by_cases hk : k = name
  · subst hk
    rw [Function.update_self] at hy ⊢
    exact hname y hy hquiet
  · rw [Function.update_of_ne hk] at hy ⊢
    exact hinv k y hy hquiet

/-- And one that leaves the notes alone. -/
theorem tradeInv_sniff {s : TradeState σ n η} {name : String} {sniffer : Option (SniffSlot η)}
    {t : HuntTable σ n η} (hinv : TradeInv A s)
    (hsniff : t.sniff = Function.update s.1.sniff name sniffer)
    (hname : ∀ y ∈ s.2 name, y.heardSince = false → Unheard A y sniffer) :
    TradeInv A (t, s.2) := by
  have hupdate := tradeInv_update A hinv hsniff hname
  rwa [Function.update_eq_self] at hupdate

/-! ### A turn -/

/-- What a turn leaves of a sniffer. -/
inductive TurnLeft (t : HuntTable σ n η) (name : String) (w : HuntTurn) :
    HuntTable σ n η × Option HandedAs → Prop
  | still : TurnLeft t name w (t, none)
  /-- Its latch is as it was. -/
  | kept (sn sn' : SniffSlot η) (as : Option HandedAs) (t' : HuntTable σ n η)
      (hsn : t.sniff name = some sn) (hnot : as ≠ some .master)
      (hhunt : sn'.hunt = sn.hunt ∨ sn'.hunt = A.step sn.hunt w.now)
      (hlatch : sn'.budgetYielded = sn.budgetYielded)
      (hset : t'.sniff = Function.update t.sniff name (some sn')) : TurnLeft t name w (t', as)
  /-- The wire is handed back to be mastered, and its latch cleared. -/
  | mastered (sn sn' : SniffSlot η) (t' : HuntTable σ n η) (hsn : t.sniff name = some sn)
      (hasks : turnAsks S t name sn w = true)
      (hmaster : (A.said (A.step sn.hunt w.now)).verdict = .master)
      (hfree : (sn.budgetYielded && !A.heardAnything (A.step sn.hunt w.now)) = false)
      (hset : t'.sniff = Function.update t.sniff name (some sn')) :
      TurnLeft t name w (t', some .master)

theorem hearingHunt_left (t : HuntTable σ n η) (name : String) (w : HuntTurn) :
    TurnLeft S A t name w (hearingHunt S A windowNs t name w) := by
  unfold hearingHunt
  cases hsn : t.sniff name with
  | none => exact .still
  | some sn =>
      dsimp only
      by_cases hlinked : S.state t.hear.scan name = .linked
      · rw [if_neg (by simpa using hlinked)]
        by_cases hheld : (w.trunk || w.tapBinds || w.retryHeld) = true
        · rw [if_pos hheld]
          exact .still
        rw [if_neg hheld]
        by_cases htap : sn.tapPinned = true
        · rw [if_pos htap]
          exact .kept sn sn _ _ hsn (by decide) (Or.inl rfl) rfl rfl
        rw [if_neg htap]
        unfold huntRules
        cases hverdict : (A.said (A.step sn.hunt w.now)).verdict with
        | slave => refine .kept sn _ _ _ hsn (by decide) (Or.inr ?_) ?_ rfl <;> rfl
        | refused => refine .kept sn _ _ _ hsn (by decide) (Or.inr ?_) ?_ rfl <;> rfl
        | hunting =>
            dsimp only
            unfold huntUndecided
            split
            · refine .kept sn _ _ _ hsn (by decide) (Or.inr ?_) ?_ rfl <;> rfl
            · refine .kept sn _ _ _ hsn (by decide) (Or.inr ?_) ?_ rfl <;> rfl
        | master =>
            dsimp only
            unfold huntMaster
            dsimp only
            split
            · refine .kept sn _ _ _ hsn (by decide) (Or.inr ?_) ?_ rfl <;> rfl
            · rename_i hfree
              refine .mastered sn _ _ hsn ?_ hverdict (by simpa using hfree) rfl
              simp only [turnAsks, hlinked, decide_true, Bool.true_and, Bool.and_eq_true,
                Bool.not_eq_true']
              exact ⟨by simpa using hheld, by simpa using htap⟩
      · rw [if_pos hlinked]
        exact .still

/-- A turn that asks and is not held back masters the wire. -/
theorem hearingHunt_masters {t : HuntTable σ n η} {name : String} {w : HuntTurn} {sn : SniffSlot η}
    (hsn : t.sniff name = some sn) (hasks : turnAsks S t name sn w = true)
    (hmaster : (A.said (A.step sn.hunt w.now)).verdict = .master)
    (hfree : (sn.budgetYielded && !A.heardAnything (A.step sn.hunt w.now)) = false) :
    (hearingHunt S A windowNs t name w).2 = some .master := by
  simp only [turnAsks, Bool.and_eq_true, decide_eq_true_eq, Bool.not_eq_true'] at hasks
  obtain ⟨⟨hlinked, hheld⟩, htap⟩ := hasks
  unfold hearingHunt
  rw [hsn]
  dsimp only
  rw [if_neg (by simpa using hlinked), if_neg (by simp [hheld]), if_neg (by simp [htap])]
  unfold huntRules
  rw [hmaster]
  dsimp only
  unfold huntMaster
  dsimp only
  rw [hfree]
  rfl

/-! ### One move -/

variable {A}

/-- A fresh sniffer has heard nothing. -/
theorem snifferFresh_quiet (hlawful : A.Lawful) (role : Option ReacRole) (tapPin : Bool)
    (now : Nat) :
    A.heardAnything (snifferFresh A role tapPin now).hunt = false ∧
      A.silent (snifferFresh A role tapPin now).hunt = false := by
  obtain ⟨hheard, hsilent⟩ := hlawful.init now
  cases role with
  | none => exact ⟨hheard, hsilent⟩
  | some role =>
      obtain ⟨hheard', hsilent'⟩ := hlawful.pin (A.init now) role
      exact ⟨hheard'.trans hheard, hsilent'.trans hsilent⟩

/-- A frame that is no sighting says nothing to the hunt. -/
theorem snifferHears_unsighted (hlawful : A.Lawful) {sn : SniffSlot η} {bytes : List UInt8}
    {now : Nat} (hnot : (A.observe sn.hunt bytes now).2 = false) (answers : Bool) :
    (snifferHears A sn bytes now answers).budgetYielded = sn.budgetYielded ∧
    A.heardAnything (snifferHears A sn bytes now answers).hunt = A.heardAnything sn.hunt ∧
    A.silent (snifferHears A sn bytes now answers).hunt = A.silent sn.hunt := by
  obtain ⟨hheard, hsilent, -⟩ := hlawful.observe sn.hunt bytes now
  rw [hnot, Bool.or_false] at hheard
  have hhunt : (snifferHears A sn bytes now answers).hunt = (A.observe sn.hunt bytes now).1 := by
    simp [snifferHears, hnot]
  rw [hhunt]
  exact ⟨rfl, hheard, hsilent⟩

/-- What a turn would trade: what the sniffer that outlived the yield had heard, or a pin. -/
def traded (y : YieldNote) (sn : SniffSlot η) : Bool :=
  if y.survived then y.evidence else A.pinned sn.hunt

/-- Where there is something to trade, the latch is not there or does not tell old from new. -/
theorem Unheard.unlatched (hlawful : A.Lawful) {y : YieldNote} {sn : SniffSlot η}
    (hun : Unheard A y (some sn)) (now : Nat) (htraded : traded (A := A) y sn = true) :
    (sn.budgetYielded && !A.heardAnything (A.step sn.hunt now)) = false := by
  rw [(hlawful.step sn.hunt now).1]
  unfold traded at htraded
  cases hsurvived : y.survived with
  | true =>
      obtain ⟨old, hold, -, hevidence⟩ := hun.survived hsurvived
      obtain rfl := Option.some.inj hold
      rw [hsurvived, if_pos rfl] at htraded
      rw [hevidence, htraded]
      simp
  | false =>
      rw [(hun.fresh hsurvived sn rfl).1]
      rfl

/-- A wire that is mastered with nothing heard since is mastered on what is traded. -/
theorem Unheard.trades (hlawful : A.Lawful) {y : YieldNote} {sn : SniffSlot η}
    (hun : Unheard A y (some sn)) {now : Nat}
    (hmaster : (A.said (A.step sn.hunt now)).verdict = .master)
    (hfree : (sn.budgetYielded && !A.heardAnything (A.step sn.hunt now)) = false) :
    traded (A := A) y sn = true := by
  obtain ⟨hheard, hsilent, hpinned⟩ := hlawful.step sn.hunt now
  unfold traded
  cases hsurvived : y.survived with
  | true =>
      obtain ⟨old, hold, hyielded, hevidence⟩ := hun.survived hsurvived
      obtain rfl := Option.some.inj hold
      rw [hheard, hyielded, hevidence] at hfree
      rw [if_pos rfl]
      simpa using hfree
  | false =>
      obtain ⟨-, hunheard, hloud⟩ := hun.fresh hsurvived sn rfl
      rw [if_neg Bool.false_ne_true]
      rcases hlawful.master sn.hunt now hmaster with hpin | hany | hlic
      · rw [← hpinned, hpin]
      · rw [hheard, hunheard] at hany
        exact absurd hany Bool.false_ne_true
      · rw [hsilent, hloud] at hlic
        exact absurd hlic Bool.false_ne_true

/-- A turn on a segment that yielded and has heard nothing since masters it exactly where it
trades. -/
theorem hearingHunt_masters_iff (hlawful : A.Lawful) {t : HuntTable σ n η} {name : String}
    {w : HuntTurn} {sn : SniffSlot η} {y : YieldNote} (hsn : t.sniff name = some sn)
    (hun : Unheard A y (some sn)) :
    (hearingHunt S A windowNs t name w).2 = some .master ↔
      turnAsks S t name sn w = true ∧ (A.said (A.step sn.hunt w.now)).verdict = .master ∧
        traded (A := A) y sn = true := by
  constructor
  · intro has
    have hleft := hearingHunt_left S A windowNs t name w
    generalize hearingHunt S A windowNs t name w = r at has hleft
    cases hleft with
    | still => cases has
    | kept old sn' as t' hold hnot => exact absurd has hnot
    | mastered old sn' t' hold hasks hmaster hfree =>
        obtain rfl := Option.some.inj (hsn.symm.trans hold)
        exact ⟨hasks, hmaster, hun.trades hlawful hmaster hfree⟩
  · rintro ⟨hasks, hmaster, htraded⟩
    exact hearingHunt_masters S A windowNs hsn hasks hmaster (hun.unlatched hlawful w.now htraded)

/-- Only the segment of the turn is handed back by it. -/
theorem handsBack_turn_iff (s : TradeState σ n η) (name : String) (w : HuntTurn) :
    HandsBackHeard S speed A windowNs s (.turn name w) ↔
      ((hearingHunt S A windowNs s.1 name w).2 = some .master →
        ∀ y ∈ s.2 name, y.heardSince = true) := by
  have hout : ((tradeMachine S speed A windowNs).step s (.turn name w)).2 =
      (hearingHunt S A windowNs s.1 name w).2.map (fun as => (name, as)) := rfl
  constructor
  · intro hhands has
    exact hhands name (by rw [hout, has]; rfl)
  · intro hturn k hk
    rw [hout] at hk
    obtain ⟨as, has, hpair⟩ := Option.map_eq_some_iff.mp hk
    obtain ⟨rfl, rfl⟩ := Prod.mk.inj hpair
    exact hturn has

/-- While nothing has been heard, a turn masters the wire exactly where it trades evidence. -/
theorem handsBack_turn (hlawful : A.Lawful) {s : TradeState σ n η} (hinv : TradeInv A s)
    (name : String) (w : HuntTurn) :
    HandsBackHeard S speed A windowNs s (.turn name w) ↔
      tradesEvidence S A s (.turn name w) = false := by
  rw [handsBack_turn_iff]
  cases hsn : s.1.sniff name with
  | none =>
      have hstill : (hearingHunt S A windowNs s.1 name w).2 = none := by
        unfold hearingHunt
        rw [hsn]
      rw [hstill]
      exact iff_of_true (fun h => by cases h) (by simp [tradesEvidence, hsn])
  | some sn =>
      cases hnote : s.2 name with
      | none => exact iff_of_true (fun _ y hy => by cases hy) (by simp [tradesEvidence, hsn, hnote])
      | some y =>
          have htrades : tradesEvidence S A s (.turn name w) =
              (turnAsks S s.1 name sn w &&
                (A.said (A.step sn.hunt w.now)).verdict == .master && !y.heardSince &&
                traded (A := A) y sn) := by
            simp [tradesEvidence, traded, hsn, hnote]
          rw [htrades]
          cases hquiet : y.heardSince with
          | true =>
              refine iff_of_true (fun _ y' hy' => ?_) (by simp)
              obtain rfl := Option.some.inj hy'
              exact hquiet
          | false =>
              have hun : Unheard A y (some sn) := hsn ▸ hinv name y hnote hquiet
              rw [hearingHunt_masters_iff S windowNs hlawful hsn hun]
              simp [hquiet]

/-- **A segment is handed back with a frame heard exactly where no evidence is traded.** -/
theorem handsBack_iff (hlawful : A.Lawful) {s : TradeState σ n η} (hinv : TradeInv A s)
    (move : HuntMove σ n) :
    HandsBackHeard S speed A windowNs s move ↔ tradesEvidence S A s move = false := by
  cases move with
  | turn name w => exact handsBack_turn S speed windowNs hlawful hinv name w
  | openSniffer name role tapPin now =>
      refine iff_of_true (fun k hk => ?_) rfl
      have hnone : (huntStep S speed A windowNs s.1 (.openSniffer name role tapPin now)).2 = none := by
        dsimp only [huntStep]
        split <;> rfl
      have hk' : (huntStep S speed A windowNs s.1 (.openSniffer name role tapPin now)).2 =
        some (k, .master) := hk
      rw [hnone] at hk'
      exact absurd hk' (by simp)
  | _ => exact iff_of_true (fun k hk => absurd hk (by simp [tradeMachine, StepMachine.withHistory,
      huntMachine, huntStep])) rfl

/-! ### What each move leaves -/

theorem tradeInv_table (s : TradeState σ n η) (act : TableAct n) (hinv : TradeInv A s) :
    TradeInv A ((tradeMachine S speed A windowNs).step s (.table act)).1 := by
  intro k y hy hquiet
  show Unheard A y (sniffersTold (tableYields speed s.1.hear act) s.1.sniff k)
  replace hy : y ∈ if k ∈ tableYields speed s.1.hear act then some (yieldNote A (s.1.sniff k))
    else s.2 k := hy
  unfold sniffersTold
  by_cases hk : k ∈ tableYields speed s.1.hear act
  · rw [if_pos hk] at hy ⊢
    obtain rfl := Option.some.inj hy
    exact unheard_yield A (s.1.sniff k)
  · rw [if_neg hk] at hy ⊢
    exact hinv k y hy hquiet

theorem tradeInv_openSniffer (hlawful : A.Lawful) (s : TradeState σ n η) (name : String)
    (role : Option ReacRole) (tapPin : Bool) (now : Nat) (hinv : TradeInv A s) :
    TradeInv A
      ((tradeMachine S speed A windowNs).step s (.openSniffer name role tapPin now)).1 := by
  cases hsn : s.1.sniff name with
  | some sn =>
      have hsame : huntStep S speed A windowNs s.1 (.openSniffer name role tapPin now) =
          (s.1, none) := by simp [huntStep, hsn]
      show TradeInv A ((huntStep S speed A windowNs s.1 _).1, s.2)
      rw [hsame]
      exact hinv
  | none =>
      have hopens : huntStep S speed A windowNs s.1 (.openSniffer name role tapPin now) =
          (s.1.setSniff name (some (snifferFresh A role tapPin now)), none) := by
        simp [huntStep, hsn]
      show TradeInv A ((huntStep S speed A windowNs s.1 _).1, s.2)
      rw [hopens]
      refine tradeInv_sniff A hinv rfl fun y hy hquiet => ?_
      have hun := hinv name y hy hquiet
      rw [hsn] at hun
      refine ⟨fun hsurvived => ?_, fun _ sn hfresh => ?_⟩
      · obtain ⟨sn, hnone, -⟩ := hun.survived hsurvived
        cases hnone
      · obtain rfl := Option.some.inj hfresh
        exact ⟨rfl, snifferFresh_quiet hlawful role tapPin now⟩

theorem tradeInv_closeSniffer (s : TradeState σ n η) (name : String) (hinv : TradeInv A s) :
    TradeInv A ((tradeMachine S speed A windowNs).step s (.closeSniffer name)).1 := by
  refine tradeInv_update A hinv rfl fun y hy _ => ?_
  obtain ⟨y', -, rfl⟩ := Option.map_eq_some_iff.mp hy
  exact ⟨fun hsurvived => absurd hsurvived Bool.false_ne_true, fun _ sn hsn => by cases hsn⟩

theorem tradeInv_frame (hlawful : A.Lawful) (s : TradeState σ n η) (name : String)
    (bytes : List UInt8) (now : Nat) (answers : Bool) (hinv : TradeInv A s) :
    TradeInv A
      ((tradeMachine S speed A windowNs).step s (.frame name bytes now answers)).1 := by
  refine tradeInv_update A hinv rfl fun y hy hquiet => ?_
  obtain ⟨y', hy', rfl⟩ := Option.map_eq_some_iff.mp hy
  obtain ⟨hquiet', hunsighted⟩ : y'.heardSince = false ∧ sighted A s.1 name bytes now = false := by
    simpa using hquiet
  have hun := hinv name y' hy' hquiet'
  have hsame : Unheard A y'
      ((s.1.sniff name).map fun sn => snifferHears A sn bytes now answers) := by
    cases hsn : s.1.sniff name with
    | none =>
        rw [hsn] at hun
        exact hun
    | some sn =>
        have hnot : (A.observe sn.hunt bytes now).2 = false := by
          simpa [sighted, hsn] using hunsighted
        obtain ⟨hlatch, hheard, hsilent⟩ := snifferHears_unsighted hlawful hnot answers
        rw [hsn] at hun
        exact hun.keep A hlatch hheard hsilent
  exact ⟨hsame.survived, hsame.fresh⟩

theorem tradeInv_watch (hlawful : A.Lawful) (s : TradeState σ n η) (name : String) (now : Nat)
    (hinv : TradeInv A s) :
    TradeInv A ((tradeMachine S speed A windowNs).step s (.watch name now)).1 := by
  refine tradeInv_sniff A hinv rfl fun y hy hquiet => ?_
  have hun := hinv name y hy hquiet
  cases hsn : s.1.sniff name with
  | none =>
      rw [hsn] at hun
      exact hun
  | some sn =>
      obtain ⟨hheard, hsilent, -⟩ := hlawful.step sn.hunt now
      rw [hsn] at hun
      exact hun.keep A rfl hheard hsilent

theorem tradeInv_turn (hlawful : A.Lawful) (s : TradeState σ n η) (name : String) (w : HuntTurn)
    (hinv : TradeInv A s) (hfair : tradesEvidence S A s (.turn name w) = false) :
    TradeInv A ((tradeMachine S speed A windowNs).step s (.turn name w)).1 := by
  have hhands := (handsBack_turn_iff S speed windowNs s name w).mp
    ((handsBack_turn S speed windowNs hlawful hinv name w).mpr hfair)
  have hleft := hearingHunt_left S A windowNs s.1 name w
  show TradeInv A ((hearingHunt S A windowNs s.1 name w).1, s.2)
  generalize hearingHunt S A windowNs s.1 name w = r at hhands hleft
  cases hleft with
  | still => exact hinv
  | kept sn sn' as t' hsn hnot hhunt hlatch hset =>
      refine tradeInv_sniff A hinv hset fun y hy hquiet => ?_
      have hun := hinv name y hy hquiet
      rw [hsn] at hun
      obtain ⟨hheard, hsilent, -⟩ := hlawful.step sn.hunt w.now
      rcases hhunt with hhunt | hhunt
      · exact hun.keep A hlatch (by rw [hhunt]) (by rw [hhunt])
      · exact hun.keep A hlatch (by rw [hhunt]; exact hheard) (by rw [hhunt]; exact hsilent)
  | mastered sn sn' t' hsn hasks hmaster hfree hset =>
      -- it was heard, so nothing is owed of it any more
      refine tradeInv_sniff A hinv hset fun y hy hquiet => ?_
      rw [hhands rfl y hy] at hquiet
      cases hquiet

/-- A move that trades no evidence keeps what holds of the segments that yielded. -/
theorem tradeInv_step (hlawful : A.Lawful) (s : TradeState σ n η) (move : HuntMove σ n)
    (hinv : TradeInv A s) (hfair : tradesEvidence S A s move = false) :
    TradeInv A ((tradeMachine S speed A windowNs).step s move).1 := by
  cases move with
  | table act => exact tradeInv_table S speed windowNs s act hinv
  | scan scan => exact hinv
  | openSniffer name role tapPin now =>
      exact tradeInv_openSniffer S speed windowNs hlawful s name role tapPin now hinv
  | closeSniffer name => exact tradeInv_closeSniffer S speed windowNs s name hinv
  | frame name bytes now answers =>
      exact tradeInv_frame S speed windowNs hlawful s name bytes now answers hinv
  | watch name now => exact tradeInv_watch S speed windowNs hlawful s name now hinv
  | turn name w => exact tradeInv_turn S speed windowNs hlawful s name w hinv hfair

/-! ### A whole run -/

/-- **A port's budget is not traded on old evidence, exactly in the runs that trade none**: a
segment that yielded is handed back to be mastered only when a frame was heard on it since. -/
theorem budget_not_traded (hlawful : A.Lawful) (t : HuntTable σ n η) (run : List (HuntMove σ n)) :
    (tradeMachine S speed A windowNs).Guarded (HandsBackHeard S speed A windowNs)
        (t, fun _ => none) run ↔
      (tradeMachine S speed A windowNs).Guarded (fun s move => tradesEvidence S A s move = false)
        (t, fun _ => none) run :=
  (tradeMachine S speed A windowNs).guarded_iff (tradeInv_step S speed windowNs hlawful)
    (fun _ move hinv => handsBack_iff S speed windowNs hlawful hinv move) run _
    fun _ _ hy => absurd hy (by simp)

end

/-! ### Two VLANs of one port -/

/-- A hunt on a wire with boxes and no master. -/
structure BoxHunt where
  openedNs : Nat
  role : Option ReacRole
  /-- The first sighting. -/
  heardNs : Option Nat
  silent : Bool
  verdict : HuntVerdict
  deriving DecidableEq, Repr

/-- Three of a master's announce cadences. -/
def boxHuntWindowNs : Nat := 3000000000

/-- A pin decides at once, a box once the wire is known to have no master. -/
def BoxHunt.rules (w : BoxHunt) (now : Nat) : HuntVerdict :=
  match w.role with
  | some .master => .master
  | some .slave => .slave
  | none => match w.heardNs with
    | none => if w.silent then .master else .hunting
    | some heardNs => if w.silent || decide (heardNs + boxHuntWindowNs ≤ now) then .master else .hunting

def boxHuntApi : HuntApi BoxHunt where
  init now := { openedNs := now, role := none, heardNs := none, silent := false, verdict := .hunting }
  pin w role := { w with role := some role }
  observe w frame now :=
    if frame = [] then (w, false) else ({ w with heardNs := some (w.heardNs.getD now) }, true)
  silenceProven w := { w with silent := true }
  step w now := { w with verdict := w.rules now }
  openedNs := BoxHunt.openedNs
  pinned w := w.role.isSome
  silent := BoxHunt.silent
  said w :=
    { verdict := w.verdict, role := w.role.getD .master, boxRival := false, defersAsTap := false
      heardAnything := w.heardNs.isSome }

theorem boxHuntApi_lawful : boxHuntApi.Lawful where
  init now := ⟨rfl, rfl⟩
  pin w role := ⟨rfl, rfl⟩
  observe w frame now := by
    by_cases hempty : frame = []
    · simp [boxHuntApi, HuntApi.heardAnything, hempty]
    · simp [boxHuntApi, HuntApi.heardAnything, hempty]
  silenceProven w := ⟨rfl, rfl⟩
  step w now := ⟨rfl, rfl, rfl⟩
  master w now hmaster := by
    replace hmaster : w.rules now = .master := hmaster
    show w.role.isSome = true ∨ w.heardNs.isSome = true ∨ w.silent = true
    cases hrole : w.role with
    | some role => exact Or.inl rfl
    | none =>
        cases hheard : w.heardNs with
        | some heardNs => exact Or.inr (Or.inl rfl)
        | none =>
            cases hsilent : w.silent with
            | true => exact Or.inr (Or.inr rfl)
            | false => exact absurd hmaster (by simp [BoxHunt.rules, hrole, hheard, hsilent])

/-- A hearing with two slots and two VLANs of a 100 Mbit/s port, both with link. -/
def twoVlansLinked : HuntTable ScanTable 2 BoxHunt :=
  { hear :=
      { enabled := true, listeners := fun _ => .zeroed
        scan := { ifs := [("enp1s0.11", .linked), ("enp1s0.12", .linked)], queue := [] }
        ignored := fun _ => false }
    sniff := fun _ => none }

def askedAt (now : Nat) : HuntTurn :=
  { now := now, trunk := false, tapBinds := false, retryHeld := false }

/-- A VLAN is served as its master, and no master of the port has enrolled anything. -/
def vlanMastered (name : String) (now : Nat) : HuntMove ScanTable 2 :=
  .table (.serve name (segmentCfg name .master) (some vlanMasterHunt) 0
    { facts := fun _ => { heard := false, pastProbing := false, recognizedBox := false }
      open_ := opensAt 96000, now := now })

/-- Both wires have a box, and the second to be served takes the port from the first. -/
def portTaken : List (HuntMove ScanTable 2) :=
  [.openSniffer "enp1s0.11" none false 1000000000, .openSniffer "enp1s0.12" none false 1000000000,
    .frame "enp1s0.11" [0] 2000000000 false, .frame "enp1s0.12" [0] 2000000000 false,
    .turn "enp1s0.11" (askedAt 5000000000), vlanMastered "enp1s0.11" 5000000000,
    .turn "enp1s0.12" (askedAt 5200000000), vlanMastered "enp1s0.12" 5200000000]

/-- A box is heard on the first again before it is asked again. -/
theorem budget_not_traded_heard :
    (tradeMachine scanTable hundredMbit boxHuntApi boxHuntWindowNs).Guarded
      (HandsBackHeard scanTable hundredMbit boxHuntApi boxHuntWindowNs)
      (twoVlansLinked, fun _ => none)
      (portTaken ++ [.frame "enp1s0.11" [0] 6000000000 false,
        .turn "enp1s0.11" (askedAt 11000000000)]) :=
  (budget_not_traded scanTable hundredMbit boxHuntWindowNs boxHuntApi_lawful twoVlansLinked _).mpr
    (by decide)

/-- Nothing is heard on either, and the two take the port from each other. -/
theorem budget_traded_back :
    ¬ (tradeMachine scanTable hundredMbit boxHuntApi boxHuntWindowNs).Guarded
      (HandsBackHeard scanTable hundredMbit boxHuntApi boxHuntWindowNs)
      (twoVlansLinked, fun _ => none)
      (portTaken ++ [.turn "enp1s0.11" (askedAt 11000000000), vlanMastered "enp1s0.11" 11000000000,
        .turn "enp1s0.12" (askedAt 17000000000), vlanMastered "enp1s0.12" 17000000000]) := by
  intro hheard
  rw [StepMachine.guarded_append] at hheard
  have hturn := hheard.2.1 "enp1s0.11" (by decide)
  exact absurd (hturn { heardSince := false, survived := true, evidence := true } (by decide))
    (by decide)

end ReacPw
