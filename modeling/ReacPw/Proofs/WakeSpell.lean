/-
Which PROBING spell the master's ladder judges.

The ladder's rules are about a spell: pushes completed since it opened, frames
heard in it, the grace since it began.  The master's driver hands it two counters
that are the pacer's, cumulative over its life, so after a first spell they still
hold what that spell left in them.  (The knock's driver subtracts what its
counters read when the spell opened.)

The spell is ghost state: a maximal run of turns with the engine in PROBING, and
what the counters read on its first turn.  What they read there decides: a spell
that begins with no transfer completed has every edge judged by its own pushes
and its own grace, and one that begins with no box frame counted has every box
that is said to be talking heard in it.  A frame counted before it forbids its
edges altogether.

The induction is on the run, and what carries it is where a stamp older than the
spell comes from: only a spell that ended with an edge in flight leaves one, and
that edge had three transfers behind it.
-/
import ReacPw.Lib.Run
import ReacPw.WakeDriver
import Mathlib.Data.Nat.Basic
import Mathlib.Order.Basic

namespace ReacPw

/-! ### The stamp of the grace -/

/-- No step moves the stamp. -/
theorem reacWakeStep_openedNs (w : ReacWake) (now : Nat) (o : WakeObs) :
    (reacWakeStep w now o).1.openedNs = w.openedNs := by
  obtain ⟨r, hs⟩ | ⟨-, -, -, hs⟩ | ⟨-, -, -, -, -, hs⟩ := reacWakeStep_cases w now o
  · rw [hs]; rfl
  · rw [hs]
  · rw [hs]

theorem wakeCarryOut_openedNs (c : AutodetectCtx) (t : WakeTurn) (o : WakeObs) :
    (wakeCarryOut c t o).1.wake.openedNs = c.wake.openedNs := by
  rcases wakeCarryOut_wake c t o with h | h
  · rw [h, reacWakeStep_openedNs]
  · rw [h, reacWakeRefusalToSay_openedNs, reacWakeStep_openedNs]

theorem wakeCarryOut_refusal (c : AutodetectCtx) (t : WakeTurn) (o : WakeObs) :
    (wakeCarryOut c t o).1.wake.refusal = (reacWakeStep c.wake t.now o).1.refusal := by
  rcases wakeCarryOut_wake c t o with h | h
  · rw [h]
  · rw [h, reacWakeRefusalToSay_refusal]

/-- A ladder without the stamp of an earlier spell. -/
def AutodetectCtx.unstamped (c : AutodetectCtx) : Bool := !c.wakeOpen || c.wake.openedNs == 0

/-- A probing turn stamps an unstamped ladder and leaves another's stamp. -/
theorem wakeAsked_openedNs {c : AutodetectCtx} {t : WakeTurn} {p : PacerObs}
    (hp : p.probing = true) :
    (wakeAsked c t p).1.wake.openedNs = if c.unstamped then t.now else c.wake.openedNs := by
  have hopened : (wakeOpened c t.now p.probing).wake.openedNs =
      if c.unstamped then t.now else c.wake.openedNs := by
    unfold wakeOpened AutodetectCtx.unstamped
    cases hopen : c.wakeOpen with
    | false => rfl
    | true =>
        by_cases h0 : c.wake.openedNs = 0
        · simp [hp, h0, reacWakeReopen]
        · simp [h0]
  rw [← hopened]
  show (if p.probing then _ else _ : AutodetectCtx).wake.openedNs = _
  rw [if_pos hp]
  rfl

/-! ### Turns of a running engine, and the spell they are in -/

/-- A turn on a listener whose pacer is open. -/
structure EngineTurn where
  now : Nat
  pacer : PacerObs
  carrier : LinkCarrier
  siblingsServed : Bool
  ownerRead : LinkOwner
  downOk : Bool
  upOk : Bool
  deriving DecidableEq

def EngineTurn.turn (t : EngineTurn) : WakeTurn :=
  { now := t.now, pacer := some t.pacer, carrier := t.carrier,
    siblingsServed := t.siblingsServed, ownerRead := t.ownerRead, downOk := t.downOk,
    upOk := t.upOk }

/-- What a PROBING spell found on its first turn. -/
structure Spell where
  since : Nat
  rxBoxFrames : UInt64
  sceneComplete : UInt64
  deriving DecidableEq

/-- The spell a turn is in, given the one the turn before it was in. -/
def spellAt (sp : Option Spell) (t : EngineTurn) : Option Spell :=
  if t.pacer.probing then
    some (sp.getD { since := t.now, rxBoxFrames := t.pacer.rxBoxFrames,
                    sceneComplete := t.pacer.sceneComplete })
  else none

theorem spellAt_probing (sp : Option Spell) {t : EngineTurn}
    (h : t.pacer.probing = true) : ∃ sp', spellAt sp t = some sp' := by
  rw [spellAt, if_pos h]
  exact ⟨_, rfl⟩

/-- `wake_step` on one master listener, with the spell it is in. -/
def spellMachine : StepMachine (AutodetectCtx × Option Spell) EngineTurn WakeReport :=
  (⟨fun c t => wakeStep c t.turn⟩ : StepMachine AutodetectCtx EngineTurn WakeReport).withHistory
    fun sp _ t _ => spellAt sp t

/-- An edge has this spell's pushes and grace behind it. -/
def EdgeJudged (sp : Option Spell) (t : EngineTurn) (r : WakeReport) : Prop :=
  ∀ o, r.asked = some (o, .bounce) → ∃ s ∈ sp,
    s.sceneComplete.toNat + reacWakeMinPushes.toNat ≤ t.pacer.sceneComplete.toNat ∧
      s.since + reacWakeGraceNs ≤ t.now

/-- A box that is said to be talking was heard in this spell. -/
def TalkJudged (sp : Option Spell) (t : EngineTurn) (c' : AutodetectCtx) (r : WakeReport) : Prop :=
  ∀ o, r.asked = some (o, .none) → c'.wake.refusal = .boxIsTalking →
    ∃ s ∈ sp, s.rxBoxFrames < t.pacer.rxBoxFrames

/-! ### What a turn finds -/

/-- The listener holds no master's engine, or no device. -/
def AutodetectCtx.unbound (c : AutodetectCtx) : Bool := !c.sink || c.ifname == ""

/-- **What a turn on a running engine can do.**  Nothing, when there is no engine to ask
for; nothing but finish the edge in flight, when there is one; or it asks the ladder. -/
theorem wakeStep_engine (c : AutodetectCtx) (t : EngineTurn) :
    (c.unbound = true ∧ wakeStep c t.turn = (c, {})) ∨
    (c.upAtNs ≠ 0 ∧ (wakeStep c t.turn).2.asked = none ∧
      ∃ up, (wakeStep c t.turn).1 = { c with upAtNs := up } ∧ (up ≠ 0 → up = c.upAtNs)) ∨
    (c.unbound = false ∧ c.upAtNs = 0 ∧
      (wakeStep c t.turn).1 =
        (wakeCarryOut (wakeAsked c t.turn t.pacer).1 t.turn (wakeAsked c t.turn t.pacer).2).1 ∧
      (wakeStep c t.turn).2.asked = some ((wakeAsked c t.turn t.pacer).2,
        (reacWakeStep (wakeAsked c t.turn t.pacer).1.wake t.now
          (wakeAsked c t.turn t.pacer).2).2)) := by
  by_cases hbound : c.unbound = true
  · exact Or.inl ⟨hbound, if_pos hbound⟩
  have hguard : ¬ (!c.sink || c.ifname == "") = true := hbound
  refine Or.inr ?_
  by_cases hup : c.upAtNs ≠ 0
  · refine Or.inl ⟨hup, ?_⟩
    unfold wakeStep
    rw [if_neg hguard, if_pos hup]
    split
    · exact ⟨rfl, c.upAtNs, rfl, fun _ => rfl⟩
    · exact ⟨rfl, 0, rfl, fun h => absurd rfl h⟩
  · have hasks : wakeStep c t.turn =
        ((wakeCarryOut (wakeAsked c t.turn t.pacer).1 t.turn (wakeAsked c t.turn t.pacer).2).1,
          { (wakeCarryOut (wakeAsked c t.turn t.pacer).1 t.turn
              (wakeAsked c t.turn t.pacer).2).2 with inited := !c.wakeOpen }) := by
      unfold wakeStep
      rw [if_neg hguard, if_neg hup]
      rfl
    rw [hasks]
    exact Or.inr ⟨by simpa using hbound, not_not.mp hup, rfl, wakeCarryOut_asked _ _ _⟩

theorem wakeCarryOut_unbound (c : AutodetectCtx) (t : WakeTurn) (p : PacerObs) (o : WakeObs) :
    (wakeCarryOut (wakeAsked c t p).1 t o).1.unbound = c.unbound := by
  obtain ⟨hsink, hifname, -⟩ := wakeAsked_frame c t p
  obtain ⟨hsink', hifname'⟩ := wakeCarryOut_frame (wakeAsked c t p).1 t o
  unfold AutodetectCtx.unbound
  rw [hsink', hifname', hsink, hifname]

/-- A turn past PROBING forgets the stamp. -/
theorem wakeAsked_forgets {c : AutodetectCtx} {t : WakeTurn} {p : PacerObs}
    (hp : p.probing = false) : (wakeAsked c t p).1.wake.openedNs = 0 := by
  show (if p.probing then _ else _ : AutodetectCtx).wake.openedNs = 0
  rw [hp]
  rfl

/-! ### Where an old stamp comes from -/

/-- How far the clock and the pacer's counters have come. -/
def EngineTurn.reading (t : EngineTurn) : Nat × Nat × Nat :=
  (t.now, t.pacer.rxBoxFrames.toNat, t.pacer.sceneComplete.toNat)

/-- Nobody's stamp is on the ladder between two spells, nor an older one in a spell that
began with no transfer completed, unless three transfers were. -/
structure SpellInv (k : Nat × Nat × Nat) (s : AutodetectCtx × Option Spell) : Prop where
  unbound : s.1.unbound = true → s.1.unstamped = true
  inFlight : s.1.upAtNs ≠ 0 → reacWakeMinPushes.toNat ≤ k.2.2
  between : s.2 = none → s.1.unstamped = true ∨ reacWakeMinPushes.toNat ≤ k.2.2
  since : ∀ sp ∈ s.2, sp.since ≤ k.1 ∧ sp.rxBoxFrames.toNat ≤ k.2.1
  stamp : ∀ sp ∈ s.2, sp.sceneComplete = 0 →
    s.1.unstamped = true ∨ sp.since ≤ s.1.wake.openedNs

/-- The spell of a turn, against the ladder the turn finds. -/
theorem spellAt_found {k : Nat × Nat × Nat} {s : AutodetectCtx × Option Spell}
    (h : SpellInv k s) {i : EngineTurn} (hle : k ≤ i.reading) :
    ∀ sp ∈ spellAt s.2 i, sp.since ≤ i.now ∧ sp.rxBoxFrames ≤ i.pacer.rxBoxFrames ∧
      (sp.sceneComplete = 0 → s.1.unstamped = true ∨ sp.since ≤ s.1.wake.openedNs) := by
  obtain ⟨hnow, hrx, hscene⟩ := hle
  intro sp hsp
  have hsp : spellAt s.2 i = some sp := hsp
  unfold spellAt at hsp
  split at hsp
  · cases hold : s.2 with
    | none =>
        rw [hold] at hsp
        cases hsp
        refine ⟨Nat.le_refl _, UInt64.le_refl _, fun hzero => ?_⟩
        rcases h.between hold with hun | hthree
        · exact Or.inl hun
        · -- three transfers were completed before a spell that begins with none
          have hzero : i.pacer.sceneComplete = 0 := hzero
          have hnone : i.pacer.sceneComplete.toNat = 0 := by rw [hzero]; rfl
          have hthree : 3 ≤ k.2.2 := hthree
          have hscene : k.2.2 ≤ i.pacer.sceneComplete.toNat := hscene
          omega
    | some sp₀ =>
        rw [hold] at hsp
        cases hsp
        obtain ⟨hsince, hframes⟩ := h.since sp₀ hold
        exact ⟨Nat.le_trans hsince hnow, UInt64.le_iff_toNat_le.mpr (Nat.le_trans hframes hrx),
          h.stamp sp₀ hold⟩
  · cases hsp

theorem spellAt_none {sp : Option Spell} {t : EngineTurn} (h : spellAt sp t = none) :
    t.pacer.probing = false := by
  cases hp : t.pacer.probing with
  | false => rfl
  | true =>
      obtain ⟨sp', hsome⟩ := spellAt_probing sp hp
      rw [h] at hsome
      cases hsome

theorem spellAt_mem {sp : Option Spell} {t : EngineTurn} {sp' : Spell}
    (h : sp' ∈ spellAt sp t) : t.pacer.probing = true := by
  cases hp : t.pacer.probing with
  | true => rfl
  | false =>
      rw [spellAt, hp] at h
      cases h

/-- One turn keeps where an old stamp comes from. -/
theorem wakeStep_spellInv (k : Nat × Nat × Nat) (s : AutodetectCtx × Option Spell)
    (i : EngineTurn) (h : SpellInv k s) (hle : k ≤ i.reading) :
    SpellInv i.reading (spellMachine.step s i).1 := by
  have hfound := spellAt_found h hle
  have hgrown : ∀ {m : Nat}, m ≤ k.2.2 → m ≤ i.reading.2.2 := fun hm =>
    Nat.le_trans hm hle.2.2
  have hsince : ∀ sp ∈ spellAt s.2 i,
      sp.since ≤ i.reading.1 ∧ sp.rxBoxFrames.toNat ≤ i.reading.2.1 := fun sp hsp =>
    ⟨(hfound sp hsp).1, UInt64.le_iff_toNat_le.mp (hfound sp hsp).2.1⟩
  show SpellInv i.reading ((wakeStep s.1 i.turn).1, spellAt s.2 i)
  rcases wakeStep_engine s.1 i with
    ⟨hun, hc⟩ | ⟨hup, -, up, hc, hsame⟩ | ⟨hbound, hup, hc, -⟩
  · -- no engine, so no stamp
    rw [hc]
    have hstamp := h.unbound hun
    exact ⟨fun _ => hstamp, fun hup => hgrown (h.inFlight hup), fun _ => Or.inl hstamp, hsince,
      fun _ _ _ => Or.inl hstamp⟩
  · -- an edge in flight, which three transfers came before
    have hthree := hgrown (h.inFlight hup)
    rw [hc]
    exact ⟨h.unbound, fun _ => hthree, fun _ => Or.inr hthree, hsince,
      fun sp hsp => (hfound sp hsp).2.2⟩
  · have hopened : (wakeStep s.1 i.turn).1.wake.openedNs =
        (wakeAsked s.1 i.turn i.pacer).1.wake.openedNs := by
      rw [hc, wakeCarryOut_openedNs]
    refine ⟨fun hun => ?_, fun hflight => ?_, fun hnone => Or.inl ?_, hsince,
      fun sp hsp hzero => Or.inr ?_⟩
    · rw [hc, wakeCarryOut_unbound, hbound] at hun
      exact absurd hun Bool.false_ne_true
    · -- the edge of this turn, which the ladder wanted three transfers for
      have hflight : (wakeStep s.1 i.turn).1.upAtNs ≠ 0 := hflight
      rw [hc, wakeCarryOut_upAtNs] at hflight
      split at hflight
      · rename_i hbounce
        obtain ⟨r, hs⟩ | ⟨-, -, -, hs⟩ | ⟨-, -, -, hpush, -, -⟩ :=
          reacWakeStep_cases (wakeAsked s.1 i.turn i.pacer).1.wake i.turn.now
            (wakeAsked s.1 i.turn i.pacer).2
        · rw [hs] at hbounce
          cases hbounce.1
        · rw [hs] at hbounce
          cases hbounce.1
        · exact UInt64.le_iff_toNat_le.mp hpush
      · rw [(wakeAsked_frame s.1 i.turn i.pacer).2.2, hup] at hflight
        exact absurd rfl hflight
    · show (!_ || (wakeStep s.1 i.turn).1.wake.openedNs == 0) = true
      rw [hopened, wakeAsked_forgets (spellAt_none hnone), beq_self_eq_true, Bool.or_true]
    · show sp.since ≤ (wakeStep s.1 i.turn).1.wake.openedNs
      rw [hopened, wakeAsked_openedNs (spellAt_mem hsp)]
      by_cases hst : s.1.unstamped = true
      · rw [if_pos hst]
        exact (hfound sp hsp).1
      · rw [if_neg hst]
        exact ((hfound sp hsp).2.2 hzero).resolve_left hst

/-! ### What a turn is judged by -/

/-- An edge is this spell's, when the spell began with no transfer completed, or with a box
frame counted. -/
theorem wakeStep_edgeJudged {k : Nat × Nat × Nat} {s : AutodetectCtx × Option Spell}
    {i : EngineTurn} (h : SpellInv k s) (hle : k ≤ i.reading)
    (hbegan : ∀ sp ∈ spellAt s.2 i, sp.sceneComplete = 0 ∨ 0 < sp.rxBoxFrames) :
    EdgeJudged (spellAt s.2 i) i (wakeStep s.1 i.turn).2 := by
  intro o ho
  rcases wakeStep_engine s.1 i with ⟨-, hc⟩ | ⟨-, hnone, -⟩ | ⟨-, -, -, hask⟩
  · rw [hc] at ho
    cases ho
  · rw [hnone] at ho
    cases ho
  have hact := congrArg Prod.snd (Option.some.inj (hask.symm.trans ho))
  obtain ⟨r, hs⟩ | ⟨-, -, -, hs⟩ | ⟨hsil, -, -, hpush, hgrace, -⟩ :=
    reacWakeStep_cases (wakeAsked s.1 i.turn i.pacer).1.wake i.now
      (wakeAsked s.1 i.turn i.pacer).2
  · rw [hs] at hact
    cases hact
  · rw [hs] at hact
    cases hact
  have hprobing : i.pacer.probing = true := hsil.probing
  obtain ⟨sp, hsp⟩ := spellAt_probing s.2 hprobing
  obtain ⟨hsince, hframes, hstamp⟩ := spellAt_found h hle sp hsp
  have hsilent : i.pacer.rxBoxFrames = 0 := hsil.rxBoxFrames
  have hzero : sp.sceneComplete = 0 := by
    refine (hbegan sp hsp).resolve_right fun hpos => ?_
    rw [hsilent] at hframes
    exact absurd (UInt64.lt_of_lt_of_le hpos hframes) (UInt64.lt_irrefl _)
  refine ⟨sp, hsp, ?_, ?_⟩
  · have hthree := UInt64.le_iff_toNat_le.mp hpush
    rw [hzero]
    exact (Nat.zero_add _).trans_le hthree
  · -- the stamp is this turn's, too young for the grace, or no older than the spell
    rw [wakeAsked_openedNs hprobing] at hgrace
    have hpos : 0 < reacWakeGraceNs := by decide
    have hturn : i.turn.now = i.now := rfl
    by_cases hst : s.1.unstamped = true
    · rw [if_pos hst] at hgrace
      omega
    · rw [if_neg hst] at hgrace
      have holder : sp.since ≤ s.1.wake.openedNs := (hstamp hzero).resolve_left hst
      omega

/-- A box that is talking was heard in this spell, when the spell began with no box frame
counted. -/
theorem wakeStep_talkJudged {s : AutodetectCtx × Option Spell} {i : EngineTurn}
    (hbegan : ∀ sp ∈ spellAt s.2 i, sp.rxBoxFrames = 0) :
    TalkJudged (spellAt s.2 i) i (wakeStep s.1 i.turn).1 (wakeStep s.1 i.turn).2 := by
  intro o ho href
  rcases wakeStep_engine s.1 i with ⟨-, hc⟩ | ⟨-, hnone, -⟩ | ⟨-, -, hc, -⟩
  · rw [hc] at ho
    cases ho
  · rw [hnone] at ho
    cases ho
  rw [hc, wakeCarryOut_refusal] at href
  obtain ⟨hprobing, -, hrx⟩ := reacWakeStep_boxIsTalking href
  obtain ⟨sp, hsp⟩ := spellAt_probing s.2 hprobing
  refine ⟨sp, hsp, ?_⟩
  rw [hbegan sp hsp]
  exact hrx

/-! ### Runs -/

/-- The pacer's counters only ever grow. -/
def CountersGrow (run : List EngineTurn) : Prop :=
  run.Pairwise fun a b => a.pacer.rxBoxFrames ≤ b.pacer.rxBoxFrames ∧
    a.pacer.sceneComplete ≤ b.pacer.sceneComplete ∧ a.pacer.txFrames ≤ b.pacer.txFrames

instance (run : List EngineTurn) : Decidable (CountersGrow run) :=
  inferInstanceAs (Decidable (List.Pairwise _ _))

/-- A clock that does not go back and counters that grow are one order on the turns. -/
theorem readings_ordered {t₀ : Nat} {run : List EngineTurn}
    (hclock : StepMachine.Clocked EngineTurn.now t₀ run) (hgrow : CountersGrow run) :
    ((t₀, 0, 0) :: run.map EngineTurn.reading).Pairwise (· ≤ ·) := by
  obtain ⟨hfirst, htimes⟩ := List.pairwise_cons.mp hclock
  refine List.pairwise_cons.mpr ⟨fun k hk => ?_, ?_⟩
  · obtain ⟨t, ht, rfl⟩ := List.mem_map.mp hk
    exact ⟨hfirst _ (List.mem_map_of_mem ht), Nat.zero_le _, Nat.zero_le _⟩
  · refine List.pairwise_map.mpr (((List.pairwise_map.mp htimes).and hgrow).imp fun hab => ?_)
    exact ⟨hab.1, UInt64.le_iff_toNat_le.mp hab.2.1, UInt64.le_iff_toNat_le.mp hab.2.2.1⟩

theorem spellInv_fresh (ifname : String) (k : Nat × Nat × Nat) :
    SpellInv k (.fresh true ifname, none) :=
  ⟨fun _ => rfl, fun hup => absurd rfl hup, fun _ => Or.inl rfl, (by intro sp hsp; cases hsp),
    (by intro sp hsp; cases hsp)⟩

/-- **The ladder judges the current spell**, on the last turn of every run: its edges when
the spell began with no transfer completed or a box frame counted, and what it says of a box
that talks when the spell began with none. -/
theorem wake_judges_current_spell (ifname : String) (t₀ : Nat) (run : List EngineTurn)
    (i : EngineTurn) (hclock : StepMachine.Clocked EngineTurn.now t₀ (run ++ [i]))
    (hgrow : CountersGrow (run ++ [i])) :
    let before := spellMachine.after (.fresh true ifname, none) run
    let sp := spellAt before.2 i
    let turn := wakeStep before.1 i.turn
    ((∀ b ∈ sp, b.sceneComplete = 0 ∨ 0 < b.rxBoxFrames) → EdgeJudged sp i turn.2) ∧
      ((∀ b ∈ sp, b.rxBoxFrames = 0) → TalkJudged sp i turn.1 turn.2) := by
  obtain ⟨k, hle, hinv⟩ := spellMachine.invariant_before wakeStep_spellInv i run (t₀, 0, 0)
    (.fresh true ifname, none) (spellInv_fresh ifname _) (readings_ordered hclock hgrow)
  exact ⟨wakeStep_edgeJudged hinv hle, wakeStep_talkJudged⟩

def engineTurn (now : Nat) (probing : Bool) (rx scene tx : UInt64) : EngineTurn :=
  { now := now, pacer := ⟨probing, rx, scene, tx⟩, carrier := .up, siblingsServed := false,
    ownerRead := .bare, downOk := true, upOk := true }

/-- A second spell with nothing heard in it nor before it is bounced after its own pushes
and its own grace. -/
theorem wake_judges_a_second_spell :
    let run := [engineTurn 1000000000 true 0 0 1600, engineTurn 40000000000 false 0 0 313600,
      engineTurn 60000000000 true 0 0 473600]
    let last := engineTurn 73000000000 true 0 4 577600
    let before := spellMachine.after (.fresh true "eth0", none) run
    let sp := spellAt before.2 last
    let turn := wakeStep before.1 last.turn
    sp = some ⟨60000000000, 0, 0⟩ ∧
      turn.2.asked = some (⟨true, .up, 0, 4, false, false, 104000⟩, .bounce) ∧
      EdgeJudged sp last turn.2 ∧ TalkJudged sp last turn.1 turn.2 :=
  ⟨by decide, by decide,
    (wake_judges_current_spell "eth0" 0 _ _ (by decide) (by decide)).1 (by decide),
    (wake_judges_current_spell "eth0" 0 _ _ (by decide) (by decide)).2 (by decide)⟩

/-- Five minutes into the second spell of a box that enrolled after 500 frames and dropped,
nothing was heard in the spell and the step says a box is talking.  And the three pushes of
a first spell that nobody answered make an edge in the second, which completed none. -/
theorem wake_blames_an_old_spell :
    (let run := [engineTurn 1000000000 true 0 0 1600, engineTurn 4000000000 false 500 1 25600,
        engineTurn 60000000000 true 500 1 480000]
      let last := engineTurn 360000000000 true 500 110 2880000
      let before := spellMachine.after (.fresh true "eth0", none) run
      let turn := wakeStep before.1 last.turn
      StepMachine.Clocked EngineTurn.now 0 (run ++ [last]) ∧ CountersGrow (run ++ [last]) ∧
        spellAt before.2 last = some ⟨60000000000, 500, 1⟩ ∧
        ¬ TalkJudged (spellAt before.2 last) last turn.1 turn.2) ∧
    (let run := [engineTurn 1000000000 true 0 0 1600, engineTurn 40000000000 false 0 3 313600,
        engineTurn 60000000000 true 0 3 473600]
      let last := engineTurn 73000000000 true 0 3 577600
      let before := spellMachine.after (.fresh true "eth0", none) run
      let turn := wakeStep before.1 last.turn
      StepMachine.Clocked EngineTurn.now 0 (run ++ [last]) ∧ CountersGrow (run ++ [last]) ∧
        spellAt before.2 last = some ⟨60000000000, 0, 3⟩ ∧
        ¬ EdgeJudged (spellAt before.2 last) last turn.2) := by
  refine ⟨⟨by decide, by decide, by decide, fun h => ?_⟩,
    ⟨by decide, by decide, by decide, fun h => ?_⟩⟩
  · obtain ⟨sp, hsp, hlt⟩ := h ⟨true, .up, 500, 110, false, false, 2400000⟩ (by decide) (by decide)
    cases hsp
    exact absurd hlt (by decide)
  · obtain ⟨sp, hsp, hle, -⟩ := h ⟨true, .up, 0, 3, false, false, 104000⟩ (by decide)
    cases hsp
    exact absurd hle (by decide)

end ReacPw
