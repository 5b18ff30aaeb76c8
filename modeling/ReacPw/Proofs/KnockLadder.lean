/-
When the knock's ladder gives every spell its grace.

The ladder is kept by the name of the interface and outlives the sniffers on it.  It
knows a new spell by the wire's counters alone: another spell number, or fewer pushes or
frames than it remembers.  The counters of a fresh sniffer start at zero, so they tell
it from the last one only if they have not caught up with what is remembered by the time
the ladder is asked.

Beside the ladder stand the sniffers, one after the other, with a spell's pushes counted
from its start, and what a spectator saw: when the ladder was first asked in the current
spell, and how many frames had been heard by then.  The differences the ladder takes and
its count of edges are good whether or not it knows the sniffer; the grace and the pushes
are the spell's when it does.
-/
import Mathlib.Algebra.Group.Nat.Defs
import ReacPw.Lib.Run
import ReacPw.Proofs.WakeSpell

namespace ReacPw

/-! ### The sniffers of one interface -/

/-- The counters of a sniffer and its wire, which start from zero. -/
structure SniffCounts where
  frames : UInt64 := 0
  pushes : UInt64 := 0
  knocks : UInt32 := 0
  /-- The pushes there were when the current spell opened. -/
  spellPushes : UInt64 := 0
  deriving DecidableEq, Repr

/-- What a spectator saw as the ladder was first asked in a spell. -/
structure SpellSeen where
  since : Nat
  frames : UInt64
  deriving DecidableEq, Repr

/-- A ladder and the sniffer it is asked about. -/
structure LadderWatch where
  kl : ReacKnockLadder
  counts : SniffCounts := {}
  /-- The ladder was asked about this sniffer. -/
  asked : Bool := false
  seen : Option SpellSeen := none
  deriving DecidableEq, Repr

/-- A turn of the ladder: the clock, and what the counters do not say. -/
structure LadderAsk where
  now : Nat
  spellSent : UInt64
  carrier : LinkCarrier
  siblingsServed : Bool
  owner : LinkOwner
  deriving DecidableEq, Repr

inductive LadderEvent where
  /-- A fresh sniffer takes the interface. -/
  | sniffer
  /-- The licence buys a spell. -/
  | spell
  /-- A whole transfer left. -/
  | push
  /-- A frame was heard. -/
  | frame
  | ask (a : LadderAsk)
  /-- The refusal is said in the journal. -/
  | say
  deriving DecidableEq, Repr

def LadderWatch.fresh : LadderWatch := { kl := (KnockLadder.blank "").kl }

/-- The sniffer as the ladder is shown it. -/
def LadderWatch.sniff (s : LadderWatch) (a : LadderAsk) : KnockSniff :=
  { name := "", frames := s.counts.frames, pushes := s.counts.pushes, knocks := s.counts.knocks,
    spellSent := a.spellSent, carrier := a.carrier, siblingsServed := a.siblingsServed,
    owner := a.owner, downOk := true }

/-- The first turn in the current spell, this one if there was none. -/
def LadderWatch.seenAt (s : LadderWatch) (a : LadderAsk) : SpellSeen :=
  s.seen.getD { since := a.now, frames := s.counts.frames }

def ladderEvent (s : LadderWatch) : LadderEvent → LadderWatch × Option WakeAct
  | .sniffer => ({ s with counts := {}, asked := false, seen := none }, none)
  | .spell =>
      ({ s with
          counts := { s.counts with
            knocks := s.counts.knocks + 1, spellPushes := s.counts.pushes }
          seen := none }, none)
  | .push => ({ s with counts := { s.counts with pushes := s.counts.pushes + 1 } }, none)
  | .frame => ({ s with counts := { s.counts with frames := s.counts.frames + 1 } }, none)
  | .ask a =>
      let r := reacKnockLadderStep s.kl (s.sniff a) a.now
      ({ s with kl := r.1, asked := true, seen := some (s.seenAt a) }, some r.2.2)
  | .say => ({ s with kl := { s.kl with wake := (reacWakeRefusalToSay s.kl.wake).1 } }, none)

def ladderMachine : StepMachine LadderWatch LadderEvent (Option WakeAct) := ⟨ladderEvent⟩

/-- What one event owes: no edge is forgotten; the ladder's differences do not wrap; and an edge
has the grace and the pushes of the current spell behind it, and no frame since it was first
seen. -/
structure GraceGiven (s : LadderWatch) (e : LadderEvent) : Prop where
  edges : s.kl.wake.bounces ≤ (ladderEvent s e).1.kl.wake.bounces
  counts : ∀ a, e = .ask a →
    (knockLadderOpened s.kl (s.sniff a) a.now).frames0 ≤ s.counts.frames ∧
      (knockLadderOpened s.kl (s.sniff a) a.now).pushes0 ≤ s.counts.pushes
  bounce : ∀ a, e = .ask a → (ladderEvent s e).2 = some .bounce →
    (s.seenAt a).since + reacWakeGraceNs ≤ a.now ∧
      s.counts.spellPushes.toNat + reacWakeMinPushes.toNat ≤ s.counts.pushes.toNat ∧
      (s.seenAt a).frames = s.counts.frames

/-- The counters tell a spell from the one that is remembered. -/
def tellsApart (kl : ReacKnockLadder) (c : SniffCounts) : Prop :=
  c.knocks ≠ kl.knocksSeen ∨ c.pushes < kl.pushesLast ∨ c.frames < kl.frames0

instance (kl : ReacKnockLadder) (c : SniffCounts) : Decidable (tellsApart kl c) :=
  inferInstanceAs (Decidable (_ ∨ _ ∨ _))

/-- No counter runs over, no turn is at 0, and a new sniffer is told from what the ladder
remembers on the first turn about it. -/
def SnifferTold (s : LadderWatch) : LadderEvent → Prop
  | .spell => s.counts.knocks.toNat + 1 < 2 ^ 32
  | .push => s.counts.pushes.toNat + 1 < 2 ^ 64
  | .frame => s.counts.frames.toNat + 1 < 2 ^ 64
  | .ask a =>
      0 < a.now ∧ (s.asked = false → s.kl.wake.openedNs ≠ 0 → tellsApart s.kl s.counts)
  | .sniffer | .say => True

instance (s : LadderWatch) : ∀ e, Decidable (SnifferTold s e)
  | .spell => inferInstanceAs (Decidable (_ < _))
  | .push => inferInstanceAs (Decidable (_ < _))
  | .frame => inferInstanceAs (Decidable (_ < _))
  | .ask _ => inferInstanceAs (Decidable (_ ∧ (_ → _ → _)))
  | .sniffer => inferInstanceAs (Decidable True)
  | .say => inferInstanceAs (Decidable True)

/-! ### What the ladder remembers -/

/-- What the ladder remembers of the sniffer it was asked about, and of the spell a spectator
saw it first asked in. -/
structure LadderKnows (s : LadderWatch) : Prop where
  unopened : s.kl.wake.openedNs = 0 → s.kl.wake.bounces = 0
  spell : s.counts.spellPushes ≤ s.counts.pushes
  asked : s.asked = true → s.kl.wake.openedNs ≠ 0 ∧ s.kl.pushes0 ≤ s.kl.pushesLast ∧
    s.kl.pushesLast ≤ s.counts.pushes ∧ s.kl.frames0 ≤ s.counts.frames ∧
    (s.kl.knocksSeen = s.counts.knocks ∧ s.seen.isSome ∨ s.kl.knocksSeen < s.counts.knocks)
  seen : ∀ p ∈ s.seen, s.asked = true ∧ s.kl.wake.openedNs = p.since ∧
    s.kl.knocksSeen = s.counts.knocks ∧ s.kl.frames0 = p.frames ∧
    s.counts.spellPushes ≤ s.kl.pushes0

/-- The ladder as a turn asks it: it knows the spell, and its edges are the ones it had. -/
structure SpellKnown (s : LadderWatch) (a : LadderAsk) (kl : ReacKnockLadder) : Prop where
  since : kl.wake.openedNs = (s.seenAt a).since
  frames : kl.frames0 = (s.seenAt a).frames
  knocks : kl.knocksSeen = s.counts.knocks
  pushes : s.counts.spellPushes ≤ kl.pushes0 ∧ kl.pushes0 ≤ s.counts.pushes
  heard : kl.frames0 ≤ s.counts.frames
  last : kl.pushesLast = s.counts.pushes
  bounces : kl.wake.bounces = s.kl.wake.bounces
  opened : kl.wake.openedNs ≠ 0

/-- **A turn finds the ladder knowing the spell.** -/
theorem LadderKnows.opened {s : LadderWatch} (h : LadderKnows s) {a : LadderAsk}
    (hg : SnifferTold s (.ask a)) : SpellKnown s a (knockLadderOpened s.kl (s.sniff a) a.now) := by
  obtain ⟨hnow, htold⟩ := hg
  have hne : a.now ≠ 0 := Nat.pos_iff_ne_zero.mp hnow
  by_cases hopen : s.kl.wake.openedNs = 0
  · -- the ladder's first turn
    have hseen : s.seen = none := by
      cases hp : s.seen with
      | none => rfl
      | some p => exact absurd hopen (h.asked (h.seen p hp).1).1
    have hat : s.seenAt a = { since := a.now, frames := s.counts.frames } := by
      rw [LadderWatch.seenAt, hseen]
      rfl
    unfold knockLadderOpened
    simp only [hopen, if_true]
    exact ⟨by rw [hat]; rfl, by rw [hat]; rfl, rfl, ⟨h.spell, UInt64.le_refl _⟩,
      UInt64.le_refl _, rfl, (h.unopened hopen).symm, hne⟩
  by_cases hfresh : tellsApart s.kl s.counts
  · -- another spell, or another sniffer
    have hseen : s.seen = none := by
      cases hp : s.seen with
      | none => rfl
      | some p =>
          obtain ⟨hasked, _, hknocks, _, _⟩ := h.seen p hp
          obtain ⟨_, _, hpushes, hframes, _⟩ := h.asked hasked
          rcases hfresh with hk | hp | hf
          · exact absurd hknocks.symm hk
          · exact absurd hp (UInt64.not_lt.mpr hpushes)
          · exact absurd hf (UInt64.not_lt.mpr hframes)
    have hat : s.seenAt a = { since := a.now, frames := s.counts.frames } := by
      rw [LadderWatch.seenAt, hseen]
      rfl
    have htest : (s.sniff a).knocks ≠ s.kl.knocksSeen ∨ (s.sniff a).pushes < s.kl.pushesLast ∨
        (s.sniff a).frames < s.kl.frames0 := hfresh
    unfold knockLadderOpened
    simp only [hopen, if_false, htest, if_true]
    exact ⟨by rw [hat]; rfl, by rw [hat]; rfl, rfl, ⟨h.spell, UInt64.le_refl _⟩,
      UInt64.le_refl _, rfl, rfl, hne⟩
  · -- the spell it was asked in before
    have hasked : s.asked = true := by
      by_contra hno
      exact hfresh (htold (by simpa using hno) hopen)
    obtain ⟨_, hle0, hpushes, hframes, hspell⟩ := h.asked hasked
    have hsame : s.kl.knocksSeen = s.counts.knocks := by
      by_contra hno
      exact hfresh (Or.inl fun heq => hno heq.symm)
    obtain ⟨p, hp⟩ : ∃ p, s.seen = some p := by
      rcases hspell with ⟨_, hsome⟩ | hlt
      · exact Option.isSome_iff_exists.mp hsome
      · rw [hsame] at hlt
        exact absurd hlt (UInt32.lt_irrefl _)
    obtain ⟨_, hsince, _, hfr, hsp⟩ := h.seen p hp
    have hat : s.seenAt a = p := by
      rw [LadderWatch.seenAt, hp]
      rfl
    have htest : ¬((s.sniff a).knocks ≠ s.kl.knocksSeen ∨
        (s.sniff a).pushes < s.kl.pushesLast ∨ (s.sniff a).frames < s.kl.frames0) := hfresh
    unfold knockLadderOpened
    simp only [hopen, if_false, htest]
    exact ⟨by rw [hat]; exact hsince, by rw [hat]; exact hfr, hsame,
      ⟨hsp, UInt64.le_trans hle0 hpushes⟩, hframes, rfl, rfl, hopen⟩

/-- The step's own fields. -/
theorem reacKnockLadderStep_kept (kl : ReacKnockLadder) (sn : KnockSniff) (now : Nat) :
    let k := knockLadderOpened kl sn now
    let r := (reacKnockLadderStep kl sn now).1
    r.frames0 = k.frames0 ∧ r.pushes0 = k.pushes0 ∧ r.pushesLast = k.pushesLast ∧
      r.knocksSeen = k.knocksSeen ∧ r.wake.openedNs = k.wake.openedNs ∧
      k.wake.bounces ≤ r.wake.bounces := by
  refine ⟨rfl, rfl, rfl, rfl, reacWakeStep_openedNs _ _ _, ?_⟩
  obtain ⟨r, hs⟩ | ⟨-, -, -, hs⟩ | ⟨-, -, -, -, -, hs⟩ := reacWakeStep_cases
    (knockLadderOpened kl sn now).wake now (knockLadderObs (knockLadderOpened kl sn now) sn)
  · simp only [reacKnockLadderStep, hs]
    exact Nat.le_refl _
  · simp only [reacKnockLadderStep, hs]
    exact Nat.le_refl _
  · simp only [reacKnockLadderStep, hs]
    exact Nat.le_succ _

/-! ### One event -/

theorem counter_le_succ {a b : UInt64} (h : a ≤ b) (hroom : b.toNat + 1 < 2 ^ 64) :
    a ≤ b + 1 := by
  rw [UInt64.le_iff_toNat_le] at h ⊢
  rw [UInt64.toNat_add, UInt64.toNat_one, Nat.mod_eq_of_lt hroom]
  omega

theorem LadderKnows.ask {s : LadderWatch} (h : LadderKnows s) {a : LadderAsk}
    (hg : SnifferTold s (.ask a)) : LadderKnows (ladderEvent s (.ask a)).1 := by
  have hk := h.opened hg
  obtain ⟨hframes, hpushes, hlast, hknocks, hopened, -⟩ :=
    reacKnockLadderStep_kept s.kl (s.sniff a) a.now
  have hne : (ladderEvent s (.ask a)).1.kl.wake.openedNs ≠ 0 := by
    intro hzero
    exact hk.opened (hopened.symm.trans hzero)
  constructor
  · intro hzero
    exact absurd hzero hne
  · exact h.spell
  · intro _
    refine ⟨hne, ?_, ?_, ?_, Or.inl ⟨hknocks.trans hk.knocks, rfl⟩⟩
    · show (reacKnockLadderStep s.kl (s.sniff a) a.now).1.pushes0 ≤ _
      rw [hpushes]
      show _ ≤ (reacKnockLadderStep s.kl (s.sniff a) a.now).1.pushesLast
      rw [hlast, hk.last]
      exact hk.pushes.2
    · show (reacKnockLadderStep s.kl (s.sniff a) a.now).1.pushesLast ≤ s.counts.pushes
      rw [hlast, hk.last]
      exact UInt64.le_refl _
    · show (reacKnockLadderStep s.kl (s.sniff a) a.now).1.frames0 ≤ s.counts.frames
      rw [hframes]
      exact hk.heard
  · intro p hp
    obtain rfl : s.seenAt a = p := Option.some.inj hp
    refine ⟨rfl, hopened.trans hk.since, hknocks.trans hk.knocks, hframes.trans hk.frames, ?_⟩
    show s.counts.spellPushes ≤ (reacKnockLadderStep s.kl (s.sniff a) a.now).1.pushes0
    rw [hpushes]
    exact hk.pushes.1

/-- **Every event leaves the ladder knowing what it is asked about.** -/
theorem LadderKnows.event {s : LadderWatch} (h : LadderKnows s) {e : LadderEvent}
    (hg : SnifferTold s e) : LadderKnows (ladderEvent s e).1 := by
  cases e with
  | sniffer =>
      refine ⟨h.unopened, UInt64.le_refl _, ?_, ?_⟩
      · intro hasked
        exact absurd hasked Bool.false_ne_true
      · intro p hp
        exact absurd hp (by simp [ladderEvent])
  | spell =>
      refine ⟨h.unopened, UInt64.le_refl _, ?_, ?_⟩
      · intro hasked
        obtain ⟨hne, hle0, hpushes, hframes, hspell⟩ := h.asked hasked
        refine ⟨hne, hle0, hpushes, hframes, Or.inr ?_⟩
        have hroom : s.counts.knocks.toNat + 1 < 2 ^ 32 := hg
        have hgrow : (s.counts.knocks + 1).toNat = s.counts.knocks.toNat + 1 := by
          rw [UInt32.toNat_add, UInt32.toNat_one, Nat.mod_eq_of_lt hroom]
        show s.kl.knocksSeen < s.counts.knocks + 1
        rw [UInt32.lt_iff_toNat_lt, hgrow]
        rcases hspell with ⟨hsame, _⟩ | hlt
        · rw [hsame]
          exact Nat.lt_succ_self _
        · rw [UInt32.lt_iff_toNat_lt] at hlt
          omega
      · intro p hp
        exact absurd hp (by simp [ladderEvent])
  | push =>
      refine ⟨h.unopened, counter_le_succ h.spell hg, ?_, h.seen⟩
      intro hasked
      obtain ⟨hne, hle0, hpushes, hframes, hspell⟩ := h.asked hasked
      exact ⟨hne, hle0, counter_le_succ hpushes hg, hframes, hspell⟩
  | frame =>
      refine ⟨h.unopened, h.spell, ?_, h.seen⟩
      intro hasked
      obtain ⟨hne, hle0, hpushes, hframes, hspell⟩ := h.asked hasked
      exact ⟨hne, hle0, hpushes, counter_le_succ hframes hg, hspell⟩
  | ask a => exact h.ask hg
  | say =>
      have hopened : (ladderEvent s .say).1.kl.wake.openedNs = s.kl.wake.openedNs :=
        reacWakeRefusalToSay_openedNs _
      refine ⟨?_, h.spell, ?_, ?_⟩
      · intro hzero
        show (reacWakeRefusalToSay s.kl.wake).1.bounces = 0
        rw [reacWakeRefusalToSay_bounces]
        exact h.unopened (hopened.symm.trans hzero)
      · intro hasked
        obtain ⟨hne, hrest⟩ := h.asked hasked
        exact ⟨fun hzero => hne (hopened.symm.trans hzero), hrest⟩
      · intro p hp
        obtain ⟨hasked, hsince, hrest⟩ := h.seen p hp
        exact ⟨hasked, hopened.trans hsince, hrest⟩

/-- **An edge has the spell's grace and pushes behind it.** -/
theorem LadderKnows.bounce {s : LadderWatch} (h : LadderKnows s) {a : LadderAsk}
    (hg : SnifferTold s (.ask a)) (hact : (ladderEvent s (.ask a)).2 = some .bounce) :
    (s.seenAt a).since + reacWakeGraceNs ≤ a.now ∧
      s.counts.spellPushes.toNat + reacWakeMinPushes.toNat ≤ s.counts.pushes.toNat ∧
      (s.seenAt a).frames = s.counts.frames := by
  have hk := h.opened hg
  have hact : (reacWakeStep (knockLadderOpened s.kl (s.sniff a) a.now).wake a.now
      (knockLadderObs (knockLadderOpened s.kl (s.sniff a) a.now) (s.sniff a))).2 = .bounce :=
    Option.some.inj hact
  obtain ⟨r, hs⟩ | ⟨-, -, -, hs⟩ | ⟨hsil, -, -, hpush, hgrace, -⟩ := reacWakeStep_cases
    (knockLadderOpened s.kl (s.sniff a) a.now).wake a.now
    (knockLadderObs (knockLadderOpened s.kl (s.sniff a) a.now) (s.sniff a))
  · rw [hs] at hact
    cases hact
  · rw [hs] at hact
    cases hact
  have hgracePos : 0 < reacWakeGraceNs := by decide
  refine ⟨?_, ?_, ?_⟩
  · rw [← hk.since]
    omega
  · have hpush : reacWakeMinPushes ≤
        s.counts.pushes - (knockLadderOpened s.kl (s.sniff a) a.now).pushes0 := hpush
    obtain ⟨hspell, hle⟩ := hk.pushes
    rw [UInt64.le_iff_toNat_le] at hpush hspell
    rw [UInt64.toNat_sub_of_le _ _ hle] at hpush
    rw [UInt64.le_iff_toNat_le] at hle
    have hmin : 0 < reacWakeMinPushes.toNat := by decide
    omega
  · have hrx : s.counts.frames - (knockLadderOpened s.kl (s.sniff a) a.now).frames0 = 0 :=
      hsil.rxBoxFrames
    have hsame := congrArg UInt64.toNat hrx
    have hheard := hk.heard
    rw [UInt64.toNat_sub_of_le _ _ hheard] at hsame
    rw [UInt64.le_iff_toNat_le] at hheard
    have hzero : (0 : UInt64).toNat = 0 := rfl
    rw [← hk.frames]
    exact UInt64.toNat_inj.mp (by omega)

theorem LadderKnows.given {s : LadderWatch} (h : LadderKnows s) {e : LadderEvent}
    (hg : SnifferTold s e) : GraceGiven s e := by
  cases e with
  | ask a =>
      have hk := h.opened hg
      obtain ⟨-, -, -, -, -, hbounces⟩ := reacKnockLadderStep_kept s.kl (s.sniff a) a.now
      constructor
      · rw [← hk.bounces]
        exact hbounces
      · rintro a' ⟨⟩
        exact ⟨hk.heard, hk.pushes.2⟩
      · rintro a' ⟨⟩ hact
        exact h.bounce hg hact
  | say =>
      refine ⟨?_, ?_, ?_⟩
      · exact Nat.le_of_eq (reacWakeRefusalToSay_bounces s.kl.wake).symm
      · rintro a ⟨⟩
      · rintro a ⟨⟩
  | sniffer =>
      refine ⟨Nat.le_refl _, ?_, ?_⟩
      · rintro a ⟨⟩
      · rintro a ⟨⟩
  | spell =>
      refine ⟨Nat.le_refl _, ?_, ?_⟩
      · rintro a ⟨⟩
      · rintro a ⟨⟩
  | push =>
      refine ⟨Nat.le_refl _, ?_, ?_⟩
      · rintro a ⟨⟩
      · rintro a ⟨⟩
  | frame =>
      refine ⟨Nat.le_refl _, ?_, ?_⟩
      · rintro a ⟨⟩
      · rintro a ⟨⟩

/-! ### Runs -/

theorem ladderKnows_fresh : LadderKnows .fresh := by
  refine ⟨fun _ => rfl, UInt64.le_refl _, ?_, ?_⟩
  · intro hasked
    exact absurd hasked Bool.false_ne_true
  · intro p hp
    exact absurd hp (by simp [LadderWatch.fresh])

/-- **The knock's ladder gives every spell its grace**, at every event of every run of sniffers
that the ladder can tell apart. -/
theorem ladder_gives_grace (run : List LadderEvent) (e : LadderEvent)
    (hguard : ladderMachine.Guarded SnifferTold .fresh (run ++ [e])) :
    GraceGiven (ladderMachine.after .fresh run) e := by
  obtain ⟨hrun, hlast⟩ := (ladderMachine.guarded_concat _ _ run e).mp hguard
  have hknows := ladderMachine.invariant_guarded (I := LadderKnows) (G := SnifferTold)
    (fun _ _ h hg => h.event hg) run .fresh ladderKnows_fresh hrun
  exact hknows.given hlast

/-- A turn on a bare NIC with its carrier up. -/
def askAt (sec : Nat) : LadderEvent :=
  .ask { now := sec * 1000000000, spellSent := 1, carrier := .up, siblingsServed := false,
         owner := .bare }

/-- A sniffer whose spell costs an edge, and a second one whose counters are behind it: fewer
pushes than the ladder saw last. -/
def toldApart : List LadderEvent :=
  [.sniffer, .spell, askAt 1, .push, .push, .push, askAt 14, .sniffer, .spell, askAt 100,
    .push, .push, .push]

/-- The second sniffer's spell has a grace of its own: no edge eleven seconds into it, one after
thirteen. -/
theorem ladder_gives_grace_once :
    ladderMachine.Guarded SnifferTold .fresh (toldApart ++ [askAt 113]) ∧
    (ladderEvent (ladderMachine.after .fresh toldApart) (askAt 111)).2 ≠ some .bounce ∧
    (ladderEvent (ladderMachine.after .fresh toldApart) (askAt 113)).2 = some .bounce ∧
    GraceGiven (ladderMachine.after .fresh toldApart) (askAt 113) := by
  have hguard : ladderMachine.Guarded SnifferTold .fresh (toldApart ++ [askAt 113]) := by decide
  exact ⟨hguard, by decide, by decide, ladder_gives_grace toldApart (askAt 113) hguard⟩

/-- A sniffer seen for a second, and the next one, which knocks for the first time too. -/
def secondSniffer : List LadderEvent :=
  [.sniffer, .spell, askAt 1, .sniffer, .spell, askAt 11, .push, .push, .push]

/-- Three seconds after it was first seen, the second sniffer's spell costs an edge. -/
theorem ladder_robs_grace :
    ¬∀ (run : List LadderEvent) (e : LadderEvent), GraceGiven (ladderMachine.after .fresh run) e := by
  intro hclaim
  have hgiven := hclaim secondSniffer (askAt 14)
  have hgrace := (hgiven.bounce _ rfl (by decide)).1
  exact absurd hgrace (by decide)

end ReacPw
