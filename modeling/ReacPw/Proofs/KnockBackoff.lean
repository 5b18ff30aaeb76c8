/-
When the knock's backoff belongs to its spell.

A spell has a schedule of its own: its first knock opens with the licence, and the next
ones one period after another, the period a cycle that doubles up to the ceiling.  A
frame that ends a silence starts the doubling again: a resting knock opens at the frame,
and a knock that is out is followed by the next one cycle after it opened.  `Backoff` is
that schedule, driven by the licence, the frames and the clock, and by nothing the wire
keeps.

The wire keeps the schedule in its exponent and in whether it rests, and it moves on
only when it is run.  It follows the schedule as long as a spell starts with the exponent
at 0 and the frame that ends a silence finds the wire where the clock is.
-/
import Mathlib.Algebra.Group.Nat.Defs
import ReacPw.Proofs.KnockWire

namespace ReacPw

open Loop

/-! ### The schedule -/

/-- What a spell's schedule is made of: the period after so many unanswered knocks, and how
long after its opening a knock's last slot falls. -/
structure KnockPlan where
  period : Nat → Nat
  last : Nat

/-- Where a spell's schedule stands: the knock that opened last, when the next one does, and
the exponent of the period after that. -/
structure Backoff where
  opened : Nat
  next : Nat
  exponent : Nat
  deriving DecidableEq, Repr

/-- A spell's first knock. -/
def Backoff.start (P : KnockPlan) (t : Nat) : Backoff :=
  { opened := t, next := t + P.period 0, exponent := 1 }

def Backoff.knock (P : KnockPlan) (b : Backoff) : Backoff :=
  { opened := b.next, next := b.next + P.period b.exponent, exponent := b.exponent + 1 }

/-- The doubling starts again at a frame: a knock that is out is followed a cycle after it
opened, a resting one opens now. -/
def Backoff.restart (P : KnockPlan) (b : Backoff) (t : Nat) : Backoff :=
  if t < b.opened + P.last then { b with next := b.opened + P.period 0, exponent := 1 }
  else { b with next := t, exponent := 0 }

/-- The knocks the schedule opens before a time, newest first, on those there were. -/
def openings (P : KnockPlan) (limit : Nat) : Nat → Backoff → List Nat → Backoff × List Nat
  | 0, b, due => (b, due)
  | fuel + 1, b, due =>
      if b.next < limit then openings P limit fuel (b.knock P) (b.next :: due) else (b, due)

def openedBefore (P : KnockPlan) (limit : Nat) (b : Backoff) (due : List Nat) :
    Backoff × List Nat :=
  openings P limit (limit - b.next) b due

/-- Fuel enough is fuel enough. -/
theorem openings_enough {P : KnockPlan} (hpos : ∀ n, 0 < P.period n) (limit fuel : Nat) :
    ∀ (more : Nat) (b : Backoff) (due : List Nat), limit - b.next ≤ fuel →
      limit - b.next ≤ more → openings P limit fuel b due = openings P limit more b due := by
  induction fuel with
  | zero =>
      intro more b due hfuel _
      have hnone : ¬b.next < limit := by omega
      cases more with
      | zero => rfl
      | succ more => rw [openings, openings, if_neg hnone]
  | succ fuel ih =>
      intro more b due hfuel hmore
      by_cases hdue : b.next < limit
      · have hnext : (b.knock P).next = b.next + P.period b.exponent := rfl
        have hgrow := hpos b.exponent
        obtain ⟨more, rfl⟩ : ∃ k, more = k + 1 := ⟨more - 1, by omega⟩
        rw [openings, openings, if_pos hdue, if_pos hdue]
        exact ih more (b.knock P) _ (by omega) (by omega)
      · cases more with
        | zero => rw [openings, openings, if_neg hdue]
        | succ more => rw [openings, openings, if_neg hdue, if_neg hdue]

/-- Nothing is due. -/
theorem openedBefore_none {P : KnockPlan} {limit : Nat} {b : Backoff} (h : limit ≤ b.next)
    (due : List Nat) : openedBefore P limit b due = (b, due) := by
  have hzero : limit - b.next = 0 := by omega
  rw [openedBefore, hzero, openings]

/-- The next knock is due. -/
theorem openedBefore_knock {P : KnockPlan} (hpos : ∀ n, 0 < P.period n) {limit : Nat}
    {b : Backoff} (h : b.next < limit) (due : List Nat) :
    openedBefore P limit b due = openedBefore P limit (b.knock P) (b.next :: due) := by
  have hnext : (b.knock P).next = b.next + P.period b.exponent := rfl
  have hgrow := hpos b.exponent
  obtain ⟨k, hk⟩ : ∃ k, limit - b.next = k + 1 := ⟨limit - b.next - 1, by omega⟩
  rw [openedBefore, openedBefore, hk, openings, if_pos h]
  exact openings_enough hpos limit k _ _ _ (by omega) (Nat.le_refl _)

/-! ### The ledger -/

section
variable {μ κ : Type*} (A : MasterApi μ) (K : LicenceApi κ)

/-- One cycle of a wire's master. -/
def cycleNs (w : ReacKnockWire μ κ) : Nat := knockSlots A w * 1000000000 / w.fps

/-- The plan of a wire: a cycle, doubled once a knock, up to the ceiling. -/
def wirePlan (w : ReacKnockWire μ κ) : KnockPlan where
  period n := min (cycleNs A w * 2 ^ n) reacKnockWirePeriodMaxNs
  last := (knockSlots A w - 1) * 1000000000 / w.fps

/-- The schedules beside a wire: the one of the spell that is on, every opening a schedule had
so far (newest first), and when a frame was heard last. -/
structure BackoffLedger where
  spell : Option Backoff := none
  due : List Nat := []
  heard : Option Nat := none
  deriving DecidableEq, Repr

/-- No frame was heard for as long as the licence asks. -/
def endsSilence (heard : Option Nat) (now : Nat) : Bool :=
  match heard with
  | none => true
  | some t => decide (K.listenNs ≤ now - t)

/-- What the schedule has opened before a time. -/
def BackoffLedger.opens (h : BackoffLedger) (P : KnockPlan) (limit : Nat) : BackoffLedger :=
  match h.spell with
  | none => h
  | some b =>
      { h with
        spell := some (openedBefore P limit b h.due).1
        due := (openedBefore P limit b h.due).2 }

/-- A licence starts a schedule; evidence, a trunk and a fresh wire end it; a frame that ends a
silence starts its doubling again; and time passes. -/
def noteBackoff (isControl : Frame → Bool) (h : BackoffLedger) (l : Option (KnockLife μ κ))
    (c : KnockCall) (_ : Unit) : BackoffLedger :=
  match l with
  | none => h
  | some l =>
      let P := wirePlan A l.wire
      match c with
      | .init _ _ _ => { h with spell := none, heard := none }
      | .step pinned trunkNow now =>
          match (reacKnockWireStep A K l.wire pinned now trunkNow).2 with
          | .knock => { h with spell := some (Backoff.start P now), due := now :: h.due }
          | .trunk => { h with spell := none }
          | _ => h
      | .heard frame evidence now =>
          if l.wire.state = .trunk then h
          else if (reacKnockWireHeard K isControl l.wire now frame evidence).2 = .hush then
            { h with spell := none, heard := some now }
          else if endsSilence K h.heard now then
            let h' := h.opens P now
            { h' with spell := h'.spell.map fun b => b.restart P now, heard := some now }
          else { h with heard := some now }
      | .answerTaken _ => h
      | .setHost _ _ => h
      | .run _ now => h.opens P (now + 1)

/-- When the knocks of a record opened. -/
def openedAt (log : List (KnockEvent μ κ)) : List Nat :=
  log.filterMap fun
    | .opened t => some t
    | .stepped _ => none

/-- The wire and its schedules. -/
def backoffMachine (isControl : Frame → Bool) :
    StepMachine (Option (KnockLife μ κ) × BackoffLedger) KnockCall Unit :=
  (wireMachine A K isControl).withHistory (noteBackoff A K isControl)

/-! ### What keeps the wire to the schedule -/

/-- A cycle at this cadence lasts no longer than the ceiling. -/
def CycleFits (src : List UInt8) (fps : Nat) : Prop :=
  A.cycleLen (A.init (src.take 6) fps) * 1000000000 / fps ≤ reacKnockWirePeriodMaxNs

/-- The wire is where the clock is: resting with the next knock to come, or with the last slot
of its knock to come. -/
def CaughtUp (w : ReacKnockWire μ κ) (now : Nat) : Prop :=
  if w.resting then now ≤ w.nextNs else now < slotNs w (knockSlots A w - 1)

instance (w : ReacKnockWire μ κ) (now : Nat) : Decidable (CaughtUp A w now) := by
  unfold CaughtUp
  exact inferInstance

/-- A spell starts with the exponent at 0; a frame that ends a silence while a knock is on, and
not the knock, finds the wire where the clock is; no frame is heard at 0. -/
def BackoffGuard (isControl : Frame → Bool) :
    Option (KnockLife μ κ) × BackoffLedger → KnockCall → Prop
  | (none, _), _ => True
  | (some _, _), .init src fps _ => Cadence A src fps ∧ CycleFits A src fps
  | (some l, _), .step pinned trunkNow now =>
      (reacKnockWireStep A K l.wire pinned now trunkNow).2 = .knock → l.wire.unanswered = 0
  | (some l, _), .heard frame evidence now =>
      0 < now ∧ (l.wire.state = .knocking →
        (reacKnockWireHeard K isControl l.wire now frame evidence).2 ≠ .hush →
        (l.wire.lastHeardNs = 0 ∨ K.listenNs ≤ now - l.wire.lastHeardNs) →
        CaughtUp A l.wire now)
  | (some _, _), _ => True

/-- Where the wire keeps its schedule, run up to `t` at the latest. -/
structure Agrees (t : Nat) (w : ReacKnockWire μ κ) (b : Backoff) : Prop where
  opened : b.opened = w.t0Ns
  resting : w.resting = true →
    b.next = w.nextNs ∧ b.exponent = w.unanswered ∧ slotNs w (knockSlots A w - 1) ≤ t
  out : w.resting = false →
    b.next = w.t0Ns + (wirePlan A w).period w.unanswered ∧ b.exponent = w.unanswered + 1 ∧
      (0 < w.slot → slotNs w (w.slot - 1) ≤ t)

/-! ### The period -/

theorem doubled_min (n : Nat) : ∀ p, min (doubled n p) reacKnockWirePeriodMaxNs =
    min (p * 2 ^ n) reacKnockWirePeriodMaxNs := by
  induction n with
  | zero =>
      intro p
      rw [doubled, Nat.pow_zero, Nat.mul_one]
  | succ n ih =>
      intro p
      unfold doubled
      by_cases hless : p < reacKnockWirePeriodMaxNs
      · rw [if_pos hless, ih, Nat.mul_assoc, Nat.pow_succ, Nat.mul_comm 2]
      · have hgrow : p * 1 ≤ p * 2 ^ (n + 1) := Nat.mul_le_mul_left p Nat.one_le_two_pow
        rw [if_neg hless]
        omega

variable {A}

theorem period_eq {w : ReacKnockWire μ κ} (hlen : A.cycleLen w.master = knockSlots A w)
    (hslots : 0 < knockSlots A w) (hfps : 0 < w.fps) (n : Nat) :
    reacKnockWirePeriodNs A w n = (wirePlan A w).period n := by
  have hslots' : 0 < A.cycleLen w.master := by omega
  unfold reacKnockWirePeriodNs
  simp only [hlen, hslots, if_true]
  rw [if_neg (by omega), doubled_min]
  rfl

theorem plan_pos {w : ReacKnockWire μ κ} (hcad : w.fps ≤ knockSlots A w * 1000000000)
    (hfps : 0 < w.fps) (n : Nat) : 0 < (wirePlan A w).period n := by
  have hcycle : 0 < cycleNs A w := Nat.div_pos hcad hfps
  have hpow : 0 < 2 ^ n := Nat.two_pow_pos n
  have hprod := Nat.mul_pos hcycle hpow
  show 0 < min (cycleNs A w * 2 ^ n) reacKnockWirePeriodMaxNs
  simp only [reacKnockWirePeriodMaxNs, Nat.lt_min]
  omega

/-- A knock is over when the next one opens. -/
theorem cycle_le_period {w : ReacKnockWire μ κ}
    (hfits : cycleNs A w ≤ reacKnockWirePeriodMaxNs) (n : Nat) :
    cycleNs A w ≤ (wirePlan A w).period n := by
  have hgrow : cycleNs A w * 1 ≤ cycleNs A w * 2 ^ n :=
    Nat.mul_le_mul_left _ Nat.one_le_two_pow
  show cycleNs A w ≤ min (cycleNs A w * 2 ^ n) reacKnockWirePeriodMaxNs
  omega

theorem slotNs_le_period {w : ReacKnockWire μ κ}
    (hfits : cycleNs A w ≤ reacKnockWirePeriodMaxNs) {s : Nat} (hs : s ≤ knockSlots A w) (n : Nat) :
    slotNs w s ≤ w.t0Ns + (wirePlan A w).period n := by
  have hslot := slotNs_mono w hs
  have hcycle := cycle_le_period hfits n
  have hend : slotNs w (knockSlots A w) = w.t0Ns + cycleNs A w := rfl
  omega

end

/-! ### A run -/

section
variable {μ κ : Type*} {A : MasterApi μ}

theorem Agrees.congr {t : Nat} {w w' : ReacKnockWire μ κ} {b : Backoff} (h : Agrees A t w b)
    (ht0 : w'.t0Ns = w.t0Ns) (hrest : w'.resting = w.resting) (hnext : w'.nextNs = w.nextNs)
    (hun : w'.unanswered = w.unanswered) (hslot : w'.slot = w.slot) (hsrc : w'.src = w.src)
    (hfps : w'.fps = w.fps) : Agrees A t w' b := by
  have hslots : knockSlots A w' = knockSlots A w := by
    unfold knockSlots
    rw [hsrc, hfps]
  have hplan : wirePlan A w' = wirePlan A w := by
    unfold wirePlan cycleNs
    rw [hslots, hfps]
  have hns : ∀ s, slotNs w' s = slotNs w s := by
    intro s
    unfold slotNs
    rw [ht0, hfps]
  refine ⟨h.opened.trans ht0.symm, ?_, ?_⟩
  · rw [hrest, hnext, hun, hslots, hns]
    exact h.resting
  · rw [hrest, ht0, hplan, hun, hslot, hns]
    exact h.out

theorem Agrees.later {t t' : Nat} {w : ReacKnockWire μ κ} {b : Backoff} (h : Agrees A t w b)
    (hle : t ≤ t') : Agrees A t' w b := by
  refine ⟨h.opened, ?_, ?_⟩
  · intro hrest
    obtain ⟨hnext, hexp, hlast⟩ := h.resting hrest
    exact ⟨hnext, hexp, by omega⟩
  · intro hout
    obtain ⟨hnext, hexp, hlast⟩ := h.out hout
    exact ⟨hnext, hexp, fun hpos => by have := hlast hpos; omega⟩

/-- A slot moves no schedule. -/
theorem sendSlot_schedule (now : Nat) (send : Nat → Frame → Bool) (r : KnockRun μ κ) :
    (sendSlot A now send r).wire.unanswered = r.wire.unanswered ∧
      (sendSlot A now send r).wire.nextNs = r.wire.nextNs ∧
      (sendSlot A now send r).wire.lastHeardNs = r.wire.lastHeardNs := by
  have hscene : ∀ (w : ReacKnockWire μ κ) emit left,
      (sceneStep A w emit left).unanswered = w.unanswered ∧
        (sceneStep A w emit left).nextNs = w.nextNs ∧
        (sceneStep A w emit left).lastHeardNs = w.lastHeardNs := by
    intro w emit left
    obtain ⟨_, _, _, heq⟩ := sceneStep_eq A w emit left
    rw [heq]
    exact ⟨rfl, rfl, rfl⟩
  unfold sendSlot
  simp only
  split
  · exact ⟨rfl, rfl, rfl⟩
  split
  · exact hscene _ _ _
  split
  · exact hscene _ _ _
  · split
    · exact hscene _ _ _
    · exact hscene _ _ _

/-- A run on the way to `now`: the schedule that the wire keeps still opens what is left. -/
structure RunScheduled (A : MasterApi μ) (base : List (KnockEvent μ κ)) (P : KnockPlan)
    (now heard : Nat) (goal : Backoff × List Nat) (r : KnockRun μ κ) : Prop where
  sound : RunSound A base r
  heard : r.wire.lastHeardNs = heard
  plan : wirePlan A r.wire = P
  fits : cycleNs A r.wire ≤ reacKnockWirePeriodMaxNs
  keeps : ∃ b, Agrees A now r.wire b ∧
    openedBefore P (now + 1) b (openedAt (r.log ++ base)) = goal

variable [LawfulMaster A] {base : List (KnockEvent μ κ)} {P : KnockPlan} {now heard : Nat}
  {goal : Backoff × List Nat} {r : KnockRun μ κ}

theorem RunScheduled.rests (h : RunScheduled A base P now heard goal r)
    (hopen : r.wire.resting = false) (hend : A.cycleLen r.wire.master ≤ r.wire.slot) :
    RunScheduled A base P now heard goal { r with wire := knockRest A r.wire } := by
  obtain ⟨b, hb, hgoal⟩ := h.keeps
  obtain ⟨hnext, hexp, hpassed⟩ := hb.out hopen
  have hlen := h.sound.cycleLen
  have hslots := h.sound.sound.slots_pos
  have hcome := (h.sound.sound.inStep h.sound.knocking).1
  obtain ⟨due, hrest⟩ := knockRest_eq A r.wire
  refine ⟨knockRest_sound A h.sound, ?_, ?_, ?_, b, ⟨?_, ?_, ?_⟩, hgoal⟩
  · rw [hrest]
    exact h.heard
  · rw [hrest]
    exact h.plan
  · rw [hrest]
    exact h.fits
  · rw [hrest]
    exact hb.opened
  · intro _
    have hslot : r.wire.slot = knockSlots A r.wire := by omega
    rw [hrest]
    refine ⟨?_, hexp, ?_⟩
    · rw [hnext, ← period_eq hlen hslots h.sound.sound.fps_pos]
    · have hlast := hpassed (by omega)
      rw [hslot] at hlast
      exact hlast
  · intro hout
    simp [hrest] at hout

theorem RunScheduled.sends (h : RunScheduled A base P now heard goal r)
    (send : Nat → Frame → Bool) (hopen : r.wire.resting = false)
    (hin : r.wire.slot < A.cycleLen r.wire.master) (hcome : slotNs r.wire r.wire.slot ≤ now) :
    RunScheduled A base P now heard goal (sendSlot A now send r) := by
  obtain ⟨b, hb, hgoal⟩ := h.keeps
  obtain ⟨hnext, hexp, _⟩ := hb.out hopen
  rw [h.sound.cycleLen] at hin
  obtain ⟨ht, handed, left, hlog, _⟩ := sendSlot_taken A now send r
  obtain ⟨hun, _, hheard⟩ := sendSlot_schedule (A := A) now send r
  have hslotsSame : knockSlots A (sendSlot A now send r).wire = knockSlots A r.wire := by
    unfold knockSlots
    rw [ht.src, ht.fps]
  have hplan : wirePlan A (sendSlot A now send r).wire = wirePlan A r.wire := by
    unfold wirePlan cycleNs
    rw [hslotsSame, ht.fps]
  refine ⟨sendSlot_sound A send h.sound hopen hin hcome, hheard.trans h.heard,
    hplan.trans h.plan, ?_, b, ⟨?_, ?_, ?_⟩, ?_⟩
  · unfold cycleNs
    rw [hslotsSame, ht.fps]
    exact h.fits
  · rw [ht.t0Ns]
    exact hb.opened
  · intro hrest
    rw [ht.resting, hopen] at hrest
    exact absurd hrest Bool.false_ne_true
  · intro _
    rw [ht.t0Ns, hplan, hun, ht.slot]
    refine ⟨hnext, hexp, fun _ => ?_⟩
    have hns : slotNs (sendSlot A now send r).wire (r.wire.slot + 1 - 1) =
        slotNs r.wire r.wire.slot := by
      unfold slotNs
      rw [ht.t0Ns, ht.fps, Nat.add_sub_cancel]
    show slotNs (sendSlot A now send r).wire (r.wire.slot + 1 - 1) ≤ now
    omega
  · rw [hlog]
    exact hgoal

omit [LawfulMaster A] in
/-- A rest that is over opens the knock that is due. -/
theorem RunScheduled.opens (h : RunScheduled A base P now heard goal r)
    (hrest : r.wire.resting = true) (hdue : r.wire.nextNs ≤ now) :
    RunScheduled A base P now heard goal (restOver A r) := by
  obtain ⟨due, hopen⟩ := knockOpen_eq A r.wire r.wire.nextNs
  obtain ⟨b, hb, hgoal⟩ := h.keeps
  obtain ⟨hnext, hexp, _⟩ := hb.resting hrest
  refine ⟨restOver_sound A h.sound, ?_, ?_, ?_, b.knock P, ⟨?_, ?_, ?_⟩, ?_⟩
  · rw [restOver, hopen]
    exact h.heard
  · rw [restOver, hopen]
    exact h.plan
  · rw [restOver, hopen]
    exact h.fits
  · rw [restOver, hopen]
    exact hnext
  · intro hrest'
    simp [restOver, hopen] at hrest'
  · intro _
    have hplan : wirePlan A (restOver A r).wire = P := by
      rw [restOver, hopen]
      exact h.plan
    rw [hplan, restOver, hopen]
    refine ⟨?_, ?_, fun hpos => absurd hpos (Nat.lt_irrefl 0)⟩
    · show b.next + P.period b.exponent = r.wire.nextNs + P.period r.wire.unanswered
      rw [hnext, hexp]
    · show b.exponent + 1 = r.wire.unanswered + 1
      rw [hexp]
  · have hpos : ∀ n, 0 < P.period n := by
      rw [← h.plan]
      exact plan_pos h.sound.sound.cadence h.sound.sound.fps_pos
    have hdue : b.next < now + 1 := by omega
    have hcons : openedAt ((restOver A r).log ++ base) =
        b.next :: openedAt (r.log ++ base) := by
      rw [hnext]
      rfl
    rw [hcons, ← openedBefore_knock hpos hdue]
    exact hgoal

/-- **A turn of the loop keeps the schedule.** -/
theorem RunScheduled.runTurn (h : RunScheduled A base P now heard goal r)
    (send : Nat → Frame → Bool) : RunScheduled A base P now heard goal (runTurn A now send r).1 :=
  runTurn_keeps A (fun _ hr => hr.rests) (fun _ hr => hr.opens) (fun _ hr => hr.sends send) h

omit [LawfulMaster A] in
/-- Where the loop breaks nothing more is due. -/
theorem RunScheduled.breaks (h : RunScheduled A base P now heard goal r) (hwait : Waits now r.wire) :
    ∃ b, Agrees A now r.wire b ∧ (b, openedAt (r.log ++ base)) = goal := by
  obtain ⟨b, hb, hgoal⟩ := h.keeps
  refine ⟨b, hb, ?_⟩
  rw [openedBefore_none] at hgoal
  · exact hgoal
  · unfold Waits at hwait
    by_cases hrest : r.wire.resting = true
    · rw [if_pos hrest] at hwait
      obtain ⟨hnext, _, _⟩ := hb.resting hrest
      omega
    · rw [if_neg hrest] at hwait
      obtain ⟨hnext, _, _⟩ := hb.out (by simpa using hrest)
      have hcome := (h.sound.sound.inStep h.sound.knocking).1
      have hlast := slotNs_le_period h.fits hcome r.wire.unanswered
      omega

/-! ### A wire's life -/

/-- What holds of a wire and its schedules after every call, the last one at `t`. -/
structure LifeScheduled (A : MasterApi μ) (t : Nat) (l : KnockLife μ κ) (h : BackoffLedger) :
    Prop where
  sound : LifeSound A l
  fits : cycleNs A l.wire ≤ reacKnockWirePeriodMaxNs
  opened : openedAt l.log = h.due
  heard : l.wire.lastHeardNs = h.heard.getD 0
  heard_pos : ∀ t' ∈ h.heard, 0 < t'
  on : l.wire.state = .knocking → ∃ b, h.spell = some b ∧ Agrees A t l.wire b
  off : l.wire.state ≠ .knocking → h.spell = none

/-- **A run opens what the schedule has opened by then.** -/
theorem run_scheduled {t : Nat} {l : KnockLife μ κ} {h : BackoffLedger}
    (hl : LifeScheduled A t l h) (hle : t ≤ now) (send : Nat → Frame → Bool) :
    ∃ r, reacKnockWireRun A (turnsLeft A l.wire now + 1) l.wire now send = some r ∧
      LifeScheduled A now { wire := r.wire, log := r.log ++ l.log }
        (h.opens (wirePlan A l.wire) (now + 1)) := by
  obtain ⟨r, hruns, hsound, _⟩ := run_returns A hl.sound now send
  have hrun := hruns _ (Nat.lt_succ_self _)
  refine ⟨r, hrun, ?_⟩
  by_cases hk : l.wire.state = .knocking
  · have hfps : l.wire.fps ≠ 0 := by
      have := hl.sound.sound.fps_pos
      omega
    rw [reacKnockWireRun, if_neg (by simp [hk, hfps])] at hrun
    obtain ⟨out, hout, rfl⟩ := Option.map_eq_some_iff.mp hrun
    obtain ⟨b, hspell, hb⟩ := hl.on hk
    have hstart : RunScheduled A l.log (wirePlan A l.wire) now l.wire.lastHeardNs
        (openedBefore (wirePlan A l.wire) (now + 1) b h.due) { wire := l.wire } := by
      refine ⟨⟨hk, hl.sound.sound, hl.sound.kept, hl.sound.order, hl.sound.next hk⟩, rfl, rfl,
        hl.fits, b, hb.later hle, ?_⟩
      rw [← hl.opened]
      rfl
    obtain ⟨hend, last, _, hbreak⟩ := loop_exit
      (I := RunScheduled A l.log (wirePlan A l.wire) now l.wire.lastHeardNs
        (openedBefore (wirePlan A l.wire) (now + 1) b h.due))
      (fun _ hr => hr.runTurn send) _ { wire := l.wire } out hstart hout
    obtain ⟨b', hb', hgoal⟩ := hend.breaks (runTurn_breaks A hbreak)
    obtain ⟨due, hpeek⟩ := knockPeek_eq A out.wire
    have hopens : h.opens (wirePlan A l.wire) (now + 1) =
        { h with spell := some b', due := openedAt (out.log ++ l.log) } := by
      rw [BackoffLedger.opens, hspell]
      simp only
      rw [← hgoal]
    rw [hopens]
    refine ⟨hsound, ?_, rfl, ?_, hl.heard_pos, ?_, ?_⟩
    · rw [hpeek]
      exact hend.fits
    · rw [hpeek]
      exact hend.heard.trans hl.heard
    · intro _
      refine ⟨b', rfl, ?_⟩
      apply hb'.congr <;> simp [hpeek]
    · intro hstop
      rw [hpeek] at hstop
      exact absurd hend.sound.knocking hstop
  · rw [reacKnockWireRun, if_pos (Or.inl hk)] at hrun
    obtain rfl : _ = r := Option.some.inj hrun
    have hnone := hl.off hk
    rw [BackoffLedger.opens, hnone]
    exact ⟨hsound, hl.fits, hl.opened, hl.heard, hl.heard_pos, fun hk' => absurd hk' hk,
      fun _ => hnone⟩

end

/-! ### The other calls -/

section
variable {μ κ : Type*} {A : MasterApi μ} {K : LicenceApi κ}

/-- What a call leaves of a schedule, when it opens no knock. -/
structure SamePlan (w w' : ReacKnockWire μ κ) : Prop where
  src : w'.src = w.src
  fps : w'.fps = w.fps
  t0Ns : w'.t0Ns = w.t0Ns
  resting : w'.resting = w.resting
  slot : w'.slot = w.slot

theorem SamePlan.refl (w : ReacKnockWire μ κ) : SamePlan w w := ⟨rfl, rfl, rfl, rfl, rfl⟩

theorem SamePlan.trans {w w' w'' : ReacKnockWire μ κ} (h : SamePlan w w')
    (h' : SamePlan w' w'') : SamePlan w w'' :=
  ⟨h'.src.trans h.src, h'.fps.trans h.fps, h'.t0Ns.trans h.t0Ns, h'.resting.trans h.resting,
    h'.slot.trans h.slot⟩

theorem SamePlan.cycleNs {w w' : ReacKnockWire μ κ} (h : SamePlan w w') :
    cycleNs A w' = cycleNs A w := by
  unfold ReacPw.cycleNs knockSlots
  rw [h.src, h.fps]

/-- A poll knocks, finds a trunk, or moves no knock that is out. -/
theorem step_schedule (w : ReacKnockWire μ κ) (pinned : Bool) (now : Nat) (trunkNow : Bool) :
    let r := reacKnockWireStep A K w pinned now trunkNow
    (r.2 = .knock ∧ ∃ w', r.1 = knockOpen A w' now ∧ SamePlan w w' ∧
        w'.unanswered = w.unanswered ∧ w'.lastHeardNs = w.lastHeardNs ∧ w'.state = .knocking) ∨
      (r.2 = .trunk ∧ r.1.state = .trunk ∧ SamePlan w r.1 ∧
        r.1.lastHeardNs = w.lastHeardNs) ∨
      (r.2 ≠ .knock ∧ r.2 ≠ .trunk ∧ SamePlan w r.1 ∧ r.1.lastHeardNs = w.lastHeardNs ∧
        (r.1 = w ∨ w.state ≠ .knocking ∧ r.1.state ≠ .knocking)) := by
  simp only
  unfold reacKnockWireStep
  split
  · split
    · exact Or.inr (Or.inr ⟨by simp, by simp, SamePlan.refl w, rfl, Or.inl rfl⟩)
    · exact Or.inr (Or.inl ⟨rfl, rfl, ⟨rfl, rfl, rfl, rfl, rfl⟩, rfl⟩)
  split
  · rename_i htrunk
    refine Or.inr (Or.inr ⟨by simp, by simp, ⟨rfl, rfl, rfl, rfl, rfl⟩, rfl, Or.inr ⟨?_, ?_⟩⟩)
    · simp [htrunk]
    · simp [backoffReset]
  split
  · exact Or.inr (Or.inr ⟨by simp, by simp, SamePlan.refl w, rfl, Or.inl rfl⟩)
  split
  · exact Or.inr (Or.inr ⟨by simp, by simp, SamePlan.refl w, rfl, Or.inl rfl⟩)
  rename_i hquiet
  simp only
  split
  · refine Or.inl ⟨rfl, _, rfl, ?_, ?_, ?_, ?_⟩
    · exact ⟨rfl, rfl, rfl, rfl, rfl⟩
    · rfl
    · rfl
    · rfl
  · refine Or.inr (Or.inr ⟨by simp, by simp, ⟨rfl, rfl, rfl, rfl, rfl⟩, rfl, Or.inr ⟨?_, ?_⟩⟩)
    · exact hquiet
    · exact hquiet

/-- A frame that ends a silence sets the exponent to 0, and ends a rest. -/
structure SilenceEnded (now : Nat) (w w' : ReacKnockWire μ κ) : Prop where
  unanswered : w'.unanswered = 0
  nextNs : w.state = .knocking → w.resting = true → w'.nextNs = now

theorem heardSilence_schedule (w : ReacKnockWire μ κ) (now : Nat) :
    let v := heardSilence K w now
    SamePlan w v ∧ v.state = w.state ∧ v.lastHeardNs = now ∧
      ((w.lastHeardNs = 0 ∨ K.listenNs ≤ now - w.lastHeardNs) → SilenceEnded now w v) ∧
      (¬(w.lastHeardNs = 0 ∨ K.listenNs ≤ now - w.lastHeardNs) →
        v.unanswered = w.unanswered ∧ v.nextNs = w.nextNs) := by
  simp only
  unfold heardSilence
  simp only
  split
  · rename_i hafter
    split
    · exact ⟨⟨rfl, rfl, rfl, rfl, rfl⟩, rfl, rfl, fun _ => ⟨rfl, fun _ _ => rfl⟩,
        fun hno => absurd hafter hno⟩
    · rename_i hrest
      exact ⟨⟨rfl, rfl, rfl, rfl, rfl⟩, rfl, rfl,
        fun _ => ⟨rfl, fun hk hr => absurd ⟨hk, hr⟩ hrest⟩, fun hno => absurd hafter hno⟩
  · rename_i hafter
    exact ⟨⟨rfl, rfl, rfl, rfl, rfl⟩, rfl, rfl, fun hyes => absurd hyes hafter,
      fun _ => ⟨rfl, rfl⟩⟩

/-- The evidence and the keeping of a frame touch no schedule. -/
theorem heardEvidence_schedule (isControl : Frame → Bool) (v : ReacKnockWire μ κ)
    (frame : Option Frame) (evidence : Bool) :
    let act := (heardEvidence v frame evidence).2
    let v' := heardKeep isControl (heardEvidence v frame evidence).1 frame
    SamePlan v v' ∧ v'.lastHeardNs = v.lastHeardNs ∧ v'.unanswered = v.unanswered ∧
      v'.nextNs = v.nextNs ∧ (act = .hush → v'.state = .answered) ∧
      (act ≠ .hush → v'.state = v.state) := by
  have hkeep : ∀ v : ReacKnockWire μ κ, ∃ answer,
      heardKeep isControl v frame = { v with answer := answer } := by
    intro v
    unfold heardKeep
    split
    · exact ⟨_, rfl⟩
    · split
      · exact ⟨_, rfl⟩
      · exact ⟨_, rfl⟩
  simp only
  obtain ⟨answer, heq⟩ := hkeep (heardEvidence v frame evidence).1
  rw [heq]
  unfold heardEvidence
  split
  · exact ⟨⟨rfl, rfl, rfl, rfl, rfl⟩, rfl, rfl, rfl, fun _ => rfl, fun hno => absurd rfl hno⟩
  · exact ⟨⟨rfl, rfl, rfl, rfl, rfl⟩, rfl, rfl, rfl, fun hyes => by simp at hyes,
      fun _ => rfl⟩

/-- **What a frame does to the schedule.** -/
theorem heard_schedule (isControl : Frame → Bool) {w : ReacKnockWire μ κ} (now : Nat)
    (frame : Option Frame) (evidence : Bool) (htrunk : w.state ≠ .trunk) :
    let r := reacKnockWireHeard K isControl w now frame evidence
    SamePlan w r.1 ∧ r.1.lastHeardNs = now ∧ (r.2 = .hush → r.1.state = .answered) ∧
      (r.2 ≠ .hush → r.1.state = w.state) ∧
      ((w.lastHeardNs = 0 ∨ K.listenNs ≤ now - w.lastHeardNs) → SilenceEnded now w r.1) ∧
      (¬(w.lastHeardNs = 0 ∨ K.listenNs ≤ now - w.lastHeardNs) →
        r.1.unanswered = w.unanswered ∧ r.1.nextNs = w.nextNs) := by
  simp only
  rw [reacKnockWireHeard, if_neg htrunk]
  obtain ⟨hsame, hstate, hheard, hended, hgoes⟩ := heardSilence_schedule (K := K) w now
  obtain ⟨v, hv⟩ : ∃ v, v = { heardSilence K w now with
    licence := K.heard (heardSilence K w now).licence now } := ⟨_, rfl⟩
  have hplan : SamePlan w v := by
    rw [hv]
    exact ⟨hsame.src, hsame.fps, hsame.t0Ns, hsame.resting, hsame.slot⟩
  obtain ⟨hsame', hheard', hun, hnext, hhush, hstay⟩ :=
    heardEvidence_schedule isControl v frame evidence
  simp only
  rw [← hv]
  refine ⟨hplan.trans hsame', ?_, hhush, ?_, ?_, ?_⟩
  · rw [hheard', hv]
    exact hheard
  · intro hno
    rw [hstay hno, hv]
    exact hstate
  · intro hyes
    obtain ⟨hzero, hnow⟩ := hended hyes
    refine ⟨?_, ?_⟩
    · rw [hun, hv]
      exact hzero
    · intro hk hr
      rw [hnext, hv]
      exact hnow hk hr
  · intro hno
    obtain ⟨hun', hnext'⟩ := hgoes hno
    rw [hun, hnext, hv]
    exact ⟨hun', hnext'⟩

variable {t now : Nat} {l : KnockLife μ κ} {h : BackoffLedger}

/-- The wire's 0 for "never" is never a frame's. -/
theorem LifeScheduled.silence (hl : LifeScheduled A t l h) (now : Nat) :
    endsSilence K h.heard now = true ↔
      (l.wire.lastHeardNs = 0 ∨ K.listenNs ≤ now - l.wire.lastHeardNs) := by
  have hheard := hl.heard
  unfold endsSilence
  cases hlast : h.heard with
  | none =>
      rw [hlast] at hheard
      simp [hheard]
  | some t' =>
      have hpos := hl.heard_pos t' hlast
      rw [hlast] at hheard
      have hne : l.wire.lastHeardNs ≠ 0 := by
        rw [hheard]
        exact Nat.pos_iff_ne_zero.mp hpos
      simp [hheard, Nat.pos_iff_ne_zero.mp hpos]

/-- **A frame that ends a silence finds a wire where the clock is**: nothing is due, and the
wire starts its doubling again where the schedule does. -/
theorem Agrees.restart {w w' : ReacKnockWire μ κ} {b : Backoff} (h : Agrees A t w b)
    (hfits : cycleNs A w ≤ reacKnockWirePeriodMaxNs) (hk : w.state = .knocking) (hle : t ≤ now)
    (hcaught : CaughtUp A w now) (hsame : SamePlan w w') (hended : SilenceEnded now w w') :
    now ≤ b.next ∧ Agrees A now w' (b.restart (wirePlan A w) now) := by
  have hslots : knockSlots A w' = knockSlots A w := by
    unfold knockSlots
    rw [hsame.src, hsame.fps]
  have hplan : wirePlan A w' = wirePlan A w := by
    unfold wirePlan cycleNs
    rw [hslots, hsame.fps]
  have hns : ∀ s, slotNs w' s = slotNs w s := by
    intro s
    unfold slotNs
    rw [hsame.t0Ns, hsame.fps]
  have hlastSlot : slotNs w (knockSlots A w - 1) = b.opened + (wirePlan A w).last := by
    rw [h.opened]
    rfl
  unfold CaughtUp at hcaught
  by_cases hrest : w.resting = true
  · rw [if_pos hrest] at hcaught
    obtain ⟨hnext, _, hlast⟩ := h.resting hrest
    have hover : ¬now < b.opened + (wirePlan A w).last := by omega
    rw [Backoff.restart, if_neg hover]
    refine ⟨by omega, h.opened.trans hsame.t0Ns.symm, ?_, ?_⟩
    · intro _
      rw [hslots, hns]
      exact ⟨(hended.nextNs hk hrest).symm, hended.unanswered.symm, by omega⟩
    · intro hout
      rw [hsame.resting, hrest] at hout
      exact absurd hout (by simp)
  · have hout : w.resting = false := by simpa using hrest
    rw [if_neg hrest] at hcaught
    obtain ⟨hnext, _, hpassed⟩ := h.out hout
    have hlast := slotNs_le_period hfits (Nat.sub_le (knockSlots A w) 1) w.unanswered
    have hstill : now < b.opened + (wirePlan A w).last := by omega
    rw [Backoff.restart, if_pos hstill]
    refine ⟨by omega, h.opened.trans hsame.t0Ns.symm, ?_, ?_⟩
    · intro hrest'
      rw [hsame.resting, hout] at hrest'
      exact absurd hrest' Bool.false_ne_true
    · intro _
      rw [hplan, hsame.t0Ns, hended.unanswered, hsame.slot, hns]
      refine ⟨?_, rfl, fun hpos => ?_⟩
      · show b.opened + (wirePlan A w).period 0 = _
        rw [h.opened]
      · have := hpassed hpos
        omega

/-- A call that leaves the schedule alone. -/
theorem LifeScheduled.same (hl : LifeScheduled A t l h) (hle : t ≤ now) {w : ReacKnockWire μ κ}
    (hsound : LifeSound A { l with wire := w }) (hsame : SamePlan l.wire w)
    (hheard : w.lastHeardNs = l.wire.lastHeardNs)
    (hknock : w.state = .knocking → l.wire.state = .knocking ∧
      w.unanswered = l.wire.unanswered ∧ w.nextNs = l.wire.nextNs)
    (hstop : w.state ≠ .knocking → l.wire.state ≠ .knocking) :
    LifeScheduled A now { l with wire := w } h := by
  refine ⟨hsound, ?_, hl.opened, hheard.trans hl.heard, hl.heard_pos, ?_, ?_⟩
  · rw [hsame.cycleNs]
    exact hl.fits
  · intro hk
    obtain ⟨hk', hun, hnext⟩ := hknock hk
    obtain ⟨b, hspell, hb⟩ := hl.on hk'
    exact ⟨b, hspell, (hb.later hle).congr hsame.t0Ns hsame.resting hnext hun hsame.slot hsame.src
      hsame.fps⟩
  · intro hno
    exact hl.off (hstop hno)

variable [LawfulMaster A]

theorem step_scheduled (isControl : Frame → Bool) (hl : LifeScheduled A t l h) (hle : t ≤ now)
    (pinned trunkNow : Bool)
    (hfresh : (reacKnockWireStep A K l.wire pinned now trunkNow).2 = .knock →
      l.wire.unanswered = 0) :
    ∃ l', knockCall A K isControl l (.step pinned trunkNow now) = some l' ∧
      LifeScheduled A now l'
        (noteBackoff A K isControl h (some l) (.step pinned trunkNow now) ()) := by
  obtain ⟨l', hcall, hsound⟩ := knockCall_sound A K isControl (.step pinned trunkNow now)
    hl.sound True.intro
  refine ⟨l', hcall, ?_⟩
  obtain rfl : _ = l' := Option.some.inj hcall
  unfold noteBackoff
  simp only
  rcases step_schedule (A := A) (K := K) l.wire pinned now trunkNow with
    ⟨hact, w', hopen, hsame, hun, hheard, hk⟩ | ⟨hact, hstate, hsame, hheard⟩ |
      ⟨hknock, htrunk, hsame, hheard, hmoved⟩
  · rw [hact, hopen] at hsound ⊢
    obtain ⟨due, heq⟩ := knockOpen_eq A w' now
    have hzero : w'.unanswered = 0 := hun.trans (hfresh hact)
    have hplan : wirePlan A (knockOpen A w' now) = wirePlan A l.wire := by
      rw [heq]
      unfold wirePlan cycleNs knockSlots
      simp only [hsame.src, hsame.fps]
    refine ⟨hsound, ?_, ?_, ?_, hl.heard_pos, ?_, ?_⟩
    · rw [heq]
      exact Nat.le_trans (Nat.le_of_eq hsame.cycleNs) hl.fits
    · show now :: openedAt l.log = now :: h.due
      rw [hl.opened]
    · rw [heq]
      exact hheard.trans hl.heard
    · intro _
      refine ⟨_, rfl, ?_, ?_, ?_⟩
      · rw [heq]
        rfl
      · intro hrest
        simp [heq] at hrest
      · intro _
        rw [hplan, heq]
        refine ⟨?_, ?_, fun hpos => absurd hpos (Nat.lt_irrefl 0)⟩
        · show now + (wirePlan A l.wire).period 0 = now + (wirePlan A l.wire).period w'.unanswered
          rw [hzero]
        · show 1 = w'.unanswered + 1
          rw [hzero]
    · intro hno
      rw [heq] at hno
      exact absurd hk hno
  · rw [hact] at hsound ⊢
    refine ⟨hsound, ?_, hl.opened, hheard.trans hl.heard, hl.heard_pos, ?_, fun _ => rfl⟩
    · exact Nat.le_trans (Nat.le_of_eq hsame.cycleNs) hl.fits
    · intro hk
      rw [hstate] at hk
      exact absurd hk (by simp)
  · have hnote : (match (reacKnockWireStep A K l.wire pinned now trunkNow).2 with
        | .knock => { h with
            spell := some (Backoff.start (wirePlan A l.wire) now), due := now :: h.due }
        | .trunk => { h with spell := none }
        | _ => h : BackoffLedger) = h := by
      split
      · rename_i hc
        exact absurd hc hknock
      · rename_i hc
        exact absurd hc htrunk
      · rfl
    rw [hnote]
    rw [stepEvents, if_neg hknock] at hsound ⊢
    refine hl.same hle hsound hsame hheard ?_ ?_
    · intro hk
      rcases hmoved with hsame | ⟨_, hno⟩
      · rw [hsame] at hk ⊢
        exact ⟨hk, rfl, rfl⟩
      · exact absurd hk hno
    · intro hno
      rcases hmoved with hsame | ⟨hno', _⟩
      · rw [hsame] at hno
        exact hno
      · exact hno'

theorem heard_scheduled (isControl : Frame → Bool) (hl : LifeScheduled A t l h) (hle : t ≤ now)
    (frame : Option Frame) (evidence : Bool)
    (hguard : BackoffGuard A K isControl (some l, h) (.heard frame evidence now)) :
    ∃ l', knockCall A K isControl l (.heard frame evidence now) = some l' ∧
      LifeScheduled A now l'
        (noteBackoff A K isControl h (some l) (.heard frame evidence now) ()) := by
  obtain ⟨l', hcall, hsound⟩ := knockCall_sound A K isControl (.heard frame evidence now)
    hl.sound True.intro
  refine ⟨l', hcall, ?_⟩
  obtain rfl : _ = l' := Option.some.inj hcall
  obtain ⟨hpos, hcaught⟩ := hguard
  unfold noteBackoff
  simp only
  by_cases htrunk : l.wire.state = .trunk
  · have hsame : reacKnockWireHeard K isControl l.wire now frame evidence = (l.wire, .none) := by
      rw [reacKnockWireHeard, if_pos htrunk]
    rw [hsame] at hsound
    rw [if_pos htrunk, hsame]
    exact hl.same hle hsound (SamePlan.refl _) rfl (fun hk => ⟨hk, rfl, rfl⟩) id
  obtain ⟨hsame, hheard, hhush, hstay, hended, hgoes⟩ :=
    heard_schedule (K := K) isControl now frame evidence htrunk
  have hfits : cycleNs A (reacKnockWireHeard K isControl l.wire now frame evidence).1 ≤
      reacKnockWirePeriodMaxNs := Nat.le_trans (Nat.le_of_eq hsame.cycleNs) hl.fits
  have hnewpos : ∀ t' ∈ some now, 0 < t' := by
    intro t' ht'
    obtain rfl := Option.some.inj ht'
    exact hpos
  rw [if_neg htrunk]
  by_cases hact : (reacKnockWireHeard K isControl l.wire now frame evidence).2 = .hush
  · rw [if_pos hact]
    refine ⟨hsound, hfits, hl.opened, hheard, hnewpos, ?_, fun _ => rfl⟩
    intro hk
    have hans := hhush hact
    rw [hans] at hk
    exact absurd hk (by simp)
  have hstate := hstay hact
  rw [if_neg hact]
  by_cases hsilent : endsSilence K h.heard now = true
  · have hafter := (hl.silence now).mp hsilent
    rw [if_pos hsilent]
    by_cases hk : l.wire.state = .knocking
    · obtain ⟨b, hspell, hb⟩ := hl.on hk
      obtain ⟨hnext, hb'⟩ := hb.restart hl.fits hk hle (hcaught hk hact hafter) hsame
        (hended hafter)
      have hopens : h.opens (wirePlan A l.wire) now = { h with spell := some b } := by
        rw [BackoffLedger.opens, hspell]
        simp only
        rw [openedBefore_none hnext]
      rw [hopens]
      refine ⟨hsound, hfits, hl.opened, hheard, hnewpos, fun _ => ⟨_, rfl, hb'⟩, ?_⟩
      intro hno
      exact absurd (hstate.trans hk) hno
    · have hnone := hl.off hk
      have hopens : h.opens (wirePlan A l.wire) now = h := by
        rw [BackoffLedger.opens, hnone]
      rw [hopens]
      refine ⟨hsound, hfits, hl.opened, hheard, hnewpos, ?_, ?_⟩
      · intro hk'
        exact absurd (hstate.symm.trans hk') hk
      · intro _
        show h.spell.map _ = none
        rw [hnone]
        rfl
  · rw [if_neg hsilent]
    obtain ⟨hun, hnext⟩ := hgoes (mt (hl.silence now).mpr hsilent)
    refine ⟨hsound, hfits, hl.opened, hheard, hnewpos, ?_, ?_⟩
    · intro hk
      obtain ⟨b, hspell, hb⟩ := hl.on (hstate.symm.trans hk)
      exact ⟨b, hspell, (hb.later hle).congr hsame.t0Ns hsame.resting hnext hun hsame.slot
        hsame.src hsame.fps⟩
    · intro hno
      exact hl.off (hstate ▸ hno)

/-- **Every call keeps the wire to its schedules.** -/
theorem knockCall_scheduled (isControl : Frame → Bool) {c : KnockCall}
    (hl : LifeScheduled A t l h) (hle : t ≤ c.now)
    (hguard : BackoffGuard A K isControl (some l, h) c) :
    ∃ l', knockCall A K isControl l c = some l' ∧
      LifeScheduled A c.now l' (noteBackoff A K isControl h (some l) c ()) := by
  cases c with
  | init src fps now =>
      obtain ⟨l', hcall, hsound⟩ := knockCall_sound A K isControl (.init src fps now) hl.sound
        hguard.1
      refine ⟨l', hcall, ?_⟩
      obtain rfl : _ = l' := Option.some.inj hcall
      refine ⟨hsound, hguard.2, hl.opened, rfl, ?_, ?_, fun _ => rfl⟩
      · intro t' ht'
        simp [noteBackoff] at ht'
      · intro hk
        simp [reacKnockWireInit] at hk
  | step pinned trunkNow now => exact step_scheduled isControl hl hle pinned trunkNow hguard
  | heard frame evidence now => exact heard_scheduled isControl hl hle frame evidence hguard
  | answerTaken now =>
      obtain ⟨l', hcall, hsound⟩ := knockCall_sound A K isControl (.answerTaken now) hl.sound
        True.intro
      refine ⟨l', hcall, ?_⟩
      obtain rfl : _ = l' := Option.some.inj hcall
      have htaken : SamePlan l.wire (reacKnockWireAnswerTaken l.wire) ∧
          (reacKnockWireAnswerTaken l.wire).lastHeardNs = l.wire.lastHeardNs ∧
          ((reacKnockWireAnswerTaken l.wire).state = .knocking → l.wire.state = .knocking ∧
            (reacKnockWireAnswerTaken l.wire).unanswered = l.wire.unanswered ∧
            (reacKnockWireAnswerTaken l.wire).nextNs = l.wire.nextNs) ∧
          ((reacKnockWireAnswerTaken l.wire).state ≠ .knocking → l.wire.state ≠ .knocking) := by
        unfold reacKnockWireAnswerTaken
        split
        · rename_i hans
          exact ⟨⟨rfl, rfl, rfl, rfl, rfl⟩, rfl, by simp, fun _ => by simp [hans]⟩
        · exact ⟨⟨rfl, rfl, rfl, rfl, rfl⟩, rfl, fun hk => ⟨hk, rfl, rfl⟩, id⟩
      exact hl.same hle hsound htaken.1 htaken.2.1 htaken.2.2.1 htaken.2.2.2
  | setHost host now =>
      obtain ⟨l', hcall, hsound⟩ := knockCall_sound A K isControl (.setHost host now) hl.sound
        True.intro
      refine ⟨l', hcall, ?_⟩
      obtain rfl : _ = l' := Option.some.inj hcall
      exact hl.same hle hsound ⟨rfl, rfl, rfl, rfl, rfl⟩ rfl (fun hk => ⟨hk, rfl, rfl⟩) id
  | run send now =>
      have hle : t ≤ now := hle
      obtain ⟨r, hrun, hlife⟩ := run_scheduled hl hle send
      exact ⟨_, by rw [knockCall, hrun]; rfl, hlife⟩

/-- What a wire and its schedules are at a time: the wire has come back from every call, and
opened its knocks when a schedule did. -/
def Scheduled (A : MasterApi μ) (t : Nat) (s : Option (KnockLife μ κ) × BackoffLedger) : Prop :=
  ∃ l, s.1 = some l ∧ LifeScheduled A t l s.2

/-- **The knock's backoff belongs to its spell.**  Whenever and however often the wire is run,
whatever is heard and whatever earlier spells did: every call comes back, and the knocks that
opened are, one for one and to the nanosecond, those the schedules opened. -/
theorem knocks_on_schedule (isControl : Frame → Bool) (src : List UInt8) (fps t₀ : Nat)
    (calls : List KnockCall) (hcadence : Cadence A src fps) (hfits : CycleFits A src fps)
    (hclock : StepMachine.Clocked KnockCall.now t₀ calls)
    (hguard : (backoffMachine A K isControl).Guarded (BackoffGuard A K isControl)
      (some { wire := reacKnockWireInit A K src fps t₀ }, {}) calls) :
    ∃ l h, (backoffMachine A K isControl).after
        (some { wire := reacKnockWireInit A K src fps t₀ }, {}) calls = (some l, h) ∧
      openedAt l.log = h.due := by
  have hstart : Scheduled A t₀ (some { wire := reacKnockWireInit A K src fps t₀ }, {}) := by
    refine ⟨_, rfl, ⟨init_sound A K hcadence t₀, by simp, True.intro, ?_⟩, hfits, rfl, rfl, ?_, ?_,
      fun _ => rfl⟩
    · intro hk
      simp [reacKnockWireInit] at hk
    · intro t' ht'
      simp at ht'
    · intro hk
      simp [reacKnockWireInit] at hk
  have hrun := (backoffMachine A K isControl).invariant_clocked (I := Scheduled A)
    (G := BackoffGuard A K isControl) (by
      rintro t ⟨o, h⟩ c ⟨l, rfl, hl⟩ hle hg
      obtain ⟨l', hcall, hl'⟩ := knockCall_scheduled isControl hl hle hg
      exact ⟨l', hcall, hl'⟩) calls t₀ _ hstart hclock hguard
  obtain ⟨l, hl, hscheduled⟩ := hrun
  refine ⟨l, _, ?_, hscheduled.opened⟩
  rw [← hl]

end

/-! ### Two spells -/

/-- A wire whose cycle is four slots of an eighth of a millisecond. -/
def eighthWire : Option (KnockLife Nat Nat) × BackoffLedger :=
  (some { wire := reacKnockWireInit fourSlotMaster halfSecondLicence [2, 0, 0, 0, 0, 1] 8000 0 },
    {})

def eighthMachine : StepMachine (Option (KnockLife Nat Nat) × BackoffLedger) KnockCall Unit :=
  backoffMachine fourSlotMaster halfSecondLicence (fun _ => true)

def runAt (ms : Nat) : KnockCall := .run (fun _ _ => true) (ms * 1000000)

def heardAt (evidence : Bool) (ms : Nat) : KnockCall := .heard (some [0]) evidence (ms * 1000000)

def pollAt (ms : Nat) : KnockCall := .step false false (ms * 1000000)

/-- A knock that is answered in its first cycle, and a second spell, in which a frame ends the
silence. -/
def answeredThenKnocked : List KnockCall :=
  [pollAt 500, runAt 500, heardAt true 501, .answerTaken 501000000, pollAt 1002, runAt 1003,
    heardAt false 1003, runAt 1010]

/-- A spell that is knocked four times, through a frame, and answered; and the next one. -/
def twoSpells : List KnockCall :=
  [pollAt 500, runAt 502, heardAt false 502, runAt 506, heardAt true 506, .answerTaken 506000000,
    pollAt 1007, runAt 1020]

theorem answeredThenKnocked_guarded : eighthMachine.Guarded
    (BackoffGuard fourSlotMaster halfSecondLicence (fun _ => true)) eighthWire
    answeredThenKnocked := by
  refine ⟨?_, True.intro, ?_, True.intro, ?_, True.intro, ?_, True.intro, True.intro⟩
  · intro _
    rfl
  · refine ⟨by decide, fun _ hno => absurd ?_ hno⟩
    decide +kernel
  · intro _
    decide +kernel
  · refine ⟨by decide, ?_⟩
    decide +kernel

theorem knocks_on_schedule_one :
    Cadence fourSlotMaster [2, 0, 0, 0, 0, 1] 8000 ∧
    CycleFits fourSlotMaster [2, 0, 0, 0, 0, 1] 8000 ∧
    StepMachine.Clocked KnockCall.now 0 answeredThenKnocked ∧
    ∃ l h, eighthMachine.after eighthWire answeredThenKnocked = (some l, h) ∧
      openedAt l.log = h.due ∧
      h.due = [1006500000, 1004500000, 1003500000, 1003000000, 1002500000, 1002000000,
        500000000] := by
  have hcadence : Cadence fourSlotMaster [2, 0, 0, 0, 0, 1] 8000 := by decide
  have hfits : CycleFits fourSlotMaster [2, 0, 0, 0, 0, 1] 8000 := by
    unfold CycleFits
    decide
  have hclock : StepMachine.Clocked KnockCall.now 0 answeredThenKnocked := by decide
  obtain ⟨l, h, hafter, hopened⟩ := knocks_on_schedule (A := fourSlotMaster)
    (K := halfSecondLicence) (fun _ => true) [2, 0, 0, 0, 0, 1] 8000 0 answeredThenKnocked
    hcadence hfits hclock answeredThenKnocked_guarded
  have hdue : (eighthMachine.after eighthWire answeredThenKnocked).2.due =
      [1006500000, 1004500000, 1003500000, 1003000000, 1002500000, 1002000000, 500000000] := by
    decide +kernel
  have hsame : eighthMachine.after eighthWire answeredThenKnocked = (some l, h) := hafter
  rw [hsame] at hdue
  exact ⟨hcadence, hfits, hclock, l, h, hsame, hopened, hdue⟩

/-- The second spell opens its second knock after sixteen cycles. -/
theorem backoff_of_old_spell :
    ¬∀ calls : List KnockCall, StepMachine.Clocked KnockCall.now 0 calls →
      ∃ l h, eighthMachine.after eighthWire calls = (some l, h) ∧ openedAt l.log = h.due := by
  intro hclaim
  obtain ⟨l, h, hafter, hopened⟩ := hclaim twoSpells (by decide)
  have hwrong : (eighthMachine.after eighthWire twoSpells).1.map (fun l => openedAt l.log) ≠
      some (eighthMachine.after eighthWire twoSpells).2.due := by
    decide +kernel
  rw [hafter] at hwrong
  exact hwrong (congrArg some hopened)

end ReacPw
