/-
The knock never streams and never bunches.

Three things must agree about where a knock is: the loop, which steps the real
master; the peek, which steps a copy to say when to come back; and the two entry
points that change the state while the knock is out.  The invariant is `KnockSound`:
while the wire is knocking, its master is the fresh one stepped through exactly
`slot` slots, and `slot` is within the cycle.

The record of the run keeps the wire as each slot came up, so what was handed to
the sender can be asked of it afterwards: in which state, on which slot, how late.

One condition is on the cadence.  A cycle has to last a nanosecond: from
`cycle_len * 10^9 < fps` on, the period of the knock is 0 and the loop opens the
next knock where the last one ended, for ever.
-/
import ReacPw.KnockWire
import Mathlib.Data.List.Induction

namespace ReacPw

open Loop

section
variable {μ κ : Type*} (A : MasterApi μ) (K : LicenceApi κ)

/-! ### The master of a knock -/

/-- The master after so many slots of a knock. -/
def masterAfter (src : List UInt8) (fps : Nat) : Nat → μ
  | 0 => masterAtHeader A src fps
  | n + 1 => (A.next (masterAfter src fps n)).2

/-- What the master emits on a slot of a knock. -/
def slotEmit (src : List UInt8) (fps n : Nat) : MasterEmit :=
  (A.next (masterAfter A src fps n)).1.emit

/-- How many slots a knock of this wire has. -/
def knockSlots (w : ReacKnockWire μ κ) : Nat := A.cycleLen (A.init w.src w.fps)

/-- A cycle at this cadence lasts a nanosecond or more. -/
def Cadence (src : List UInt8) (fps : Nat) : Prop :=
  0 < fps ∧ fps ≤ A.cycleLen (A.init (src.take 6) fps) * 1000000000

instance (src : List UInt8) (fps : Nat) : Decidable (Cadence A src fps) :=
  inferInstanceAs (Decidable (_ ∧ _))

section
variable [LawfulMaster A]

theorem toHeader_cycleLen (n : Nat) : ∀ m, A.cycleLen (toHeader A n m) = A.cycleLen m := by
  induction n with
  | zero => intro m; rfl
  | succ n ih =>
      intro m
      by_cases hat : A.cyclePos m = A.sub01Off m
      · simp [toHeader, hat]
      · simp [toHeader, hat, ih, LawfulMaster.cycleLen_next]

theorem masterAfter_cycleLen (src : List UInt8) (fps n : Nat) :
    A.cycleLen (masterAfter A src fps n) = A.cycleLen (A.init src fps) := by
  induction n with
  | zero => exact toHeader_cycleLen A _ _
  | succ n ih => rw [masterAfter, LawfulMaster.cycleLen_next, ih]

end

/-! ### The invariant -/

/-- Where the knock is, is where its master is. -/
structure KnockSound (w : ReacKnockWire μ κ) : Prop where
  fps_pos : 0 < w.fps
  cadence : w.fps ≤ knockSlots A w * 1000000000
  inStep : w.state = .knocking →
    w.slot ≤ knockSlots A w ∧ w.master = masterAfter A w.src w.fps w.slot

/-- A slot the master was stepped through was one of the knock's, and had come; what was
handed to the sender was not FILLER, and not late. -/
structure SlotKept (s : SlotStep μ κ) : Prop where
  knocking : s.wire.state = .knocking
  inCycle : s.wire.slot < knockSlots A s.wire
  emit : s.emit = slotEmit A s.wire.src s.wire.fps s.wire.slot
  come : slotNs s.wire s.wire.slot ≤ s.now
  handed : s.handed.isSome →
    s.emit ≠ .filler ∧ s.now ≤ slotNs s.wire s.wire.slot + reacKnockWireLateNs

/-- The slot an open knock comes to next, by its record. -/
def nextOpen : List (KnockEvent μ κ) → Option Nat
  | [] => none
  | .opened _ :: _ => some 0
  | .stepped s :: _ => some (s.wire.slot + 1)

/-- Every knock is stepped from slot 0 on, one slot after another (newest first). -/
def InOrder : List (KnockEvent μ κ) → Prop
  | [] => True
  | .opened _ :: older => InOrder older
  | .stepped s :: older => nextOpen older = some s.wire.slot ∧ InOrder older

/-- Two steps with no opening between them are of different slots, the later one higher. -/
def SlotsRise (log : List (KnockEvent μ κ)) : Prop :=
  ∀ newer mid older s s',
    log = newer ++ .stepped s :: (mid ++ .stepped s' :: older) →
    (∀ t, .opened t ∉ mid) → s'.wire.slot < s.wire.slot

/-- The first slot from `slot` on that the knock sends at, or its end; when it rests, the
next opening. -/
def DueNext (w : ReacKnockWire μ κ) : Prop :=
  if w.resting then w.dueNs = w.nextNs
  else
    ∃ s, w.slot ≤ s ∧ s ≤ knockSlots A w ∧ w.dueNs = slotNs w s ∧
      (∀ k, w.slot ≤ k → k < s → slotEmit A w.src w.fps k = .filler) ∧
      (s = knockSlots A w ∨ slotEmit A w.src w.fps s ≠ .filler)

theorem inOrder_append {newer : List (KnockEvent μ κ)} {older : List (KnockEvent μ κ)} :
    InOrder (newer ++ older) → InOrder older := by
  intro h
  induction newer with
  | nil => exact h
  | cons e newer ih =>
      cases e with
      | opened t => exact ih h
      | stepped s => exact ih h.2

/-- Past an opening the next slot is 0; with none between, a step moves it on by one. -/
theorem nextOpen_rises {mid older : List (KnockEvent μ κ)} {s' : SlotStep μ κ}
    (hord : InOrder (mid ++ .stepped s' :: older)) (hopen : ∀ t, .opened t ∉ mid) :
    ∃ n, nextOpen (mid ++ .stepped s' :: older) = some n ∧ s'.wire.slot < n := by
  induction mid with
  | nil => exact ⟨s'.wire.slot + 1, rfl, by omega⟩
  | cons e mid ih =>
      cases e with
      | opened t => exact absurd (by simp) (hopen t)
      | stepped s =>
          obtain ⟨n, hn, hlt⟩ := ih hord.2 (fun t ht => hopen t (by simp [ht]))
          have hs : n = s.wire.slot := by
            have := hn.symm.trans hord.1
            simpa using this
          exact ⟨s.wire.slot + 1, rfl, by omega⟩

theorem InOrder.rise {log : List (KnockEvent μ κ)} (hord : InOrder log) : SlotsRise log := by
  intro newer mid older s s' hlog hopen
  rw [hlog] at hord
  have hhere := inOrder_append hord
  obtain ⟨n, hn, hlt⟩ := nextOpen_rises hhere.2 hopen
  have hslot : n = s.wire.slot := by
    have := hn.symm.trans hhere.1
    simpa using this
  omega

/-! ### What the calls leave alone -/

theorem knockPeek_eq (w : ReacKnockWire μ κ) : ∃ due, knockPeek A w = { w with dueNs := due } := by
  by_cases hrest : w.resting = true
  · exact ⟨_, by rw [knockPeek, if_pos hrest]⟩
  · exact ⟨_, by rw [knockPeek, if_neg hrest]⟩

theorem sceneStep_eq (w : ReacKnockWire μ κ) (emit : MasterEmit) (left : Bool) :
    ∃ pushes headSent chunksSent, sceneStep A w emit left =
      { w with pushes := pushes, headSent := headSent, chunksSent := chunksSent } := by
  unfold sceneStep
  split
  · exact ⟨_, _, _, rfl⟩
  · split
    · exact ⟨_, _, _, rfl⟩
    · split
      · exact ⟨_, _, _, rfl⟩
      · exact ⟨_, _, _, rfl⟩
      · split
        · exact ⟨_, _, _, rfl⟩
        · exact ⟨_, _, _, rfl⟩

/-- A due field is no part of the invariant. -/
theorem KnockSound.peek {w : ReacKnockWire μ κ} (h : KnockSound A w) :
    KnockSound A (knockPeek A w) := by
  obtain ⟨due, hdue⟩ := knockPeek_eq A w
  rw [hdue]
  exact ⟨h.fps_pos, h.cadence, h.inStep⟩

/-- A fresh knock is at slot 0 of a fresh master. -/
theorem knockOpen_sound {w : ReacKnockWire μ κ} (hpos : 0 < w.fps)
    (hcad : w.fps ≤ knockSlots A w * 1000000000) (atNs : Nat) :
    KnockSound A (knockOpen A w atNs) := by
  refine KnockSound.peek A ⟨hpos, hcad, ?_⟩
  intro _
  exact ⟨Nat.zero_le _, rfl⟩

theorem knockOpen_eq (w : ReacKnockWire μ κ) (atNs : Nat) :
    ∃ due, knockOpen A w atNs =
      { w with
        master := masterAtHeader A w.src w.fps, resting := false, t0Ns := atNs, slot := 0,
        headSent := false, chunksSent := 0, cycles := w.cycles + 1, dueNs := due } := by
  obtain ⟨due, hdue⟩ := knockPeek_eq A { w with
    master := masterAtHeader A w.src w.fps, resting := false, t0Ns := atNs, slot := 0,
    headSent := false, chunksSent := 0, cycles := w.cycles + 1 }
  exact ⟨due, hdue⟩

theorem knockRest_eq (w : ReacKnockWire μ κ) :
    ∃ due, knockRest A w =
      { w with
        nextNs := w.t0Ns + reacKnockWirePeriodNs A w w.unanswered
        unanswered := w.unanswered + 1, resting := true, dueNs := due } := by
  obtain ⟨due, hdue⟩ := knockPeek_eq A { w with
    nextNs := w.t0Ns + reacKnockWirePeriodNs A w w.unanswered
    unanswered := w.unanswered + 1, resting := true }
  exact ⟨due, hdue⟩

/-- The wire after one slot: the master and the slot have moved on together. -/
structure SlotTaken (w w' : ReacKnockWire μ κ) : Prop where
  state : w'.state = w.state
  src : w'.src = w.src
  fps : w'.fps = w.fps
  resting : w'.resting = w.resting
  t0Ns : w'.t0Ns = w.t0Ns
  slot : w'.slot = w.slot + 1
  master : w'.master = (A.next w.master).2
  answer : w'.answer = w.answer

theorem SlotTaken.scene {w w' : ReacKnockWire μ κ} (h : SlotTaken A w w') (emit : MasterEmit)
    (left : Bool) : SlotTaken A w (sceneStep A w' emit left) := by
  obtain ⟨_, _, _, heq⟩ := sceneStep_eq A w' emit left
  rw [heq]
  exact ⟨h.state, h.src, h.fps, h.resting, h.t0Ns, h.slot, h.master, h.answer⟩

/-- **What one slot does.**  It is noted, and it is handed only when it is neither FILLER
nor late. -/
theorem sendSlot_taken (now : Nat) (send : Nat → Frame → Bool) (r : KnockRun μ κ) :
    SlotTaken A r.wire (sendSlot A now send r).wire ∧
      ∃ handed left, (sendSlot A now send r).log =
          .stepped { wire := r.wire, now := now, emit := (A.next r.wire.master).1.emit,
                     handed := handed, left := left } :: r.log ∧
        (handed.isSome → (A.next r.wire.master).1.emit ≠ .filler ∧
          now - slotNs r.wire r.wire.slot ≤ reacKnockWireLateNs) := by
  unfold sendSlot
  by_cases hfill : (A.next r.wire.master).1.emit = .filler
  · simp only [hfill, if_pos]
    exact ⟨⟨rfl, rfl, rfl, rfl, rfl, rfl, rfl, rfl⟩, none, false, rfl, by simp⟩
  by_cases hlate : reacKnockWireLateNs < now - slotNs r.wire r.wire.slot
  · simp only [hfill, hlate, if_pos, if_false]
    refine ⟨SlotTaken.scene A ?_ _ _, none, false, rfl, by simp⟩
    exact ⟨rfl, rfl, rfl, rfl, rfl, rfl, rfl, rfl⟩
  simp only [hfill, hlate, if_false]
  have hkept : (A.next r.wire.master).1.emit ≠ .filler ∧
      now - slotNs r.wire r.wire.slot ≤ reacKnockWireLateNs := ⟨hfill, Nat.le_of_not_lt hlate⟩
  split
  · refine ⟨SlotTaken.scene A ?_ _ _, none, false, rfl, by simp⟩
    exact ⟨rfl, rfl, rfl, rfl, rfl, rfl, rfl, rfl⟩
  · rename_i f _
    split
    · refine ⟨SlotTaken.scene A ?_ _ _, some f, _, rfl, fun _ => hkept⟩
      exact ⟨rfl, rfl, rfl, rfl, rfl, rfl, rfl, rfl⟩
    · refine ⟨SlotTaken.scene A ?_ _ _, some f, _, rfl, fun _ => hkept⟩
      exact ⟨rfl, rfl, rfl, rfl, rfl, rfl, rfl, rfl⟩

/-- The scene's accounting comes last in a slot, on a wire whose counters nothing else of the
slot has touched. -/
theorem sendSlot_scene (now : Nat) (send : Nat → Frame → Bool) (r : KnockRun μ κ) :
    ∃ (w : ReacKnockWire μ κ) (s : SlotStep μ κ), w.headSent = r.wire.headSent ∧
      w.chunksSent = r.wire.chunksSent ∧ w.pushes = r.wire.pushes ∧
      (sendSlot A now send r).log = .stepped s :: r.log ∧
      (sendSlot A now send r).wire = sceneStep A w s.emit s.left := by
  unfold sendSlot
  by_cases hfill : (A.next r.wire.master).1.emit = .filler
  · simp only [hfill, if_pos]
    exact ⟨{ r.wire with master := (A.next r.wire.master).2, slot := r.wire.slot + 1 },
      { wire := r.wire, now := now, emit := .filler, handed := none, left := false },
      rfl, rfl, rfl, rfl, by simp [sceneStep, MasterEmit.isScene]⟩
  by_cases hlate : reacKnockWireLateNs < now - slotNs r.wire r.wire.slot
  · simp only [hfill, hlate, if_pos, if_false]
    refine ⟨_, _, ?_, ?_, ?_, rfl, rfl⟩ <;> rfl
  simp only [hfill, hlate, if_false]
  split
  · refine ⟨_, _, ?_, ?_, ?_, rfl, rfl⟩ <;> rfl
  · split
    · refine ⟨_, _, ?_, ?_, ?_, rfl, rfl⟩ <;> rfl
    · refine ⟨_, _, ?_, ?_, ?_, rfl, rfl⟩ <;> rfl

/-! ### One turn of the loop -/

/-- What a rest and a slot that has come and is taken keep, the body past the rest keeps. -/
theorem runSlot_keeps {I : KnockRun μ κ → Prop} {now : Nat} {send : Nat → Frame → Bool}
    (hrests : ∀ r, I r → r.wire.resting = false → A.cycleLen r.wire.master ≤ r.wire.slot →
      I { r with wire := knockRest A r.wire })
    (hsends : ∀ r, I r → r.wire.resting = false → r.wire.slot < A.cycleLen r.wire.master →
      slotNs r.wire r.wire.slot ≤ now → I (sendSlot A now send r))
    {r : KnockRun μ κ} (h : I r) (hopen : r.wire.resting = false) :
    I (runSlot A now send r).1 := by
  unfold runSlot
  by_cases hend : A.cycleLen r.wire.master ≤ r.wire.slot
  · rw [if_pos hend]
    exact hrests r h hopen hend
  by_cases hwait : now < slotNs r.wire r.wire.slot
  · rw [if_neg hend, if_pos hwait]
    exact h
  · rw [if_neg hend, if_neg hwait]
    exact hsends r h hopen (by omega) (by omega)

/-- **What a turn keeps**: what the opening of a knock keeps besides. -/
theorem runTurn_keeps {I : KnockRun μ κ → Prop} {now : Nat} {send : Nat → Frame → Bool}
    (hrests : ∀ r, I r → r.wire.resting = false → A.cycleLen r.wire.master ≤ r.wire.slot →
      I { r with wire := knockRest A r.wire })
    (hopens : ∀ r, I r → r.wire.resting = true → r.wire.nextNs ≤ now → I (restOver A r))
    (hsends : ∀ r, I r → r.wire.resting = false → r.wire.slot < A.cycleLen r.wire.master →
      slotNs r.wire r.wire.slot ≤ now → I (sendSlot A now send r))
    {r : KnockRun μ κ} (h : I r) : I (runTurn A now send r).1 := by
  unfold runTurn
  by_cases hrest : r.wire.resting = true
  · rw [if_pos hrest]
    by_cases hwait : now < r.wire.nextNs
    · rw [if_pos hwait]
      exact h
    · rw [if_neg hwait]
      refine runSlot_keeps A hrests hsends (hopens r h hrest (Nat.not_lt.mp hwait)) ?_
      obtain ⟨due, hopen⟩ := knockOpen_eq A r.wire r.wire.nextNs
      simp [restOver, hopen]
  · rw [if_neg hrest]
    exact runSlot_keeps A hrests hsends h (by simpa using hrest)

/-- A run on the way, over a record that was there before it. -/
structure RunSound (base : List (KnockEvent μ κ)) (r : KnockRun μ κ) : Prop where
  knocking : r.wire.state = .knocking
  sound : KnockSound A r.wire
  kept : ∀ s, .stepped s ∈ r.log ++ base → SlotKept A s
  order : InOrder (r.log ++ base)
  next : r.wire.resting = false → nextOpen (r.log ++ base) = some r.wire.slot

/-- A slot that has come and is taken keeps the run sound. -/
theorem sendSlot_sound {base : List (KnockEvent μ κ)} {r : KnockRun μ κ} {now : Nat}
    (send : Nat → Frame → Bool) (h : RunSound A base r) (hopen : r.wire.resting = false)
    (hin : r.wire.slot < knockSlots A r.wire) (hcome : slotNs r.wire r.wire.slot ≤ now) :
    RunSound A base (sendSlot A now send r) := by
  obtain ⟨ht, handed, left, hlog, hhanded⟩ := sendSlot_taken A now send r
  have hmaster := (h.sound.inStep h.knocking).2
  have hslots : knockSlots A (sendSlot A now send r).wire = knockSlots A r.wire := by
    unfold knockSlots
    rw [ht.src, ht.fps]
  refine ⟨ht.state.trans h.knocking, ⟨?_, ?_, ?_⟩, ?_, ?_, ?_⟩
  · rw [ht.fps]
    exact h.sound.fps_pos
  · rw [ht.fps, hslots]
    exact h.sound.cadence
  · intro _
    refine ⟨by rw [ht.slot, hslots]; omega, ?_⟩
    rw [ht.master, ht.src, ht.fps, ht.slot, hmaster]
    rfl
  · intro s hs
    rw [hlog, List.cons_append] at hs
    rcases List.mem_cons.mp hs with hnew | hold
    · have hs' := KnockEvent.stepped.inj hnew
      subst hs'
      refine ⟨h.knocking, hin, ?_, hcome, ?_⟩
      · show (A.next r.wire.master).1.emit = slotEmit A r.wire.src r.wire.fps r.wire.slot
        rw [slotEmit, ← hmaster]
      · intro hsome
        obtain ⟨hemit, hlate⟩ := hhanded hsome
        exact ⟨hemit, by simp only; omega⟩
    · exact h.kept s hold
  · rw [hlog]
    exact ⟨h.next hopen, h.order⟩
  · intro _
    rw [hlog, ht.slot]
    rfl

/-- The rest after a knock's last slot. -/
theorem knockRest_sound {base : List (KnockEvent μ κ)} {r : KnockRun μ κ}
    (h : RunSound A base r) :
    RunSound A base { r with wire := knockRest A r.wire } := by
  obtain ⟨due, hrest⟩ := knockRest_eq A r.wire
  refine ⟨?_, ?_, h.kept, h.order, ?_⟩
  · simp [hrest, h.knocking]
  · rw [hrest]
    exact ⟨h.sound.fps_pos, h.sound.cadence, h.sound.inStep⟩
  · intro hopen
    simp [hrest] at hopen

theorem restOver_sound {base : List (KnockEvent μ κ)} {r : KnockRun μ κ}
    (h : RunSound A base r) : RunSound A base (restOver A r) := by
  obtain ⟨due, hopen⟩ := knockOpen_eq A r.wire r.wire.nextNs
  refine ⟨?_, knockOpen_sound A h.sound.fps_pos h.sound.cadence _, ?_, h.order, ?_⟩
  · simp [restOver, hopen, h.knocking]
  · intro s hs
    refine h.kept s ?_
    simpa [restOver] using hs
  · intro _
    simp [restOver, hopen, nextOpen]

section
variable [LawfulMaster A]

theorem RunSound.cycleLen {base : List (KnockEvent μ κ)} {r : KnockRun μ κ}
    (h : RunSound A base r) : A.cycleLen r.wire.master = knockSlots A r.wire := by
  rw [(h.sound.inStep h.knocking).2]
  exact masterAfter_cycleLen A _ _ _

theorem KnockSound.slots_pos {w : ReacKnockWire μ κ} (h : KnockSound A w) :
    0 < knockSlots A w :=
  LawfulMaster.cycleLen_init _ _ h.fps_pos

/-- **A turn of the loop keeps the run sound.** -/
theorem runTurn_sound {base : List (KnockEvent μ κ)} {r : KnockRun μ κ} (now : Nat)
    (send : Nat → Frame → Bool) (h : RunSound A base r) :
    RunSound A base (runTurn A now send r).1 := by
  refine runTurn_keeps A (I := RunSound A base) (fun _ hr _ _ => knockRest_sound A hr)
    (fun _ hr _ _ => restOver_sound A hr) ?_ h
  intro r hr hopen hin hcome
  rw [hr.cycleLen] at hin
  exact sendSlot_sound A send hr hopen hin hcome

/-! ### The loop ends -/

theorem le_doubled (n : Nat) : ∀ p, p ≤ doubled n p := by
  induction n with
  | zero => intro p; exact Nat.le_refl p
  | succ n ih =>
      intro p
      unfold doubled
      split
      · have := ih (p * 2)
        omega
      · exact Nat.le_refl p

/-- A knock's period is not empty, so no two open at one time. -/
theorem period_pos {base : List (KnockEvent μ κ)} {r : KnockRun μ κ} (h : RunSound A base r)
    (n : Nat) : 0 < reacKnockWirePeriodNs A r.wire n := by
  have hlen := h.cycleLen
  have hslots := h.sound.slots_pos
  have hcycle : 0 < knockSlots A r.wire * 1000000000 / r.wire.fps :=
    Nat.div_pos h.sound.cadence h.sound.fps_pos
  have hgrow := le_doubled n (knockSlots A r.wire * 1000000000 / r.wire.fps)
  unfold reacKnockWirePeriodNs
  simp only [hlen, hslots, if_pos]
  split
  · simp [reacKnockWirePeriodMaxNs]
  · simp only [reacKnockWirePeriodMaxNs, Nat.lt_min]
    omega

theorem runSlot_lowers {base : List (KnockEvent μ κ)} {r : KnockRun μ κ} {now : Nat}
    {send : Nat → Frame → Bool} (h : RunSound A base r) (hopen : r.wire.resting = false)
    (hgo : (runSlot A now send r).2 = true) :
    turnsLeft A (runSlot A now send r).1.wire now < turnsLeft A r.wire now := by
  have hlen := h.cycleLen
  unfold runSlot at hgo ⊢
  by_cases hend : A.cycleLen r.wire.master ≤ r.wire.slot
  · simp only [if_pos hend]
    obtain ⟨due, hrest⟩ := knockRest_eq A r.wire
    have hperiod := period_pos A h r.wire.unanswered
    have hless : now + 1 - (r.wire.t0Ns + reacKnockWirePeriodNs A r.wire r.wire.unanswered) ≤
        now - r.wire.t0Ns := by omega
    have hmul := Nat.mul_le_mul_right (A.cycleLen r.wire.master + 1) hless
    simp only [turnsLeft, hrest, hopen, if_pos]
    simp only [Bool.false_eq_true, if_false]
    omega
  · rw [if_neg hend] at hgo ⊢
    by_cases hwait : now < slotNs r.wire r.wire.slot
    · simp [if_pos hwait] at hgo
    · rw [if_neg hwait]
      obtain ⟨ht, _⟩ := sendSlot_taken A now send r
      have hsame : A.cycleLen (sendSlot A now send r).wire.master = A.cycleLen r.wire.master := by
        rw [ht.master, LawfulMaster.cycleLen_next]
      simp only [turnsLeft, ht.resting, hopen, hsame, ht.slot, ht.t0Ns]
      simp only [Bool.false_eq_true, if_false]
      omega

/-- **Every turn that goes on leaves fewer turns.** -/
theorem runTurn_lowers {base : List (KnockEvent μ κ)} {r : KnockRun μ κ} {now : Nat}
    {send : Nat → Frame → Bool} (h : RunSound A base r)
    (hgo : (runTurn A now send r).2 = true) :
    turnsLeft A (runTurn A now send r).1.wire now < turnsLeft A r.wire now := by
  unfold runTurn at hgo ⊢
  by_cases hrest : r.wire.resting = true
  · rw [if_pos hrest] at hgo ⊢
    by_cases hwait : now < r.wire.nextNs
    · simp [if_pos hwait] at hgo
    rw [if_neg hwait] at hgo ⊢
    obtain ⟨due, hopen⟩ := knockOpen_eq A r.wire r.wire.nextNs
    have hover := restOver_sound A h
    have hgo' : (runSlot A now send (restOver A r)).2 = true := hgo
    have hless := runSlot_lowers A hover (by simp [restOver, hopen]) hgo'
    have hlen : A.cycleLen (masterAtHeader A r.wire.src r.wire.fps) =
        A.cycleLen r.wire.master := by
      rw [h.cycleLen]
      exact toHeader_cycleLen A _ _
    have hsame : turnsLeft A (restOver A r).wire now = turnsLeft A r.wire now := by
      have hsplit : now + 1 - r.wire.nextNs = now - r.wire.nextNs + 1 := by omega
      simp only [turnsLeft, restOver, hopen, hrest, hlen, if_pos, hsplit]
      simp only [Bool.false_eq_true, if_false]
      rw [Nat.add_mul]
      omega
    omega
  · rw [if_neg hrest] at hgo ⊢
    exact runSlot_lowers A h (by simpa using hrest) hgo

/-- A run of a knocking wire comes back within the turns it has left. -/
theorem runLoop_returns {base : List (KnockEvent μ κ)} {r : KnockRun μ κ} (now : Nat)
    (send : Nat → Frame → Bool) (h : RunSound A base r) :
    ∃ out, loop (runTurn A now send) (turnsLeft A r.wire now + 1) r = some out :=
  loop_returns (I := RunSound A base) (μ := fun r => turnsLeft A r.wire now)
    (fun _ hr => runTurn_sound A now send hr) (fun _ hr hgo => runTurn_lowers A hr hgo) _ r h
    (Nat.lt_succ_self _)

end

/-! ### When to come back -/

theorem slotNs_mono (w : ReacKnockWire μ κ) {a b : Nat} (h : a ≤ b) : slotNs w a ≤ slotNs w b := by
  have hmul : a * 1000000000 ≤ b * 1000000000 := Nat.mul_le_mul_right _ h
  have hdiv := Nat.div_le_div_right (c := w.fps) hmul
  unfold slotNs
  omega

theorem slotNs_dueNs (w : ReacKnockWire μ κ) (due slot : Nat) :
    slotNs { w with dueNs := due } slot = slotNs w slot := by
  simp only [slotNs]

/-- What the loop breaks for: a rest that is not over, or a slot that has not come. -/
def Waits (now : Nat) (w : ReacKnockWire μ κ) : Prop :=
  if w.resting then now < w.nextNs else now < slotNs w w.slot

theorem runSlot_breaks {r out : KnockRun μ κ} {now : Nat} {send : Nat → Frame → Bool}
    (hopen : r.wire.resting = false) (h : runSlot A now send r = (out, false)) :
    Waits now out.wire := by
  unfold runSlot at h
  by_cases hend : A.cycleLen r.wire.master ≤ r.wire.slot
  · simp [if_pos hend] at h
  · rw [if_neg hend] at h
    by_cases hwait : now < slotNs r.wire r.wire.slot
    · have hout : out = r := by simpa [if_pos hwait] using h.symm
      simp only [Waits, hout, hopen]
      simpa using hwait
    · simp [if_neg hwait] at h

theorem runTurn_breaks {r out : KnockRun μ κ} {now : Nat} {send : Nat → Frame → Bool}
    (h : runTurn A now send r = (out, false)) : Waits now out.wire := by
  unfold runTurn at h
  by_cases hrest : r.wire.resting = true
  · rw [if_pos hrest] at h
    by_cases hwait : now < r.wire.nextNs
    · have hout : out = r := by simpa [if_pos hwait] using h.symm
      simpa [Waits, hout, hrest] using hwait
    · rw [if_neg hwait] at h
      obtain ⟨due, hopen⟩ := knockOpen_eq A r.wire r.wire.nextNs
      exact runSlot_breaks A (by simp [restOver, hopen]) h
  · rw [if_neg hrest] at h
    exact runSlot_breaks A (by simpa using hrest) h

/-- The copy is stepped to the first slot that is not FILLER, as the master will be. -/
theorem peekDue_spec {w : ReacKnockWire μ κ} (hlen : A.cycleLen w.master = knockSlots A w) :
    ∀ n s, s + n = knockSlots A w →
      ∃ s', s ≤ s' ∧ s' ≤ knockSlots A w ∧
        peekDue A w n s (masterAfter A w.src w.fps s) = slotNs w s' ∧
        (∀ k, s ≤ k → k < s' → slotEmit A w.src w.fps k = .filler) ∧
        (s' = knockSlots A w ∨ slotEmit A w.src w.fps s' ≠ .filler) := by
  intro n
  induction n with
  | zero =>
      intro s hs
      refine ⟨s, Nat.le_refl s, by omega, ?_, ?_, Or.inl (by omega)⟩
      · simp only [peekDue, hlen]
        rw [← hs, Nat.add_zero]
      · intro k hk hlt
        omega
  | succ n ih =>
      intro s hs
      by_cases hemit : slotEmit A w.src w.fps s = .filler
      · obtain ⟨s', hle, hend, hdue, hfill, hfirst⟩ := ih (s + 1) (by omega)
        refine ⟨s', by omega, hend, ?_, ?_, hfirst⟩
        · have hskip : (A.next (masterAfter A w.src w.fps s)).1.emit = .filler := hemit
          simp only [peekDue, hskip, ne_eq, not_true_eq_false, if_false]
          exact hdue
        · intro k hk hlt
          by_cases hks : k = s
          · rw [hks]
            exact hemit
          · exact hfill k (by omega) hlt
      · refine ⟨s, Nat.le_refl s, by omega, ?_, ?_, Or.inr hemit⟩
        · have hsend : (A.next (masterAfter A w.src w.fps s)).1.emit ≠ .filler := hemit
          simp [peekDue, hsend]
        · intro k hk hlt
          omega

/-- **The due field names the next slot the knock sends at**, and it has not come. -/
theorem knockPeek_due {w : ReacKnockWire μ κ} {now : Nat} (hlen : A.cycleLen w.master = knockSlots A w)
    (hle : w.slot ≤ knockSlots A w) (hmaster : w.master = masterAfter A w.src w.fps w.slot)
    (hwait : Waits now w) : DueNext A (knockPeek A w) ∧ now < (knockPeek A w).dueNs := by
  by_cases hrest : w.resting = true
  · have hpeek : knockPeek A w = { w with dueNs := w.nextNs } := by
      rw [knockPeek, if_pos hrest]
    rw [Waits, if_pos hrest] at hwait
    rw [hpeek, DueNext, if_pos hrest]
    exact ⟨rfl, hwait⟩
  · obtain ⟨s, hge, hend, hdue, hfill, hfirst⟩ :=
      peekDue_spec A hlen (knockSlots A w - w.slot) w.slot (by omega)
    -- the due time stays a name: comparing two wires must not evaluate it
    obtain ⟨due, hname⟩ : ∃ due, due = slotNs w s := ⟨_, rfl⟩
    have hpeek : knockPeek A w = { w with dueNs := due } := by
      rw [knockPeek, if_neg hrest, hlen, hname, ← hdue, ← hmaster]
    rw [Waits, if_neg hrest] at hwait
    have hmono := slotNs_mono w hge
    rw [hpeek, DueNext, if_neg hrest]
    refine ⟨⟨s, hge, hend, ?_, hfill, hfirst⟩, ?_⟩
    · rw [slotNs_dueNs]
      exact hname
    · show now < due
      omega

/-! ### A wire's life -/

/-- What holds of a wire and its record after every call. -/
structure LifeSound (l : KnockLife μ κ) : Prop where
  sound : KnockSound A l.wire
  kept : ∀ s, .stepped s ∈ l.log → SlotKept A s
  order : InOrder l.log
  next : l.wire.state = .knocking → l.wire.resting = false → nextOpen l.log = some l.wire.slot

/-- A call that starts no knock and moves none. -/
structure Unmoved (w w' : ReacKnockWire μ κ) : Prop where
  src : w'.src = w.src
  fps : w'.fps = w.fps
  knock : w'.state = .knocking →
    w.state = .knocking ∧ w'.resting = w.resting ∧ w'.slot = w.slot ∧ w'.master = w.master

theorem LifeSound.unmoved {l : KnockLife μ κ} {w : ReacKnockWire μ κ} (h : LifeSound A l)
    (hw : Unmoved l.wire w) : LifeSound A { l with wire := w } := by
  have hslots : knockSlots A w = knockSlots A l.wire := by
    unfold knockSlots
    rw [hw.src, hw.fps]
  refine ⟨⟨?_, ?_, ?_⟩, h.kept, h.order, ?_⟩
  · rw [hw.fps]
    exact h.sound.fps_pos
  · rw [hw.fps, hslots]
    exact h.sound.cadence
  · intro hk
    obtain ⟨hk', _, hslot, hmaster⟩ := hw.knock hk
    obtain ⟨hle, hm⟩ := h.sound.inStep hk'
    refine ⟨by rw [hslot, hslots]; exact hle, ?_⟩
    rw [hmaster, hw.src, hw.fps, hslot, hm]
  · intro hk hopen
    obtain ⟨hk', hrest, hslot, _⟩ := hw.knock hk
    show nextOpen l.log = some w.slot
    rw [hslot]
    exact h.next hk' (by rw [← hrest]; exact hopen)

/-- A step of the poll knocks, or moves no knock. -/
theorem reacKnockWireStep_cases (w : ReacKnockWire μ κ) (pinned : Bool) (now : Nat)
    (trunkNow : Bool) :
    ((reacKnockWireStep A K w pinned now trunkNow).2 ≠ .knock ∧
        Unmoved w (reacKnockWireStep A K w pinned now trunkNow).1) ∨
      (pinned = false ∧ (reacKnockWireStep A K w pinned now trunkNow).2 = .knock ∧
        ∃ w', w'.src = w.src ∧ w'.fps = w.fps ∧ w'.state = .knocking ∧
          (reacKnockWireStep A K w pinned now trunkNow).1 = knockOpen A w' now) := by
  have hstay : Unmoved w w := ⟨rfl, rfl, fun hk => ⟨hk, rfl, rfl, rfl⟩⟩
  unfold reacKnockWireStep
  by_cases htrunk : trunkNow = true
  · rw [if_pos htrunk]
    refine Or.inl ?_
    by_cases hstate : w.state = .trunk
    · rw [if_pos hstate]
      exact ⟨by simp, hstay⟩
    · rw [if_neg hstate]
      exact ⟨by simp, rfl, rfl, by simp⟩
  rw [if_neg htrunk]
  by_cases hstate : w.state = .trunk
  · rw [if_pos hstate]
    exact Or.inl ⟨by simp, rfl, rfl, by simp [backoffReset]⟩
  rw [if_neg hstate]
  by_cases hpin : pinned = true
  · rw [if_pos hpin]
    exact Or.inl ⟨by simp, hstay⟩
  rw [if_neg hpin]
  by_cases hk : w.state = .knocking
  · rw [if_pos hk]
    exact Or.inl ⟨by simp, hstay⟩
  rw [if_neg hk]
  by_cases hdrive : (K.step w.licence now).2 = true
  · simp only [hdrive, if_pos]
    refine Or.inr ⟨by simpa using hpin, by simp, ?_⟩
    exact ⟨{ w with
      licence := (K.step w.licence now).1, state := .knocking, knocks := w.knocks + 1,
      cycles := 0, spellSent := 0, answer := [] }, rfl, rfl, rfl, rfl⟩
  · simp only [hdrive]
    exact Or.inl ⟨by simp, rfl, rfl, fun hk' => absurd hk' hk⟩

theorem heardSilence_unmoved (w : ReacKnockWire μ κ) (now : Nat) :
    Unmoved w (heardSilence K w now) := by
  unfold heardSilence
  simp only
  split
  · split
    · exact ⟨rfl, rfl, fun hk => ⟨hk, rfl, rfl, rfl⟩⟩
    · exact ⟨rfl, rfl, fun hk => ⟨hk, rfl, rfl, rfl⟩⟩
  · exact ⟨rfl, rfl, fun hk => ⟨hk, rfl, rfl, rfl⟩⟩

theorem Unmoved.trans {w w' w'' : ReacKnockWire μ κ} (h : Unmoved w w') (h' : Unmoved w' w'') :
    Unmoved w w'' := by
  refine ⟨h'.src.trans h.src, h'.fps.trans h.fps, ?_⟩
  intro hk
  obtain ⟨hk', hrest', hslot', hmaster'⟩ := h'.knock hk
  obtain ⟨hk'', hrest, hslot, hmaster⟩ := h.knock hk'
  exact ⟨hk'', hrest'.trans hrest, hslot'.trans hslot, hmaster'.trans hmaster⟩

theorem init_sound {src : List UInt8} {fps : Nat} (h : Cadence A src fps) (now : Nat) :
    KnockSound A (reacKnockWireInit A K src fps now) :=
  ⟨h.1, h.2, fun hk => by simp [reacKnockWireInit] at hk⟩

/-- A frame heard moves no knock; it may end one. -/
theorem reacKnockWireHeard_unmoved (isControl : Frame → Bool) (w : ReacKnockWire μ κ)
    (now : Nat) (frame : Option Frame) (evidence : Bool) :
    Unmoved w (reacKnockWireHeard K isControl w now frame evidence).1 := by
  have hlicence : ∀ (w : ReacKnockWire μ κ) k, Unmoved w { w with licence := k } :=
    fun _ _ => ⟨rfl, rfl, fun hk => ⟨hk, rfl, rfl, rfl⟩⟩
  have hevidence : ∀ w : ReacKnockWire μ κ, Unmoved w (heardEvidence w frame evidence).1 := by
    intro w
    unfold heardEvidence
    split
    · exact ⟨rfl, rfl, by simp⟩
    · exact ⟨rfl, rfl, fun hk => ⟨hk, rfl, rfl, rfl⟩⟩
  have hkeep : ∀ w : ReacKnockWire μ κ, Unmoved w (heardKeep isControl w frame) := by
    intro w
    unfold heardKeep
    split
    · exact ⟨rfl, rfl, fun hk => ⟨hk, rfl, rfl, rfl⟩⟩
    · split
      · exact ⟨rfl, rfl, fun hk => ⟨hk, rfl, rfl, rfl⟩⟩
      · exact ⟨rfl, rfl, fun hk => ⟨hk, rfl, rfl, rfl⟩⟩
  unfold reacKnockWireHeard
  split
  · exact ⟨rfl, rfl, fun hk => ⟨hk, rfl, rfl, rfl⟩⟩
  · exact (heardSilence_unmoved K w now).trans
      ((hlicence _ _).trans ((hevidence _).trans (hkeep _)))

section
variable [LawfulMaster A]

theorem RunSound.due {base : List (KnockEvent μ κ)} {r : KnockRun μ κ} {now : Nat}
    (h : RunSound A base r) (hwait : Waits now r.wire) :
    DueNext A (knockPeek A r.wire) ∧ now < (knockPeek A r.wire).dueNs := by
  obtain ⟨hle, hmaster⟩ := h.sound.inStep h.knocking
  exact knockPeek_due A h.cycleLen hle hmaster hwait

/-- **A run comes back**, sound, and says when it is needed next. -/
theorem run_returns {l : KnockLife μ κ} (h : LifeSound A l) (now : Nat)
    (send : Nat → Frame → Bool) :
    ∃ r, (∀ fuel, turnsLeft A l.wire now < fuel →
        reacKnockWireRun A fuel l.wire now send = some r) ∧
      LifeSound A { wire := r.wire, log := r.log ++ l.log } ∧
      (r.wire.state = .knocking → DueNext A r.wire ∧ now < r.wire.dueNs) := by
  by_cases hquiet : l.wire.state ≠ .knocking ∨ l.wire.fps = 0
  · refine ⟨{ wire := l.wire }, fun _ _ => by rw [reacKnockWireRun, if_pos hquiet], h, ?_⟩
    intro hk
    have hfps := h.sound.fps_pos
    rcases hquiet with hstate | hzero
    · exact absurd hk hstate
    · omega
  · have hk : l.wire.state = .knocking := by
      by_contra hc
      exact hquiet (Or.inl hc)
    have hstart : RunSound A l.log { wire := l.wire } :=
      ⟨hk, h.sound, h.kept, h.order, h.next hk⟩
    obtain ⟨out, hout⟩ := runLoop_returns A now send hstart
    obtain ⟨hsound, last, hlast, hbreak⟩ :=
      loop_exit (fun _ hr => runTurn_sound A now send hr) _ _ _ hstart hout
    have hdue := hsound.due A (runTurn_breaks A hbreak)
    refine ⟨{ out with wire := knockPeek A out.wire }, ?_, ?_, fun _ => hdue⟩
    · intro fuel hfuel
      rw [reacKnockWireRun, if_neg hquiet, loop_more_fuel _ fuel _ _ hfuel hout]
      rfl
    · obtain ⟨due, hpeek⟩ := knockPeek_eq A out.wire
      refine ⟨hsound.sound.peek, hsound.kept, hsound.order, ?_⟩
      intro _ hopen
      have hopen' : out.wire.resting = false := by simpa [hpeek] using hopen
      simpa [hpeek] using hsound.next hopen'

/-- A call of the wire's is one the amended contract speaks of. -/
def KnockCall.Kept : KnockCall → Prop
  | .init src fps _ => Cadence A src fps
  | _ => True

/-- **Every call comes back and keeps the wire sound.** -/
theorem knockCall_sound {l : KnockLife μ κ} (isControl : Frame → Bool) (c : KnockCall)
    (h : LifeSound A l) (hc : c.Kept A) :
    ∃ l', knockCall A K isControl l c = some l' ∧ LifeSound A l' := by
  cases c with
  | init src fps now =>
      refine ⟨_, rfl, init_sound A K hc now, h.kept, h.order, ?_⟩
      intro hk
      simp [reacKnockWireInit] at hk
  | step pinned trunkNow now =>
      refine ⟨_, rfl, ?_⟩
      rcases reacKnockWireStep_cases A K l.wire pinned now trunkNow with
        ⟨hact, hun⟩ | ⟨_, hact, w', hsrc, hfps, _, hopen⟩
      · rw [stepEvents, if_neg hact]
        exact h.unmoved A hun
      · obtain ⟨due, heq⟩ := knockOpen_eq A w' now
        have hslots : knockSlots A w' = knockSlots A l.wire := by
          unfold knockSlots
          rw [hsrc, hfps]
        rw [stepEvents, if_pos hact, hopen]
        refine ⟨knockOpen_sound A ?_ ?_ now, ?_, h.order, ?_⟩
        · rw [hfps]
          exact h.sound.fps_pos
        · rw [hfps, hslots]
          exact h.sound.cadence
        · intro s hs
          exact h.kept s (by simpa using hs)
        · intro _ _
          simp [heq, nextOpen]
  | heard frame evidence now =>
      exact ⟨_, rfl, h.unmoved A (reacKnockWireHeard_unmoved K isControl _ _ _ _)⟩
  | answerTaken now =>
      refine ⟨_, rfl, h.unmoved A ?_⟩
      unfold reacKnockWireAnswerTaken
      split
      · exact ⟨rfl, rfl, by simp⟩
      · exact ⟨rfl, rfl, fun hk => ⟨hk, rfl, rfl, rfl⟩⟩
  | setHost host now =>
      exact ⟨_, rfl, h.unmoved A ⟨rfl, rfl, fun hk => ⟨hk, rfl, rfl, rfl⟩⟩⟩
  | run send now =>
      obtain ⟨r, hrun, hlife, _⟩ := run_returns A h now send
      exact ⟨_, by simp [knockCall, hrun _ (Nat.lt_succ_self _)], hlife⟩

/-- The calls of a life, one after another. -/
theorem wireMachine_sound (isControl : Frame → Bool) (calls : List KnockCall) :
    ∀ l : KnockLife μ κ, LifeSound A l → (∀ c ∈ calls, c.Kept A) →
      ∃ l', (wireMachine A K isControl).after (some l) calls = some l' ∧ LifeSound A l' := by
  induction calls with
  | nil => intro l h _; exact ⟨l, rfl, h⟩
  | cons c calls ih =>
      intro l h hc
      obtain ⟨l', hcall, h'⟩ := knockCall_sound A K isControl c h (hc c (by simp))
      obtain ⟨out, hout, hsound⟩ := ih l' h' (fun c hmem => hc c (by simp [hmem]))
      refine ⟨out, ?_, hsound⟩
      simpa [wireMachine, hcall] using hout

end

/-! ### Whose spell it is -/

/-- A run leaves the state as it is, and notes nothing on a wire that is not knocking. -/
theorem reacKnockWireRun_state {fuel : Nat} {w : ReacKnockWire μ κ} {now : Nat}
    {send : Nat → Frame → Bool} {r : KnockRun μ κ}
    (hrun : reacKnockWireRun A fuel w now send = some r) :
    r.wire.state = w.state ∧ (w.state ≠ .knocking → r.log = []) := by
  unfold reacKnockWireRun at hrun
  split at hrun
  · cases hrun
    exact ⟨rfl, fun _ => rfl⟩
  · rename_i hquiet
    have hknocking : w.state = .knocking := by
      by_contra hstate
      exact hquiet (Or.inl hstate)
    obtain ⟨out, hout, hr⟩ := Option.map_eq_some_iff.mp hrun
    obtain ⟨hstate, -⟩ := loop_exit (I := fun r => r.wire.state = w.state)
      (fun r hr => runTurn_keeps A (I := fun r => r.wire.state = w.state)
        (fun r hr _ _ => by
          obtain ⟨due, hrest⟩ := knockRest_eq A r.wire
          simpa [hrest] using hr)
        (fun r hr _ _ => by
          obtain ⟨due, hopen⟩ := knockOpen_eq A r.wire r.wire.nextNs
          simpa [restOver, hopen] using hr)
        (fun r hr _ _ _ => (sendSlot_taken A now send r).1.state.trans hr) hr)
      fuel { wire := w } out rfl hout
    obtain ⟨due, hpeek⟩ := knockPeek_eq A out.wire
    rw [← hr]
    exact ⟨by simpa [hpeek] using hstate, fun hne => absurd hknocking hne⟩

/-- **Only a step on a hunt that is not pinned opens a spell**, and only a wire that is in
one is noted about. -/
theorem knockCall_spell (isControl : Frame → Bool) {l l' : KnockLife μ κ} {c : KnockCall}
    (hcall : knockCall A K isControl l c = some l') :
    (l'.log ≠ l.log → l'.wire.state = .knocking) ∧
      (l'.wire.state = .knocking →
        l.wire.state = .knocking ∨ ∃ trunkNow now, c = .step false trunkNow now) := by
  have hunmoved : ∀ {w : ReacKnockWire μ κ}, Unmoved l.wire w → w.state = .knocking →
      l.wire.state = .knocking := fun hw hk => (hw.knock hk).1
  cases c with
  | init src fps now =>
      cases hcall
      exact ⟨fun hne => absurd rfl hne, fun hk => by simp [reacKnockWireInit] at hk⟩
  | step pinned trunkNow now =>
      cases hcall
      rcases reacKnockWireStep_cases A K l.wire pinned now trunkNow with
        ⟨hact, hun⟩ | ⟨hfree, -, w', -, -, hk', hopen⟩
      · exact ⟨fun hne => absurd (by simp [stepEvents, hact]) hne,
          fun hk => Or.inl (hunmoved hun hk)⟩
      · obtain ⟨due, heq⟩ := knockOpen_eq A w' now
        refine ⟨fun _ => ?_, fun _ => Or.inr ⟨trunkNow, now, by rw [hfree]⟩⟩
        simp [hopen, heq, hk']
  | heard frame evidence now =>
      cases hcall
      exact ⟨fun hne => absurd rfl hne,
        fun hk => Or.inl (hunmoved (reacKnockWireHeard_unmoved K isControl _ _ _ _) hk)⟩
  | answerTaken now =>
      cases hcall
      refine ⟨fun hne => absurd rfl hne, fun hk => Or.inl ?_⟩
      unfold reacKnockWireAnswerTaken at hk
      split at hk
      · exact absurd hk (by simp)
      · exact hk
  | setHost host now =>
      cases hcall
      exact ⟨fun hne => absurd rfl hne, fun hk => Or.inl hk⟩
  | run send now =>
      obtain ⟨r, hrun, rfl⟩ := Option.map_eq_some_iff.mp hcall
      obtain ⟨hstate, hquiet⟩ := reacKnockWireRun_state A hrun
      refine ⟨fun hne => ?_, fun hk => Or.inl (hstate ▸ hk)⟩
      by_contra hk
      have hnone : r.log = [] := hquiet fun hknocking => hk (hstate.trans hknocking)
      exact hne (by rw [hnone]; rfl)

/-- The wire is knocking. -/
def Knocks (l : Option (KnockLife μ κ)) : Prop := ∃ life ∈ l, life.wire.state = .knocking

/-- The wire is in a spell, and the step that opened it found the hunt not pinned. -/
def OpenedUnpinned (isControl : Frame → Bool) (start : KnockLife μ κ)
    (calls : List KnockCall) : Prop :=
  ∃ before trunkNow now rest, calls = before ++ .step false trunkNow now :: rest ∧
    ¬ Knocks ((wireMachine A K isControl).after (some start) before) ∧
    ∀ more, more <+: rest → Knocks ((wireMachine A K isControl).after (some start)
      (before ++ .step false trunkNow now :: more))

/-- A call of a wire that comes back was asked of a wire. -/
theorem wireMachine_concat (isControl : Frame → Bool) (start : Option (KnockLife μ κ))
    (calls : List KnockCall) (c : KnockCall) :
    (wireMachine A K isControl).after start (calls ++ [c]) =
      ((wireMachine A K isControl).after start calls).bind fun l =>
        knockCall A K isControl l c :=
  (wireMachine A K isControl).after_concat start calls c

/-- **Every spell was opened by a step on a hunt that was not pinned.** -/
theorem spell_opened (isControl : Frame → Bool) {start : KnockLife μ κ}
    (hquiet : start.wire.state ≠ .knocking) (calls : List KnockCall) :
    Knocks ((wireMachine A K isControl).after (some start) calls) →
      OpenedUnpinned A K isControl start calls := by
  induction calls using List.reverseRecOn with
  | nil =>
      rintro ⟨l, hl, hk⟩
      cases hl
      exact absurd hk hquiet
  | append_singleton calls c ih =>
      intro hknocks
      obtain ⟨l', hl', hk'⟩ := hknocks
      rw [wireMachine_concat] at hl'
      obtain ⟨l, hl, hcall⟩ := Option.bind_eq_some_iff.mp hl'
      by_cases hk : l.wire.state = .knocking
      · -- the spell goes on
        obtain ⟨before, trunkNow, now, rest, rfl, hbefore, hin⟩ := ih ⟨l, hl, hk⟩
        refine ⟨before, trunkNow, now, rest ++ [c], by simp, hbefore, fun more hmore => ?_⟩
        rcases List.prefix_concat_iff.mp hmore with rfl | hmore
        · refine ⟨l', ?_, hk'⟩
          show (wireMachine A K isControl).after (some start) _ = some l'
          rw [show before ++ KnockCall.step false trunkNow now :: (rest ++ [c]) =
            (before ++ KnockCall.step false trunkNow now :: rest) ++ [c] by simp,
            wireMachine_concat]
          exact hl'
        · exact hin more hmore
      · -- the call opens it
        rcases (knockCall_spell A K isControl hcall).2 hk' with hsame | ⟨trunkNow, now, rfl⟩
        · exact absurd hsame hk
        · refine ⟨calls, trunkNow, now, [], rfl, ?_, fun more hmore => ?_⟩
          · rintro ⟨m, hm, hmk⟩
            obtain rfl := Option.some.inj (hl.symm.trans hm)
            exact hk hmk
          · obtain rfl := List.prefix_nil.mp hmore
            refine ⟨l', ?_, hk'⟩
            show (wireMachine A K isControl).after (some start) _ = some l'
            rw [wireMachine_concat]
            exact hl'

/-! ### The contract -/

/-- **The knock never streams and never bunches.**  Whatever a wire is asked and hears and
whatever its sender answers: every call comes back; what was handed to the sender was handed
while knocking, on a control slot of the master's, no later than the bound; the slots of a
knock are stepped one after another; whatever a call notes is of a spell that a step on an
unpinned hunt opened; and a run that leaves the wire knocking says when the next frame, the
end or the next knock falls due, which is still to come. -/
theorem knock_never_streams [LawfulMaster A] (isControl : Frame → Bool) (src : List UInt8)
    (fps t₀ : Nat) (calls : List KnockCall) (hinit : Cadence A src fps)
    (hcalls : ∀ c ∈ calls, c.Kept A) :
    let start : KnockLife μ κ := { wire := reacKnockWireInit A K src fps t₀ }
    ∃ l, (wireMachine A K isControl).after (some start) calls = some l ∧
      (∀ s, .stepped s ∈ l.log → SlotKept A s) ∧
      InOrder l.log ∧ SlotsRise l.log ∧
      (∀ done c rest l₁ l₂, calls = done ++ c :: rest →
        (wireMachine A K isControl).after (some start) done = some l₁ →
        knockCall A K isControl l₁ c = some l₂ → l₂.log ≠ l₁.log →
          OpenedUnpinned A K isControl start (done ++ [c])) ∧
      ∀ now send, ∃ r, (∃ turns, ∀ fuel, turns < fuel →
          reacKnockWireRun A fuel l.wire now send = some r) ∧
        (r.wire.state = .knocking → DueNext A r.wire ∧ now < r.wire.dueNs) := by
  intro start
  have hquiet : start.wire.state ≠ .knocking := by simp [start, reacKnockWireInit]
  have hstart : LifeSound A start :=
    ⟨init_sound A K hinit t₀, by simp [start], True.intro, fun hk => absurd hk hquiet⟩
  obtain ⟨l, hl, hsound⟩ := wireMachine_sound A K isControl calls _ hstart hcalls
  refine ⟨l, hl, hsound.kept, hsound.order, hsound.order.rise, ?_, ?_⟩
  · intro done c rest l₁ l₂ _ hdone hcall hgrew
    refine spell_opened A K isControl hquiet _ ⟨l₂, ?_, ?_⟩
    · show (wireMachine A K isControl).after (some start) _ = some l₂
      rw [wireMachine_concat, hdone]
      exact hcall
    · exact (knockCall_spell A K isControl hcall).1 hgrew
  · intro now send
    obtain ⟨r, hrun, _, hdue⟩ := run_returns A hsound now send
    exact ⟨r, ⟨_, hrun⟩, hdue⟩

/-! ### Past the cadence -/

section
variable [LawfulMaster A]

/-- A knock whose whole cycle is shorter than a nanosecond. -/
structure Spinning (now : Nat) (r : KnockRun μ κ) : Prop where
  fast : knockSlots A r.wire * 1000000000 < r.wire.fps
  cycleLen : A.cycleLen r.wire.master = knockSlots A r.wire
  come : if r.wire.resting then r.wire.nextNs ≤ now else r.wire.t0Ns ≤ now

theorem period_zero {now : Nat} {r : KnockRun μ κ} (h : Spinning A now r) (n : Nat) :
    reacKnockWirePeriodNs A r.wire n = 0 := by
  have hzero : ∀ n, doubled n 0 = 0 := by
    intro n
    induction n with
    | zero => rfl
    | succ n ih => simp [doubled, reacKnockWirePeriodMaxNs, ih]
  have hfast := h.fast
  have hslots : 0 < knockSlots A r.wire := LawfulMaster.cycleLen_init _ _ (by omega)
  have hdiv : knockSlots A r.wire * 1000000000 / r.wire.fps = 0 := Nat.div_eq_of_lt hfast
  unfold reacKnockWirePeriodNs
  simp only [h.cycleLen, hslots, if_pos, hdiv, hzero]
  rw [if_neg (by omega)]
  simp

theorem runSlot_spins {now : Nat} {send : Nat → Frame → Bool} {r : KnockRun μ κ}
    (h : Spinning A now r) (hopen : r.wire.resting = false) :
    (runSlot A now send r).2 = true ∧ Spinning A now (runSlot A now send r).1 := by
  have hcome : r.wire.t0Ns ≤ now := by simpa [hopen] using h.come
  unfold runSlot
  by_cases hend : A.cycleLen r.wire.master ≤ r.wire.slot
  · rw [if_pos hend]
    obtain ⟨due, hrest⟩ := knockRest_eq A r.wire
    refine ⟨rfl, ?_, ?_, ?_⟩
    · rw [hrest]
      exact h.fast
    · rw [hrest]
      exact h.cycleLen
    · have hnext : (knockRest A r.wire).nextNs = r.wire.t0Ns := by
        simp only [hrest, period_zero A h, Nat.add_zero]
      simpa [hrest, hnext, period_zero A h] using hcome
  · rw [if_neg hend]
    have hin : r.wire.slot ≤ knockSlots A r.wire := by
      rw [← h.cycleLen]
      exact Nat.le_of_not_le hend
    have hless : r.wire.slot * 1000000000 < r.wire.fps :=
      Nat.lt_of_le_of_lt (Nat.mul_le_mul_right _ hin) h.fast
    have hzero : r.wire.slot * 1000000000 / r.wire.fps = 0 := Nat.div_eq_of_lt hless
    have hat : slotNs r.wire r.wire.slot = r.wire.t0Ns := by rw [slotNs, hzero, Nat.add_zero]
    rw [if_neg (by omega)]
    obtain ⟨ht, _⟩ := sendSlot_taken A now send r
    have hslots : knockSlots A (sendSlot A now send r).wire = knockSlots A r.wire := by
      unfold knockSlots
      rw [ht.src, ht.fps]
    refine ⟨rfl, ?_, ?_, ?_⟩
    · rw [hslots, ht.fps]
      exact h.fast
    · rw [hslots, ht.master, LawfulMaster.cycleLen_next, h.cycleLen]
    · simpa [ht.resting, hopen, ht.t0Ns] using hcome

/-- **A knock of no length is opened again where it ended, for ever.** -/
theorem runTurn_spins {now : Nat} {send : Nat → Frame → Bool} {r : KnockRun μ κ}
    (h : Spinning A now r) :
    (runTurn A now send r).2 = true ∧ Spinning A now (runTurn A now send r).1 := by
  unfold runTurn
  by_cases hrest : r.wire.resting = true
  · have hcome : r.wire.nextNs ≤ now := by simpa [hrest] using h.come
    rw [if_pos hrest, if_neg (by omega)]
    obtain ⟨due, hopen⟩ := knockOpen_eq A r.wire r.wire.nextNs
    refine runSlot_spins A ⟨?_, ?_, ?_⟩ (by simp [restOver, hopen])
    · simp only [restOver, hopen]
      exact h.fast
    · simp only [restOver, hopen]
      exact toHeader_cycleLen A _ _
    · simpa [restOver, hopen] using hcome
  · rw [if_neg hrest]
    exact runSlot_spins A h (by simpa using hrest)

theorem run_spins {w : ReacKnockWire μ κ} {now : Nat} (hk : w.state = .knocking)
    (h : Spinning A now { wire := w }) (send : Nat → Frame → Bool) (fuel : Nat) :
    reacKnockWireRun A fuel w now send = none := by
  have hfast := h.fast
  have hquiet : ¬ (w.state ≠ .knocking ∨ w.fps = 0) := by
    intro hc
    rcases hc with hstate | hzero
    · exact hstate hk
    · simp only [hzero] at hfast
      omega
  rw [reacKnockWireRun, if_neg hquiet,
    loop_never (I := Spinning A now) (fun _ hr => runTurn_spins A hr) fuel _ h]
  rfl

end

end

/-- A master whose cycle is one announce. -/
def oneSlotMaster : MasterApi Nat where
  zeroed := 0
  init _ _ := 1
  cycleLen m := m
  cyclePos _ := 0
  sub01Off _ := 0
  next m := ({ emit := .control 0, counter := 0, idx := 0 }, m)
  downstreamBuild _ src := src
  stamp _ f _ _ := some f
  sceneChunks := 341

instance : LawfulMaster oneSlotMaster where
  cycleLen_next _ := rfl
  cycleLen_init _ _ _ := Nat.one_pos

/-- A licence that says to drive half a second after the last frame. -/
def halfSecondLicence : LicenceApi Nat where
  init now := now
  step heard now := (heard, decide (500000000 ≤ now - heard))
  heard _ now := now
  listenNs := 500000000

/-- A two-gigahertz cadence; and a hunt pinned while the knock is out. -/
theorem knock_spins_and_streams :
    (∀ fuel, reacKnockWireRun oneSlotMaster fuel
      (reacKnockWireStep oneSlotMaster halfSecondLicence
        (reacKnockWireInit oneSlotMaster halfSecondLicence [2, 0, 0, 0, 0, 1] 2000000000 0)
        false 500000000 false).1 500000000 (fun _ _ => true) = none) ∧
    ((wireMachine oneSlotMaster halfSecondLicence (fun _ => true)).after
        (some { wire := reacKnockWireInit oneSlotMaster halfSecondLicence [2, 0, 0, 0, 0, 1]
                  8000 0 })
        [.step false false 500000000, .step true false 500000000,
          .run (fun _ _ => true) 500000000]).map (fun l => l.wire.sent) = some 1 := by
  refine ⟨?_, by decide⟩
  intro fuel
  exact run_spins oneSlotMaster rfl ⟨by decide, rfl, by decide⟩ _ fuel

/-- A master of four slots, the header, an announce and a FILLER after each; a fresh one
comes up past its header. -/
def fourSlotMaster : MasterApi Nat where
  zeroed := 0
  init _ _ := 1
  cycleLen _ := 4
  cyclePos m := m
  sub01Off _ := 0
  next m :=
    ({ emit := if m = 0 then .control 0 else if m = 2 then .control 1 else .filler,
       counter := m, idx := 0 }, (m + 1) % 4)
  downstreamBuild _ src := src
  stamp _ f _ _ := some f
  sceneChunks := 341

instance : LawfulMaster fourSlotMaster where
  cycleLen_next _ := rfl
  cycleLen_init _ _ _ := Nat.succ_pos 3

/-- A wire polled while its hunt is pinned, then knocked on, its hunt pinned again before the
announce, and answered. -/
def answeredCalls : List KnockCall :=
  [.step true false 500000000, .run (fun _ _ => true) 500000000,
    .step false false 600000000, .run (fun _ _ => true) 600000000,
    .step true false 600100000, .run (fun _ _ => true) 600250000,
    .heard (some [0]) true 601000000]

/-- The contract on that run: the header and the announce are sent, in order, in a spell
that an unpinned step opened. -/
theorem knock_never_streams_answered :
    let start : KnockLife Nat Nat :=
      { wire := reacKnockWireInit fourSlotMaster halfSecondLicence [2, 0, 0, 0, 0, 1] 8000 0 }
    Cadence fourSlotMaster [2, 0, 0, 0, 0, 1] 8000 ∧
    ∃ l, (wireMachine fourSlotMaster halfSecondLicence (fun _ => true)).after (some start)
        answeredCalls = some l ∧ l.wire.sent = 2 ∧ l.wire.state = .answered ∧ InOrder l.log ∧
      OpenedUnpinned fourSlotMaster halfSecondLicence (fun _ => true) start
        (answeredCalls.take 6) := by
  intro start
  refine ⟨by decide, ?_⟩
  obtain ⟨l, hl, _, hord, _, hspell, _⟩ := knock_never_streams fourSlotMaster halfSecondLicence
    (fun _ => true) [2, 0, 0, 0, 0, 1] 8000 0 answeredCalls (by decide)
    (by intro c hc
        simp only [answeredCalls, List.mem_cons, List.not_mem_nil, or_false] at hc
        rcases hc with rfl | rfl | rfl | rfl | rfl | rfl | rfl <;> exact True.intro)
  have hends : ((wireMachine fourSlotMaster halfSecondLicence (fun _ => true)).after (some start)
      answeredCalls).map (fun l => (l.wire.sent, l.wire.state)) = some (2, .answered) := by decide
  rw [hl] at hends
  obtain ⟨hsent, hstate⟩ := Prod.mk.inj (Option.some.inj hends)
  refine ⟨l, hl, hsent, hstate, hord, ?_⟩
  exact hspell (answeredCalls.take 5) (.run (fun _ _ => true) 600250000)
    [.heard (some [0]) true 601000000] _ _ rfl rfl rfl
    fun hsame => absurd (congrArg List.length hsame) (by decide)

end ReacPw
