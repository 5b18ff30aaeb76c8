/-
The ladder's word over whole runs of its two drivers.

Each driver is a machine whose inputs are its turns, run beside the history of
its ladder.  Every turn of either is a `LadderTurn`, so the ladder's memory is
true to its history after any run under a clock that never goes back.

What a turn must meet for the ladder's last word to be true is `Clean`: the
kernel takes the down write, and a turn whose observation is silent does not find
the ladder spent inside the settle window of its last edge.
-/
import ReacPw.Proofs.WakeLadder

namespace ReacPw

/-! ### Both drivers take ladder turns -/

theorem wakeAsked_sameEdges (c : AutodetectCtx) (t : WakeTurn) (p : PacerObs) :
    (if !c.wakeOpen then ReacWake.zeroed else c.wake).SameEdges (wakeAsked c t p).1.wake := by
  have hopened : (if !c.wakeOpen then ReacWake.zeroed else c.wake).SameEdges
      (wakeOpened c t.now p.probing).wake := by
    unfold wakeOpened
    by_cases hopen : (!c.wakeOpen) = true
    · rw [if_pos hopen, if_pos hopen]
      exact ⟨rfl, rfl, rfl⟩
    · rw [if_neg hopen, if_neg hopen]
      split
      · exact reacWakeReopen_sameEdges _ _
      · exact .rfl
  refine hopened.trans ?_
  show (wakeOpened c t.now p.probing).wake.SameEdges
    (if p.probing then _ else _ : AutodetectCtx).wake
  split
  · exact .rfl
  · exact ⟨rfl, rfl, rfl⟩

theorem wakeStep_ladderTurn (c : AutodetectCtx) (t : WakeTurn) :
    LadderTurn c.wake t.now (wakeStep c t).2 (wakeStep c t).1.wake := by
  obtain h | ⟨-, -, h⟩ | ⟨p, -, -, hc, hr⟩ := wakeStep_cases c t
  · rw [h]
    exact .idle rfl rfl .rfl
  · rw [h]
    exact .idle rfl rfl .rfl
  · refine .asked (wakeAsked c t p).1.wake (wakeAsked c t p).2 ?_ ?_ ?_
    · rw [hr]
      exact wakeAsked_sameEdges c t p
    · rw [hr]
      exact wakeCarryOut_asked _ _ _
    · rw [hc]
      rcases wakeCarryOut_wake (wakeAsked c t p).1 t (wakeAsked c t p).2 with h | h
      · rw [h]
        exact .rfl
      · rw [h]
        exact reacWakeRefusalToSay_sameEdges _

theorem knockAsked_sameEdges (kl : KnockLadder) (s : KnockSniff) (now : Nat) :
    (if kl.kl.wake.openedNs == 0 then ReacWake.zeroed else kl.kl.wake).SameEdges
      (knockAsked kl s now).1 := by
  show ReacWake.SameEdges _ (knockLadderOpened kl.kl s now).wake
  rw [knockLadderOpened_wake]
  by_cases h0 : kl.kl.wake.openedNs = 0
  · rw [if_pos (by simp [h0]), if_pos h0]
    exact ⟨rfl, rfl, rfl⟩
  · rw [if_neg (by simpa using h0), if_neg h0]
    by_cases hfresh : s.knocks ≠ kl.kl.knocksSeen ∨ s.pushes < kl.kl.pushesLast ∨
        s.frames < kl.kl.frames0
    · rw [if_pos hfresh]
      exact reacWakeReopen_sameEdges _ _
    · rw [if_neg hfresh]
      exact .rfl

theorem knockTurn_ladderTurn (kl : KnockLadder) (s : KnockSniff) (now : Nat) :
    LadderTurn kl.kl.wake now (knockTurn kl s now).2 (knockTurn kl s now).1.kl.wake := by
  by_cases hup : kl.upAtNs ≠ 0
  · rw [knockTurn, if_pos hup]
    exact .idle rfl rfl .rfl
  · rw [knockTurn, if_neg hup]
    refine .asked (knockAsked kl s now).1 (knockAsked kl s now).2 (knockAsked_sameEdges kl s now)
      (knockCarryOut_asked kl s now) ?_
    rcases knockCarryOut_wake kl s now with h | h
    · simp only [h]
      exact .rfl
    · simp only [h]
      exact reacWakeRefusalToSay_sameEdges _

theorem knockFinish_kl (kl : KnockLadder) (now : Nat) (upOk : Bool) :
    (knockFinish kl now upOk).1.kl = kl.kl := by
  unfold knockFinish
  split <;> rfl

/-- The writes of a poll are no part of what the ladder sees. -/
theorem LadderTurn.withWrites {w w' : ReacWake} {now : Nat} {r : WakeReport}
    (h : LadderTurn w now r w') (ws : List LinkWrite) :
    LadderTurn w now { r with writes := ws } w' := by
  cases h with
  | idle hasked hinit hw => exact .idle hasked hinit hw
  | asked w₀ o h₀ hasked hw => exact .asked w₀ o h₀ hasked hw

theorem knockWakeOne_ladderTurn (s : KnockState) (t : KnockPoll) :
    LadderTurn s.ladder.kl.wake t.now (knockWakeOne s t).2 (knockWakeOne s t).1.ladder.kl.wake := by
  have hidle : LadderTurn s.ladder.kl.wake t.now
      { writes := (knockFinish s.ladder t.now t.upOk).2 }
      (knockFinish s.ladder t.now t.upOk).1.kl.wake := by
    rw [knockFinish_kl]
    exact .idle rfl rfl .rfl
  obtain ⟨hs, hr⟩ | ⟨sn, -, -, hs, hr⟩ := knockWakeOne_cases s t
  · rw [hs, hr]
    exact hidle
  · rw [hs, hr]
    have h := knockTurn_ladderTurn (knockFinish s.ladder t.now t.upOk).1 sn t.now
    rw [knockFinish_kl] at h
    exact h.withWrites _

/-! ### Runs -/

/-- `wake_step` on one master listener. -/
def wakeMachine : StepMachine AutodetectCtx WakeTurn WakeReport := ⟨wakeStep⟩

/-- `hearing_knock_wake` on one interface. -/
def knockMachine : StepMachine KnockState KnockPoll WakeReport := ⟨knockWakeOne⟩

/-- The history of the ladder a driver asks, since it was last opened. -/
def ladderLog {σ ι : Type} (M : StepMachine σ ι WakeReport) (time : ι → Nat) (s : σ)
    (run : List ι) : LadderLog :=
  ((M.withHistory fun (log : LadderLog) _ i r => log.note (time i) r).after (s, {}) run).2

/-- What the ladder of a driver may be trusted with: few edges, far apart and only into
silence, one last word, and a true one when every turn is clean. -/
def LadderTellsTruth {σ ι : Type} (M : StepMachine σ ι WakeReport) (time : ι → Nat)
    (Clean : σ → ι → Prop) (s : σ) : Prop :=
  ∀ (t₀ : Nat) (run : List ι), StepMachine.Clocked time t₀ run →
    (ladderLog M time s run).Bounded ∧
      (M.Guarded Clean s run → (ladderLog M time s run).Truthful)

/-- **A driver that takes ladder turns has a ladder that tells the truth.** -/
theorem tellsTruth_of_ladderTurn {σ ι : Type} {M : StepMachine σ ι WakeReport}
    {time : ι → Nat} {Clean : σ → ι → Prop} (wake : σ → ReacWake)
    (hturn : ∀ s i, LadderTurn (wake s) (time i) (M.step s i).2 (wake (M.step s i).1))
    (hmade : ∀ s i, Clean s i → ∀ o, (M.step s i).2.asked = some (o, .bounce) →
      (M.step s i).2.writes.contains ⟨false, true⟩ = true)
    (hover : ∀ s i, Clean s i → ∀ o act, (M.step s i).2.asked = some (o, act) →
      (M.step s i).2.inited = false → o.Silent → (wake s).WindowOver (time i))
    {s : σ} (hs : wake s = .zeroed) : LadderTellsTruth M time Clean s := by
  intro t₀ run hclock
  have h₀ : LadderInv t₀ (wake s) {} := by
    rw [hs]
    exact .zeroed t₀
  constructor
  · have h := (M.withHistory fun (log : LadderLog) _ i r => log.note (time i) r
      ).invariant_clocked (I := fun t s => LadderInv t (wake s.1) s.2)
      (fun t s i hi hle _ => (hturn s.1 i).inv hi hle)
      run t₀ (s, {}) h₀ hclock (StepMachine.guarded_true _ _ _)
    exact h.bounded
  · intro hclean
    have hstep : ∀ t (s : σ × LadderLog) i, (LadderInv t (wake s.1) s.2 ∧ LadderTruth s.2) →
        t ≤ time i → Clean s.1 i →
        LadderInv (time i) (wake (M.step s.1 i).1) (s.2.note (time i) (M.step s.1 i).2) ∧
          LadderTruth (s.2.note (time i) (M.step s.1 i).2) := by
      intro t s i ⟨hi, ht⟩ hle hg
      exact ⟨(hturn s.1 i).inv hi hle,
        (hturn s.1 i).truth hi ht (hmade s.1 i hg) (hover s.1 i hg)⟩
    have h := (M.withHistory fun (log : LadderLog) _ i r => log.note (time i) r
      ).invariant_clocked (I := fun t s => LadderInv t (wake s.1) s.2 ∧ LadderTruth s.2)
      (G := fun s i => Clean s.1 i) hstep run t₀ (s, ({} : LadderLog)) ⟨h₀, by simp, by simp⟩
      hclock (M.withHistory_guarded _ run (s, ({} : LadderLog)) hclean)
    exact h.2.truthful

/-- On a turn whose observation is silent the kernel would take the down write, and an
open ladder is not found spent inside the settle window. -/
def WakeTurn.Clean (c : AutodetectCtx) (t : WakeTurn) : Prop :=
  ∀ p ∈ t.pacer, c.upAtNs = 0 → (wakeAsked c t p).2.Silent →
    t.downOk = true ∧ (c.wakeOpen = true → c.wake.WindowOver t.now)

def KnockPoll.Clean (s : KnockState) (t : KnockPoll) : Prop :=
  ∀ sn ∈ t.sniff, ladderPollsDue (s.ladderPolls + 1) = true →
    (knockFinish s.ladder t.now t.upOk).1.upAtNs = 0 → (knockAsked s.ladder sn t.now).2.Silent →
      sn.downOk = true ∧ (s.ladder.kl.wake.openedNs ≠ 0 → s.ladder.kl.wake.WindowOver t.now)

instance (c : AutodetectCtx) (t : WakeTurn) : Decidable (t.Clean c) :=
  inferInstanceAs (Decidable (∀ p ∈ t.pacer, _ → _ → _ ∧ (_ → _)))

instance (s : KnockState) (t : KnockPoll) : Decidable (t.Clean s) :=
  inferInstanceAs (Decidable (∀ sn ∈ t.sniff, _ → _ → _ → _ ∧ (_ → _)))

/-- A clean turn that makes an edge has its write taken. -/
theorem wakeStep_made {c : AutodetectCtx} {t : WakeTurn} (hg : t.Clean c) (o : WakeObs)
    (h : (wakeStep c t).2.asked = some (o, .bounce)) :
    (wakeStep c t).2.writes.contains ⟨false, true⟩ = true := by
  obtain hc | ⟨-, -, hc⟩ | ⟨p, hp, hup, -, hr⟩ := wakeStep_cases c t
  · rw [hc] at h
    cases h
  · rw [hc] at h
    cases h
  · rw [hr] at h ⊢
    have hact : (reacWakeStep (wakeAsked c t p).1.wake t.now (wakeAsked c t p).2).2 = .bounce := by
      have := (wakeCarryOut_asked (wakeAsked c t p).1 t (wakeAsked c t p).2).symm.trans h
      exact congrArg Prod.snd (Option.some.inj this)
    have hok := (hg p hp hup (reacWakeStep_bounce_silent hact)).1
    show (wakeCarryOut _ _ _).2.writes.contains _ = true
    rw [wakeCarryOut_writes, if_pos hact, hok]
    rfl

/-- A clean turn that asks an open ladder with a silent observation finds its window over. -/
theorem wakeStep_windowOver {c : AutodetectCtx} {t : WakeTurn} (hg : t.Clean c) (o : WakeObs)
    (act : WakeAct) (h : (wakeStep c t).2.asked = some (o, act))
    (hinit : (wakeStep c t).2.inited = false) (hsil : o.Silent) : c.wake.WindowOver t.now := by
  obtain hc | ⟨-, -, hc⟩ | ⟨p, hp, hup, -, hr⟩ := wakeStep_cases c t
  · rw [hc] at h
    cases h
  · rw [hc] at h
    cases h
  · rw [hr] at h hinit
    have hobs : (wakeAsked c t p).2 = o := by
      have := (wakeCarryOut_asked (wakeAsked c t p).1 t (wakeAsked c t p).2).symm.trans h
      exact congrArg Prod.fst (Option.some.inj this)
    rw [← hobs] at hsil
    exact (hg p hp hup hsil).2 (by simpa using hinit)

/-- Finishing an edge changes nothing the ladder is asked with. -/
theorem knockAsked_finish (kl : KnockLadder) (sn : KnockSniff) (now now' : Nat) (upOk : Bool) :
    knockAsked (knockFinish kl now upOk).1 sn now' = knockAsked kl sn now' := by
  simp only [knockAsked, knockFinish_kl]

theorem knockWakeOne_made {s : KnockState} {t : KnockPoll} (hg : t.Clean s) (o : WakeObs)
    (h : (knockWakeOne s t).2.asked = some (o, .bounce)) :
    (knockWakeOne s t).2.writes.contains ⟨false, true⟩ = true := by
  obtain ⟨-, hr⟩ | ⟨sn, hsn, hdue, -, hr⟩ := knockWakeOne_cases s t
  · rw [hr] at h
    cases h
  · rw [hr] at h ⊢
    by_cases hup : (knockFinish s.ladder t.now t.upOk).1.upAtNs ≠ 0
    · rw [knockTurn, if_pos hup] at h
      cases h
    rw [knockTurn, if_neg hup] at h ⊢
    have hact := (knockCarryOut_asked (knockFinish s.ladder t.now t.upOk).1 sn t.now).symm.trans h
    have hact := congrArg Prod.snd (Option.some.inj hact)
    have hsil := reacWakeStep_bounce_silent hact
    rw [knockAsked_finish] at hsil
    show (_ ++ (knockCarryOut _ _ _).2.writes).contains _ = true
    rw [knockCarryOut_writes, if_pos hact, (hg sn hsn hdue (not_not.mp hup) hsil).1]
    simp

theorem knockWakeOne_windowOver {s : KnockState} {t : KnockPoll} (hg : t.Clean s) (o : WakeObs)
    (act : WakeAct) (h : (knockWakeOne s t).2.asked = some (o, act))
    (hinit : (knockWakeOne s t).2.inited = false) (hsil : o.Silent) :
    s.ladder.kl.wake.WindowOver t.now := by
  obtain ⟨-, hr⟩ | ⟨sn, hsn, hdue, -, hr⟩ := knockWakeOne_cases s t
  · rw [hr] at h
    cases h
  · rw [hr] at h hinit
    by_cases hup : (knockFinish s.ladder t.now t.upOk).1.upAtNs ≠ 0
    · rw [knockTurn, if_pos hup] at h
      cases h
    rw [knockTurn, if_neg hup] at h hinit
    have hobs : (knockAsked (knockFinish s.ladder t.now t.upOk).1 sn t.now).2 = o := by
      have := (knockCarryOut_asked (knockFinish s.ladder t.now t.upOk).1 sn t.now).symm.trans h
      exact congrArg Prod.fst (Option.some.inj this)
    have hopen : s.ladder.kl.wake.openedNs ≠ 0 := by
      have : ((knockFinish s.ladder t.now t.upOk).1.kl.wake.openedNs == 0) = false := hinit
      rw [knockFinish_kl] at this
      simpa using this
    rw [← hobs, knockAsked_finish] at hsil
    exact (hg sn hsn hdue (not_not.mp hup) hsil).2 hopen

/-- **The ladder of either driver, over every run.**  Its edges are few, far apart and
only into silence, and it gives up once; and when every turn is clean, it gives up only
after every edge was made and the box had its window. -/
theorem ladders_tell_truth (ifname : String) (polls : UInt32) :
    LadderTellsTruth wakeMachine WakeTurn.now (fun c t => t.Clean c) (.fresh true ifname) ∧
    LadderTellsTruth knockMachine KnockPoll.now (fun s t => t.Clean s)
      ⟨.blank ifname, polls⟩ := by
  constructor
  · exact tellsTruth_of_ladderTurn AutodetectCtx.wake wakeStep_ladderTurn
      (fun _ _ hg => wakeStep_made hg) (fun _ _ hg => wakeStep_windowOver hg) rfl
  · exact tellsTruth_of_ladderTurn (fun s => s.ladder.kl.wake) knockWakeOne_ladderTurn
      (fun _ _ hg => knockWakeOne_made hg) (fun _ _ hg => knockWakeOne_windowOver hg) rfl

/-! ### Two runs whose last word is false -/

/-- A turn on a silent wire with frames going out and nobody else on the port. -/
def silentTurn (now : Nat) (sent : UInt64) (downOk : Bool) : WakeTurn :=
  { now := now, pacer := some ⟨true, 0, 100, sent⟩, carrier := .up, siblingsServed := false,
    ownerRead := .bare, downOk := downOk, upOk := true }

/-- Opened at 1 s, edges at 13 s and 33 s, each brought back up, and a turn 1.4 s after
the second edge. -/
def earlyRun : List WakeTurn :=
  [silentTurn 1000000000 100 true, silentTurn 13000000000 200 true,
    silentTurn 14200000000 300 true, silentTurn 33000000000 400 true,
    silentTurn 34200000000 500 true, silentTurn 34400000000 600 true]

/-- The kernel refuses both edges, and the last turn comes long after their window. -/
def refusedRun : List WakeTurn :=
  [silentTurn 1000000000 100 false, silentTurn 13000000000 200 false,
    silentTurn 33000000000 300 false, silentTurn 90000000000 400 false]

/-- The ladder gives up 1.4 s after its last edge, and it gives up on edges that were
never made. -/
theorem ladder_gives_up_falsely :
    (StepMachine.Clocked WakeTurn.now 0 earlyRun ∧
      ¬ (ladderLog wakeMachine WakeTurn.now (.fresh true "eth0") earlyRun).Truthful) ∧
    (StepMachine.Clocked WakeTurn.now 0 refusedRun ∧
      ¬ (ladderLog wakeMachine WakeTurn.now (.fresh true "eth0") refusedRun).Truthful) := by
  decide

/-- Long after the last window every word is true: the same run with a later last turn. -/
theorem ladders_tell_truth_late :
    StepMachine.Clocked WakeTurn.now 0 (earlyRun.take 5 ++ [silentTurn 60000000000 600 true]) ∧
    wakeMachine.Guarded (fun c t => t.Clean c) (.fresh true "eth0")
      (earlyRun.take 5 ++ [silentTurn 60000000000 600 true]) ∧
    (ladderLog wakeMachine WakeTurn.now (.fresh true "eth0")
      (earlyRun.take 5 ++ [silentTurn 60000000000 600 true])).said = [60000000000] ∧
    (ladderLog wakeMachine WakeTurn.now (.fresh true "eth0")
      (earlyRun.take 5 ++ [silentTurn 60000000000 600 true])).Truthful := by
  have hclock : StepMachine.Clocked WakeTurn.now 0
      (earlyRun.take 5 ++ [silentTurn 60000000000 600 true]) := by decide
  have hclean : wakeMachine.Guarded (fun c t => t.Clean c) (.fresh true "eth0")
      (earlyRun.take 5 ++ [silentTurn 60000000000 600 true]) := by decide
  exact ⟨hclock, hclean, by decide, ((ladders_tell_truth "eth0" 0).1 0 _ hclock).2 hclean⟩

end ReacPw
