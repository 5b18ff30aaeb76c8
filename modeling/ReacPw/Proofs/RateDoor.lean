/-
The last accepted rate wins, and when it does not.

An accepted rate is left on the sink for the poll, unless it is the rate the sink runs at:
then it is dropped, and so a different rate accepted before it goes on waiting.  Beside
the segment stands the last rate it accepted.  `RateHeld` ties the two: the last accepted
rate either runs or waits, and what waits is never what runs.  A poll keeps that unless
what it takes is older than the last accepted rate.
-/
import ReacPw.RateDoor

namespace ReacPw

/-! ### What an assertion does -/

/-- **An answer other than an acceptance moves nothing.** -/
theorem sinkDoorAssertRate_refused {L : Listener} {pod : PropsPod} {drivable : RateMask}
    (hrefused : (sinkDoorAssertRate L pod drivable).2 ≠ some .accepted) :
    (sinkDoorAssertRate L pod drivable).1 = L := by
  unfold sinkDoorAssertRate at hrefused ⊢
  dsimp only at hrefused ⊢
  cases hrefusal : rateRefusal drivable (reacRatePropParse pod) with
  | none => rfl
  | some refusal =>
      rw [hrefusal] at hrefused
      have hne : (refusal == .accepted) = false := by
        have : refusal ≠ .accepted := fun h => hrefused (congrArg some h)
        simpa using this
      simp only [hne]
      unfold listenerRateWrite
      rw [show (fun n : SinkNode => n.rateAssert L.sampleRate
        (reacRatePropParse pod).requested false) = id from
          funext fun n => if_neg (fun h => Bool.false_ne_true h.1), Option.map_id]
      rfl

/-- An accepted rate is one of the closed list. -/
theorem rateRefusal_accepted {drivable : RateMask} {parsed : RateParse}
    (haccepted : rateRefusal drivable parsed = some .accepted) : 0 < parsed.requested := by
  cases parsed with
  | absent => exact absurd haccepted (by simp [rateRefusal])
  | malformed => exact absurd haccepted (by simp [rateRefusal])
  | hz requested =>
      have hclosed : reacRateIsClosed requested = true := by
        by_contra hopen
        rw [Bool.not_eq_true] at hopen
        simp [rateRefusal, reacRateCfgDecide, hopen] at haccepted
      simp only [reacRateIsClosed, Bool.or_eq_true, beq_iff_eq] at hclosed
      simp only [RateParse.requested]
      omega

/-- An accepted rate is filed on the sink. -/
theorem sinkDoorAssertRate_accepted {L : Listener} {pod : PropsPod} {drivable : RateMask}
    (haccepted : (sinkDoorAssertRate L pod drivable).2 = some .accepted) :
    (sinkDoorAssertRate L pod drivable).1 =
        listenerRateWrite L (reacRatePropParse pod).requested true ∧
      0 < (reacRatePropParse pod).requested := by
  unfold sinkDoorAssertRate at haccepted ⊢
  dsimp only at haccepted ⊢
  cases hrefusal : rateRefusal drivable (reacRatePropParse pod) with
  | none =>
      rw [hrefusal] at haccepted
      exact absurd haccepted (by simp)
  | some refusal =>
      rw [hrefusal] at haccepted
      obtain rfl : refusal = .accepted := Option.some.inj haccepted
      exact ⟨rfl, rateRefusal_accepted hrefusal⟩

/-! ### What a poll does -/

/-- A master up, its sink on the graph, and no role asserted on it. -/
structure RateDoor (L : Listener) : Prop where
  opened : L.opened = true
  notTap : L.cfg.tap = false
  notDoor : L.cfg.doorOnly = false
  notJoin : L.cfg.joinBoxMaster = false
  master : L.cfg.role = .master
  sends : ∃ dev, L.cfg.txIf = some dev
  sink : ∃ n, L.sink = some n ∧ n.reopenRole = none

theorem RateDoor.rateWrite {L : Listener} (hdoor : RateDoor L) (hz : Nat) (accepted : Bool) :
    RateDoor (listenerRateWrite L hz accepted) := by
  obtain ⟨n, hsink, hrole⟩ := hdoor.sink
  refine ⟨hdoor.opened, hdoor.notTap, hdoor.notDoor, hdoor.notJoin, hdoor.master, hdoor.sends,
    n.rateAssert L.sampleRate hz accepted, by simp [listenerRateWrite, hsink], ?_⟩
  unfold SinkNode.rateAssert
  split <;> exact hrole

/-- The rate the sink runs at asks for nothing; any other waits. -/
theorem RateDoor.waitingRate_write {L : Listener} (hdoor : RateDoor L) (hz : Nat) :
    waitingRate (listenerRateWrite L hz true) =
      if hz = L.sampleRate then waitingRate L else hz := by
  obtain ⟨n, hsink, -⟩ := hdoor.sink
  by_cases hruns : hz = L.sampleRate <;>
    simp [waitingRate, listenerRateWrite, hsink, SinkNode.rateAssert, hruns]

theorem RateDoor.tick_lost {L : Listener} (hdoor : RateDoor L) {hearing : Bool} {t : TickAnswers}
    (hlost : (L.rxStarted && t.ifaceLost) = true) : (rateReopenTick hearing L t).1 = L := by
  simp [rateReopenTick, hdoor.opened, hlost]

theorem RateDoor.tick_idle {L : Listener} (hdoor : RateDoor L) {hearing : Bool} {t : TickAnswers}
    (hthere : (L.rxStarted && t.ifaceLost) = false) (hnone : waitingRate L = 0) :
    rateReopenTick hearing L t = (L, .idle) := by
  obtain ⟨n, hsink, hrole⟩ := hdoor.sink
  have hrate : n.reopenRate = 0 := by simpa [waitingRate, hsink] using hnone
  simp [rateReopenTick, hdoor.opened, hthere, hdoor.notTap, listenerTick, tickReadsCapture,
    hdoor.notJoin, hsink, hrole, hrate]

theorem RateDoor.tick_reopens {L : Listener} (hdoor : RateDoor L) (hearing : Bool)
    {t : TickAnswers} (hthere : (L.rxStarted && t.ifaceLost) = false)
    (hwaits : 0 < waitingRate L) :
    rateReopenTick hearing L t =
      (listenerReopenAtRate L (waitingRate L) t.fits t.reopen, .reopenRate (waitingRate L)) := by
  obtain ⟨n, hsink, hrole⟩ := hdoor.sink
  have hrate : 0 < n.reopenRate := by simpa [waitingRate, hsink] using hwaits
  simp [rateReopenTick, hdoor.opened, hthere, hdoor.notTap, listenerTick, tickReadsCapture,
    hdoor.notJoin, waitingRate, hsink, hrole, hrate]

/-- A master re-opened at a rate and come up is a master again, with nothing waiting. -/
theorem RateDoor.reopened {L : Listener} (hdoor : RateDoor L) {hz : Nat} {fits : Bool}
    {a : OpenAnswers} (hup : (listenerReopenAtRate L hz fits a).opened = true) :
    RateDoor (listenerReopenAtRate L hz fits a) ∧
      waitingRate (listenerReopenAtRate L hz fits a) = 0 ∧
      (listenerReopenAtRate L hz fits a).sampleRate = a.sampleRate := by
  rcases listenerReopen_cases L (rateChange hz) fits a with hdown | ⟨M, hM, hres⟩
  · exact absurd (hup.symm.trans hdown) (by simp)
  · have hcfg : (listenerReopening L (rateChange hz)).cfg = rateChange hz L.cfg := by
      simp [listenerReopening, hdoor.opened, listenerClose, listenerDropNodes]
    have hprep := listenerPrepared_cfg (listenerReopening L (rateChange hz)) a
    rw [hcfg] at hprep
    obtain ⟨-, htx, hrole, htap, hdoorOnly, hjoin, -⟩ := hprep
    have hdoorOnly' : (listenerPrepared (listenerReopening L (rateChange hz)) a).cfg.doorOnly =
        false := by
      rw [hdoorOnly]
      simp [rateChange, hdoor.notDoor, hdoor.notTap]
    obtain ⟨dev, hdev⟩ := hdoor.sends
    have hsends : (rateChange hz L.cfg).txIf = some dev := hdev
    have hmaster : (rateChange hz L.cfg).role = .master := hdoor.master
    rw [show listenerReopenAtRate L hz fits a = _ from hres]
    -- the configuration leaves the open a single shape
    cases hM with
    | tap hup =>
        rw [hcfg] at hup
        exact absurd (hup.symm.trans hdoor.notTap) (by simp)
    | vacant hup => exact absurd (hup.symm.trans hdoorOnly') (by simp)
    | door hup => exact absurd (hup.symm.trans hdoorOnly') (by simp)
    | master dev' src htap' hasks hfits htx' hrole' hsrc =>
        exact ⟨⟨rfl, htap.trans hdoor.notTap, hdoorOnly', hjoin.trans hdoor.notJoin,
          hrole.trans hmaster, ⟨dev, htx.trans hsends⟩, _, rfl, rfl⟩, rfl, rfl⟩
    | slave dev' sink slaveOpen htap' hdoor' htx' hrole' hsink =>
        rw [hcfg, hmaster] at hrole'
        exact absurd hrole' (by simp)
    | silent htap' hdoor' htx' =>
        rw [hcfg, hsends] at htx'
        exact absurd htx' (by simp)

/-- A master that a slot is opened for has a rate door with nothing waiting. -/
theorem listenerServe_rateDoor {cfg : ListenerCfg} {fits : Bool} {a : OpenAnswers} {dev : String}
    (htap : cfg.tap = false) (hdoor : cfg.doorOnly = false) (hjoin : cfg.joinBoxMaster = false)
    (hrole : cfg.role = .master) (htx : cfg.txIf = some dev)
    (hup : (listenerServe cfg fits a).2 = true) :
    RateDoor (listenerServe cfg fits a).1 ∧ waitingRate (listenerServe cfg fits a).1 = 0 := by
  rcases listenerServe_cases cfg fits a with hnone | ⟨M, feeds, hM, hres⟩
  · exact absurd (hup.symm.trans (congrArg Prod.snd hnone)) (by simp)
  · obtain ⟨-, htxP, hroleP, htapP, hdoorP, hjoinP, -⟩ :=
      listenerPrepared_cfg { Listener.zeroed with cfg := cfg } a
    have hdoorP' : (listenerPrepared { Listener.zeroed with cfg := cfg } a).cfg.doorOnly = false := by
      rw [hdoorP]
      simp [hdoor, htap]
    rw [hres]
    cases hM with
    | tap hup => exact absurd (hup.symm.trans htap) (by simp)
    | vacant hup => exact absurd (hup.symm.trans hdoorP') (by simp)
    | door hup => exact absurd (hup.symm.trans hdoorP') (by simp)
    | master dev' src htap' hasks hfits htx' hrole' hsrc =>
        exact ⟨⟨rfl, htapP.trans htap, hdoorP', hjoinP.trans hjoin, hroleP.trans hrole,
          ⟨dev, htxP.trans htx⟩, _, rfl, rfl⟩, rfl⟩
    | slave dev' sink slaveOpen htap' hdoor' htx' hrole' hsink =>
        exact absurd (hrole'.symm.trans hrole) (by simp)
    | silent htap' hdoor' htx' => exact absurd (htx'.symm.trans htx) (by simp)

/-! ### A run of the door -/

/-- Every re-open at a rate comes up, and its receiver runs at the rate forced on it. -/
def Reopens (s : Listener × Nat) : RateEvent → Prop
  | .assertion _ _ => True
  | .tick hearing t =>
      match (rateReopenTick hearing s.1 t).2 with
      | .reopenRate hz =>
          (rateReopenTick hearing s.1 t).1.opened = true ∧ t.reopen.sampleRate = hz
      | _ => True

/-- After a poll the engine runs at the last rate accepted, or at the one it was booted at. -/
def RateFollows (s : Listener × Nat) : RateEvent → Prop
  | .assertion _ _ => True
  | .tick hearing t => (rateReopenTick hearing s.1 t).1.sampleRate = s.2

/-- What a poll finds waiting is not older than an acceptance of the running rate, and a lost
interface does not keep it from carrying out a change. -/
def NothingStale (s : Listener × Nat) : RateEvent → Prop
  | .assertion _ _ => True
  | .tick _ t =>
      if s.1.rxStarted && t.ifaceLost then s.2 = s.1.sampleRate
      else s.2 = s.1.sampleRate → waitingRate s.1 = 0

/-- **The last accepted rate runs or waits, and what waits is not what runs.** -/
structure RateHeld (s : Listener × Nat) : Prop where
  door : RateDoor s.1
  held : s.2 = s.1.sampleRate ∨ waitingRate s.1 = s.2 ∧ 0 < s.2
  waits : waitingRate s.1 ≠ 0 → waitingRate s.1 ≠ s.1.sampleRate

theorem RateHeld.assertion {s : Listener × Nat} (h : RateHeld s) (pod : PropsPod)
    (drivable : RateMask) : RateHeld (rateMachine.step s (.assertion pod drivable)).1 := by
  show RateHeld ((sinkDoorAssertRate s.1 pod drivable).1,
    noteRate s.2 (.answered (sinkDoorAssertRate s.1 pod drivable).2
      (reacRatePropParse pod).requested))
  by_cases haccepted : (sinkDoorAssertRate s.1 pod drivable).2 = some .accepted
  · obtain ⟨hfiled, hpos⟩ := sinkDoorAssertRate_accepted haccepted
    rw [hfiled, haccepted]
    have hwait := h.door.waitingRate_write (reacRatePropParse pod).requested
    refine ⟨h.door.rateWrite _ _, ?_, ?_⟩
    · by_cases hruns : (reacRatePropParse pod).requested = s.1.sampleRate
      · exact Or.inl hruns
      · exact Or.inr ⟨by rw [hwait, if_neg hruns]; rfl, hpos⟩
    · show waitingRate (listenerRateWrite s.1 _ true) ≠ 0 →
        waitingRate (listenerRateWrite s.1 _ true) ≠ s.1.sampleRate
      rw [hwait]
      split
      · exact h.waits
      · rename_i hruns
        exact fun _ => hruns
  · rw [sinkDoorAssertRate_refused haccepted]
    have hnote : noteRate s.2 (.answered (sinkDoorAssertRate s.1 pod drivable).2
        (reacRatePropParse pod).requested) = s.2 := by
      unfold noteRate
      split
      · rename_i hout
        exact absurd (RateOut.answered.inj hout).1 haccepted
      · rfl
    rw [hnote]
    exact h

/-- A poll under its guard keeps the last accepted rate. -/
theorem RateHeld.tick {s : Listener × Nat} (h : RateHeld s) {hearing : Bool} {t : TickAnswers}
    (hreopens : Reopens s (.tick hearing t)) (hstale : NothingStale s (.tick hearing t)) :
    RateHeld ((rateReopenTick hearing s.1 t).1, s.2) ∧
      (rateReopenTick hearing s.1 t).1.sampleRate = s.2 := by
  simp only [NothingStale] at hstale
  cases hlost : s.1.rxStarted && t.ifaceLost with
  | true =>
      rw [hlost, if_pos rfl] at hstale
      rw [h.door.tick_lost hlost]
      exact ⟨h, hstale.symm⟩
  | false =>
      rw [hlost, if_neg Bool.false_ne_true] at hstale
      by_cases hnone : waitingRate s.1 = 0
      · rw [h.door.tick_idle hlost hnone]
        have hruns : s.2 = s.1.sampleRate := by
          rcases h.held with hruns | ⟨hwaits, hpos⟩
          · exact hruns
          · omega
        exact ⟨h, hruns.symm⟩
      · have hwaits : waitingRate s.1 = s.2 := by
          rcases h.held with hruns | ⟨hwaits, -⟩
          · exact absurd (hstale hruns) hnone
          · exact hwaits
        have htick := h.door.tick_reopens hearing hlost (Nat.pos_of_ne_zero hnone)
        simp only [Reopens, htick] at hreopens
        obtain ⟨hup, hrate⟩ := hreopens
        obtain ⟨hdoor, hempty, hsample⟩ := h.door.reopened hup
        rw [htick]
        have hruns : (listenerReopenAtRate s.1 (waitingRate s.1) t.fits t.reopen).sampleRate =
            s.2 := by rw [hsample, hrate, hwaits]
        exact ⟨⟨hdoor, Or.inl hruns.symm, fun hne => absurd hempty hne⟩, hruns⟩

/-- A poll that takes an older rate runs at it. -/
theorem RateHeld.tick_stale {s : Listener × Nat} (h : RateHeld s) {hearing : Bool}
    {t : TickAnswers} (hreopens : Reopens s (.tick hearing t))
    (hstale : ¬ NothingStale s (.tick hearing t)) :
    (rateReopenTick hearing s.1 t).1.sampleRate ≠ s.2 := by
  simp only [NothingStale] at hstale
  cases hlost : s.1.rxStarted && t.ifaceLost with
  | true =>
      rw [hlost, if_pos rfl] at hstale
      rw [h.door.tick_lost hlost]
      exact fun heq => hstale heq.symm
  | false =>
      rw [hlost, if_neg Bool.false_ne_true] at hstale
      obtain ⟨hruns, hwaits⟩ := Classical.not_imp.mp hstale
      have htick := h.door.tick_reopens hearing hlost (Nat.pos_of_ne_zero hwaits)
      simp only [Reopens, htick] at hreopens
      obtain ⟨hup, hrate⟩ := hreopens
      rw [htick, (h.door.reopened hup).2.2, hrate, hruns]
      exact h.waits hwaits

/-- **The last accepted rate wins**, in a run whose re-opens all come up, if and only if no
poll takes a rate that an acceptance of the running one came after.  An assertion that is
not accepted moves nothing. -/
theorem last_rate_wins {L : Listener} (hdoor : RateDoor L) (hfresh : waitingRate L = 0)
    (run : List RateEvent) (hreopens : rateMachine.Guarded Reopens (L, L.sampleRate) run) :
    (rateMachine.Guarded RateFollows (L, L.sampleRate) run ↔
      rateMachine.Guarded NothingStale (L, L.sampleRate) run) ∧
    ∀ (M : Listener) pod drivable, (sinkDoorAssertRate M pod drivable).2 ≠ some .accepted →
      (sinkDoorAssertRate M pod drivable).1 = M := by
  refine ⟨?_, fun M pod drivable => sinkDoorAssertRate_refused⟩
  have hheld : RateHeld (L, L.sampleRate) :=
    ⟨hdoor, Or.inl rfl, fun hne => absurd hfresh hne⟩
  have hboth := rateMachine.guarded_iff (I := RateHeld)
    (G := fun s i => Reopens s i ∧ NothingStale s i) (P := fun s i => Reopens s i ∧ RateFollows s i)
    (fun s i h hg => match i with
      | .assertion pod drivable => h.assertion pod drivable
      | .tick _ _ => (h.tick hg.1 hg.2).1)
    (fun s i h => match i with
      | .assertion _ _ => Iff.rfl
      | .tick _ _ => and_congr_right fun hr =>
          ⟨fun hf => by_contra fun hs => h.tick_stale hr hs hf, fun hs => (h.tick hr hs).2⟩)
    run (L, L.sampleRate) hheld
  rw [rateMachine.guarded_and, rateMachine.guarded_and] at hboth
  exact ⟨fun hf => (hboth.mp ⟨hreopens, hf⟩).2, fun hs => (hboth.mpr ⟨hreopens, hs⟩).2⟩

/-- A master served at 48 kHz. -/
def rateSegment : Listener := (listenerServe (segmentCfg "eth0" .master) true (opensAt 48000)).1

/-- A poll that finds its interface and re-opens at that rate. -/
def rateTick (hz : Nat) : RateEvent :=
  .tick true { ifaceLost := false, fits := true, reopen := opensAt hz }

/-- An assertion of a rate an engine can drive. -/
def rateAsked (hz : Int) : RateEvent :=
  .assertion (.params [.str "reac.cfg.rate", .int hz])
    { hz44100 := true, hz48000 := true, hz96000 := true }

theorem rateSegment_door : RateDoor rateSegment :=
  (listenerServe_rateDoor rfl rfl rfl rfl (show _ = some "eth0" from rfl) rfl).1

/-- 96 kHz is accepted and carried out, then 48 kHz. -/
theorem last_rate_wins_twice :
    rateMachine.Guarded RateFollows (rateSegment, rateSegment.sampleRate)
      [rateAsked 96000, rateTick 96000, rateAsked 48000, rateTick 48000] ↔
    rateMachine.Guarded NothingStale (rateSegment, rateSegment.sampleRate)
      [rateAsked 96000, rateTick 96000, rateAsked 48000, rateTick 48000] :=
  (last_rate_wins rateSegment_door rfl
    [rateAsked 96000, rateTick 96000, rateAsked 48000, rateTick 48000]
    ⟨trivial, ⟨rfl, rfl⟩, trivial, ⟨rfl, rfl⟩, trivial⟩).1

/-- 96 kHz is accepted, then the running 48 kHz, before the poll comes: it re-opens the
segment at 96 kHz. -/
theorem older_rate_runs :
    rateMachine.Guarded Reopens (rateSegment, rateSegment.sampleRate)
      [rateAsked 96000, rateAsked 48000, rateTick 96000] ∧
    ¬ rateMachine.Guarded RateFollows (rateSegment, rateSegment.sampleRate)
      [rateAsked 96000, rateAsked 48000, rateTick 96000] :=
  ⟨⟨trivial, trivial, ⟨rfl, rfl⟩, trivial⟩,
    fun h => absurd (show 96000 = 48000 from h.2.2.1) (by decide)⟩

end ReacPw
