/-
When the receive gate moves.

While nobody has hinted, the address being timed is the one the last ticks brought, and
its clock started at the first of them; when none is timed, the last tick brought no
address, or the one the gate is locked to (`GateTold`).  So the clock tells for how long
any address that could move the lock has been the answer, and the rest is arithmetic.
-/
import Mathlib.Data.List.Induction
import ReacPw.Lib.Held
import ReacPw.RxBind

namespace ReacPw

open Held

/-- Whom the gate is locked to. -/
def RxBind.lock (b : RxBind) : Option Mac48 := if b.locked then some b.lockedMac else none

/-- The hunt has named somebody. -/
def Hinted (run : List RxBindCall) : Prop := ∃ mac, .hint mac ∈ run

/-- The tick moves the lock to `m`, and resets the peer once. -/
def TickMoves (b : RxBind) (t : RxBindTick) (m : Mac48) : Prop :=
  (reacRxBindTick b t).2 = { moved := true, resets := [m] } ∧ (reacRxBindTick b t).1.lock = some m

/-- The tick moves nothing and resets nothing. -/
def TickKeeps (b : RxBind) (t : RxBindTick) : Prop :=
  (reacRxBindTick b t).2 = {} ∧ (reacRxBindTick b t).1.lock = b.lock

/-- The address has been every tick's answer for the whole window. -/
def HeldUntil (t : RxBindTick) (m : Mac48) (before : List RxBindCall) : Prop :=
  HeldFor (·.learnedMac48 = m) (·.nowNs) reacRxBindStableNs t.nowNs (rxTicks before)

/-! ### One tick -/

@[simp] theorem lock_lockTo (b : RxBind) (mac : Mac48) (fromHint : Bool) :
    (lockTo b mac fromHint).lock = some mac := by simp [RxBind.lock, lockTo]

theorem lock_eq_some {b : RxBind} {m : Mac48} :
    b.lock = some m ↔ b.locked = true ∧ b.lockedMac = m := by
  unfold RxBind.lock
  split <;> simp_all

/-- What a tick can do. -/
inductive TickDid (b : RxBind) (t : RxBindTick) : RxBind × RxBindDone → Prop
  /-- The hunt's answer stands. -/
  | stands (hhint : b.locked = true ∧ b.fromHint = true) : TickDid b t (b, {})
  | idle (hidle : t.learnedMac48 = 0#48 ∨ b.lock = some t.learnedMac48) :
      TickDid b t ({ b with haveCand := false }, {})
  | restarts (hsome : t.learnedMac48 ≠ 0#48) (hother : b.lock ≠ some t.learnedMac48)
      (hnew : ¬(b.haveCand = true ∧ b.cand = t.learnedMac48)) :
      TickDid b t
        ({ b with cand := t.learnedMac48, haveCand := true, candSinceNs := t.nowNs }, {})
  | waits (hcand : b.haveCand = true ∧ b.cand = t.learnedMac48)
      (hwait : t.framesOk < reacRxBindFrames ∨ t.nowNs < b.candSinceNs ∨
        t.nowNs - b.candSinceNs < reacRxBindStableNs) : TickDid b t (b, {})
  | moves (hhint : ¬(b.locked = true ∧ b.fromHint = true)) (hsome : t.learnedMac48 ≠ 0#48)
      (hother : b.lock ≠ some t.learnedMac48)
      (hcand : b.haveCand = true ∧ b.cand = t.learnedMac48)
      (hframes : reacRxBindFrames ≤ t.framesOk)
      (hheld : b.candSinceNs + reacRxBindStableNs ≤ t.nowNs) :
      TickDid b t
        ({ lockTo b t.learnedMac48 false with haveCand := false },
          { moved := true, resets := [t.learnedMac48] })

theorem reacRxBindTick_did (b : RxBind) (t : RxBindTick) : TickDid b t (reacRxBindTick b t) := by
  unfold reacRxBindTick
  split
  · rename_i hhint
    exact .stands (by simpa using hhint)
  · rename_i hhint
    split
    · rename_i hnone
      exact .idle (Or.inl hnone)
    · rename_i hsome
      split
      · rename_i hsame
        exact .idle (Or.inr (lock_eq_some.mpr hsame))
      · rename_i hsame
        have hother : b.lock ≠ some t.learnedMac48 := fun h => hsame (lock_eq_some.mp h)
        split
        · rename_i hnew
          refine .restarts hsome hother ?_
          rintro ⟨hhave, hcand⟩
          simp [hhave, hcand] at hnew
        · rename_i hcand
          have hcand : b.haveCand = true ∧ b.cand = t.learnedMac48 := by simpa using hcand
          split
          · rename_i hwait
            exact .waits hcand hwait
          · rename_i hdone
            exact .moves (by simpa using hhint) hsome hother hcand (by omega) (by omega)

/-! ### What a run leaves -/

theorem rxTicks_tick (run : List RxBindCall) (t : RxBindTick) :
    rxTicks (run ++ [.tick t]) = rxTicks run ++ [t] := by simp [rxTicks]

theorem hinted_tick {run : List RxBindCall} {t : RxBindTick} :
    Hinted (run ++ [.tick t]) ↔ Hinted run := by simp [Hinted]

theorem hinted_hint (run : List RxBindCall) (mac : Mac48) : Hinted (run ++ [.hint mac]) :=
  ⟨mac, by simp⟩

/-- What the gate knows of a run. -/
structure GateTold (b : RxBind) (run : List RxBindCall) : Prop where
  hinted : Hinted run → b.locked = true ∧ b.fromHint = true
  unhinted : ¬Hinted run → b.fromHint = false
  /-- An address is timed from the first of the last ticks that brought it. -/
  timed : ¬Hinted run → b.haveCand = true →
    b.cand ≠ 0#48 ∧ b.lock ≠ some b.cand ∧
      Since (·.learnedMac48 = b.cand) (·.nowNs) b.candSinceNs (rxTicks run)
  /-- None is timed: the last tick brought none that could move the lock. -/
  untimed : ¬Hinted run → b.haveCand = false →
    ∀ m, m ≠ 0#48 → b.lock ≠ some m → Broken (·.learnedMac48 = m) (rxTicks run)

theorem gateTold_init : GateTold reacRxBindInit [] where
  hinted := by rintro ⟨mac, hmem⟩; exact absurd hmem List.not_mem_nil
  unhinted := fun _ => rfl
  timed := fun _ h => absurd h Bool.false_ne_true
  untimed := fun _ _ _ _ _ => broken_nil

/-- While another address is timed, or none, this one's stretch is broken. -/
theorem GateTold.broken {b : RxBind} {run : List RxBindCall} (h : GateTold b run)
    (hhint : ¬Hinted run) {m : Mac48} (hm : m ≠ 0#48) (hlock : b.lock ≠ some m)
    (hcand : ¬(b.haveCand = true ∧ b.cand = m)) : Broken (·.learnedMac48 = m) (rxTicks run) := by
  cases hhave : b.haveCand with
  | false => exact h.untimed hhint hhave m hm hlock
  | true =>
      intro x hx hxm
      have hlast := (h.timed hhint hhave).2.2.last x hx
      exact hcand ⟨hhave, hlast.symm.trans hxm⟩

theorem GateTold.hint {b : RxBind} {run : List RxBindCall} (mac : Mac48) :
    GateTold (reacRxBindHint b mac).1 (run ++ [.hint mac]) where
  hinted := fun _ => ⟨rfl, rfl⟩
  unhinted := fun h => absurd (hinted_hint run mac) h
  timed := fun h _ => absurd (hinted_hint run mac) h
  untimed := fun h _ => absurd (hinted_hint run mac) h

theorem GateTold.tick {b : RxBind} {run : List RxBindCall} (h : GateTold b run)
    (t : RxBindTick) : GateTold (reacRxBindTick b t).1 (run ++ [.tick t]) := by
  generalize hdone : reacRxBindTick b t = done
  have hdid := hdone ▸ reacRxBindTick_did b t
  cases hdid with
  | stands hstands =>
      have hhint : Hinted run := by
        by_contra hnot
        exact absurd hstands.2 (by simp [h.unhinted hnot])
      refine ⟨fun _ => hstands, ?_, ?_, ?_⟩
      · exact fun hnot => absurd (hinted_tick.mpr hhint) hnot
      · exact fun hnot => absurd (hinted_tick.mpr hhint) hnot
      · exact fun hnot => absurd (hinted_tick.mpr hhint) hnot
  | idle hidle =>
      refine ⟨fun hh => h.hinted (hinted_tick.mp hh),
        fun hh => h.unhinted (fun hr => hh (hinted_tick.mpr hr)), fun _ hhave => absurd hhave Bool.false_ne_true, ?_⟩
      intro hh _ m hm hlock
      rw [rxTicks_tick, broken_concat]
      rintro rfl
      rcases hidle with hnone | hsame
      · exact hm hnone
      · exact hlock hsame
  | restarts hsome hother hnew =>
      refine ⟨fun hh => h.hinted (hinted_tick.mp hh),
        fun hh => h.unhinted (fun hr => hh (hinted_tick.mpr hr)), ?_,
        fun _ hhave => absurd hhave.symm Bool.false_ne_true⟩
      intro hh _
      have hhint : ¬Hinted run := fun hr => hh (hinted_tick.mpr hr)
      refine ⟨hsome, hother, ?_⟩
      rw [rxTicks_tick]
      exact Since.begin (h.broken hhint hsome hother hnew) rfl
  | waits hcand hwait =>
      refine ⟨fun hh => h.hinted (hinted_tick.mp hh),
        fun hh => h.unhinted (fun hr => hh (hinted_tick.mpr hr)), ?_,
        fun _ hhave => by simp [hcand.1] at hhave⟩
      intro hh hhave
      have hhint : ¬Hinted run := fun hr => hh (hinted_tick.mpr hr)
      obtain ⟨hsome, hother, hsince⟩ := h.timed hhint hhave
      refine ⟨hsome, hother, ?_⟩
      rw [rxTicks_tick]
      exact hsince.concat hcand.2.symm
  | moves hstands hsome hother hcand hframes hheld =>
      have hhint : ¬Hinted run := fun hr => hstands (h.hinted hr)
      refine ⟨fun hh => absurd (hinted_tick.mp hh) hhint, fun _ => rfl,
        fun _ hhave => absurd hhave Bool.false_ne_true, ?_⟩
      intro hh _ m hm hlock
      rw [rxTicks_tick, broken_concat]
      rintro rfl
      exact hlock (lock_lockTo b _ false)

/-- **The clock of the candidate tells the run.** -/
theorem gateTold_run (run : List RxBindCall) :
    GateTold (rxBindMachine.after reacRxBindInit run) run := by
  induction run using List.reverseRecOn with
  | nil => exact gateTold_init
  | append_singleton run call ih =>
      rw [rxBindMachine.after_concat]
      cases call with
      | hint mac => exact GateTold.hint mac
      | tick t => exact ih.tick t

/-! ### When the lock moves -/

/-- A tick that moves nothing keeps the lock and leaves the peer alone. -/
theorem tickKeeps_or_moves (b : RxBind) (t : RxBindTick) :
    TickKeeps b t ∨ TickMoves b t t.learnedMac48 := by
  unfold TickKeeps TickMoves
  generalize hdone : reacRxBindTick b t = done
  have hdid := hdone ▸ reacRxBindTick_did b t
  cases hdid with
  | stands => exact Or.inl ⟨rfl, rfl⟩
  | idle => exact Or.inl ⟨rfl, rfl⟩
  | restarts => exact Or.inl ⟨rfl, rfl⟩
  | waits => exact Or.inl ⟨rfl, rfl⟩
  | moves => exact Or.inr ⟨rfl, lock_lockTo b _ false⟩

theorem GateTold.tickMoves_iff {b : RxBind} {run : List RxBindCall} (h : GateTold b run)
    {t : RxBindTick} (hclock : RxClock (run ++ [.tick t])) (m : Mac48) :
    TickMoves b t m ↔
      ¬Hinted run ∧ t.learnedMac48 = m ∧ m ≠ 0#48 ∧ b.lock ≠ some m ∧
        reacRxBindFrames ≤ t.framesOk ∧ HeldUntil t m run := by
  have hbefore : ((rxTicks run).map (·.nowNs)).Pairwise (· ≤ ·) := by
    unfold RxClock at hclock
    rw [rxTicks_tick, List.map_append] at hclock
    exact (List.pairwise_append.mp hclock).1
  have hwindow : ¬Hinted run → b.haveCand = true ∧ b.cand = m →
      (HeldUntil t m run ↔ b.candSinceNs + reacRxBindStableNs ≤ t.nowNs) := by
    rintro hhint ⟨hhave, rfl⟩
    exact (h.timed hhint hhave).2.2.heldFor_iff hbefore
  unfold TickMoves
  generalize hdone : reacRxBindTick b t = done
  have hdid := hdone ▸ reacRxBindTick_did b t
  cases hdid with
  | stands hstands =>
      refine ⟨fun hmoves => by simp at hmoves, ?_⟩
      rintro ⟨hhint, _⟩
      exact absurd hstands.2 (by simp [h.unhinted hhint])
  | idle hidle =>
      refine ⟨fun hmoves => by simp at hmoves, ?_⟩
      rintro ⟨_, rfl, hm, hlock, _⟩
      exact absurd hidle (by simp [hm, hlock])
  | restarts hsome hother hnew =>
      refine ⟨fun hmoves => by simp at hmoves, ?_⟩
      rintro ⟨hhint, rfl, _, _, _, hheld⟩
      exact absurd hheld (h.broken hhint hsome hother hnew).not_heldFor
  | waits hcand hwait =>
      refine ⟨fun hmoves => by simp at hmoves, ?_⟩
      rintro ⟨hhint, rfl, _, _, hframes, hheld⟩
      have hlong := (hwindow hhint hcand).mp hheld
      omega
  | moves hstands hsome hother hcand hframes hheld =>
      have hhint : ¬Hinted run := fun hr => hstands (h.hinted hr)
      constructor
      · rintro ⟨hreset, _⟩
        have hm : t.learnedMac48 = m := by simpa using hreset
        subst hm
        exact ⟨hhint, rfl, hsome, hother, hframes, (hwindow hhint hcand).mpr hheld⟩
      · rintro ⟨_, rfl, _⟩
        exact ⟨rfl, lock_lockTo b _ false⟩

/-- **The gate moves only to a master that held.**  After any run a tick moves the lock to
`m` exactly when nobody has hinted, `m` is its answer, neither none nor whom the gate is
locked to, enough frames are decoded, and `m` has been the answer for the whole window;
every other tick keeps the lock.  A hint locks at once, and no tick after it moves. -/
theorem rx_gate_moves_iff (before : List RxBindCall) :
    (∀ t, RxClock (before ++ [.tick t]) →
      (∀ m, TickMoves (rxBindMachine.after reacRxBindInit before) t m ↔
        ¬Hinted before ∧ t.learnedMac48 = m ∧ m ≠ 0#48 ∧
          (rxBindMachine.after reacRxBindInit before).lock ≠ some m ∧
          reacRxBindFrames ≤ t.framesOk ∧ HeldUntil t m before) ∧
      ((∀ m, ¬TickMoves (rxBindMachine.after reacRxBindInit before) t m) →
        TickKeeps (rxBindMachine.after reacRxBindInit before) t) ∧
      (Hinted before ∨ ¬HeldUntil t t.learnedMac48 before →
        TickKeeps (rxBindMachine.after reacRxBindInit before) t)) ∧
    ∀ mac, (reacRxBindHint (rxBindMachine.after reacRxBindInit before) mac).1.lock = some mac ∧
      (reacRxBindHint (rxBindMachine.after reacRxBindInit before) mac).2 =
        { moved := false, resets := [mac] } := by
  have htold := gateTold_run before
  refine ⟨fun t hclock => ⟨htold.tickMoves_iff hclock, ?_, ?_⟩, fun mac => ⟨lock_lockTo _ _ _, rfl⟩⟩
  · intro hnone
    exact (tickKeeps_or_moves _ t).resolve_right (hnone _)
  · intro hshort
    refine (tickKeeps_or_moves _ t).resolve_right fun hmoves => ?_
    obtain ⟨hhint, _, _, _, _, hheld⟩ := (htold.tickMoves_iff hclock _).mp hmoves
    exact hshort.elim hhint fun hnot => hnot hheld

/-- A desk that has been the answer for half a second is bound. -/
theorem rx_gate_moves_desk :
    TickMoves (rxBindMachine.after reacRxBindInit [.tick ⟨0x40#48, 0, 1000⟩])
      ⟨0x40#48, 8, 500001000⟩ 0x40#48 :=
  (((rx_gate_moves_iff [.tick ⟨0x40#48, 0, 1000⟩]).1 ⟨0x40#48, 8, 500001000⟩ (by decide)).1
    0x40#48).mpr
    ⟨by simp [Hinted], rfl, by decide, by decide, by decide,
      [], ⟨0x40#48, 0, 1000⟩, [], rfl, by decide, by simp⟩

end ReacPw
