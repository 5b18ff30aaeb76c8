/-
The record against the kernel.

The world beside the record is the root qdisc of every device, and for an etf who
put it there: somebody else, this daemon by an install the kernel ACKed, or this
daemon by an install whose read-back saw it.  Calls change the world as their
answers say they did, and anybody may replace a root between two calls.

An etf the daemon knows it installed stays on record while every call keeps track
of it (`KeepsTrack`): it names the device, a sweep reads the etf that is there,
and a re-install that fails has taken it away.  Each of the three is needed, and
so is the read-back (`etf_lost_from_record`).

That nothing but an etf is ever removed needs no condition: every removal follows
a read of its device that said so.
-/
import Mathlib.Logic.Function.Basic
import ReacPw.Lib.Run
import ReacPw.Qdisc

namespace ReacPw

/-! ### The world -/

/-- Who put an etf on a device. -/
inductive EtfOwner where
  | foreign
  /-- This daemon; the kernel ACKed it and the read-back did not see it. -/
  | acked
  /-- This daemon; ACKed and seen by the read-back. -/
  | confirmed
  deriving DecidableEq, Repr

inductive RootQdisc where
  | none
  | other
  | etf (owner : EtfOwner)
  deriving DecidableEq, Repr

/-- What the calls of one function did to the devices. -/
def rootsAfter (roots : Nat → RootQdisc) : List QdiscCall → Nat → RootQdisc
  | [] => roots
  | .read _ _ :: rest => rootsAfter roots rest
  | .remove idx err :: rest =>
      rootsAfter (if err = 0 then Function.update roots idx .none else roots) rest
  | .install idx err strips :: rest =>
      let owner := if rest.head? = some (.read idx .present) then .confirmed else .acked
      rootsAfter
        (if err = 0 then Function.update roots idx (.etf owner)
          else if strips then Function.update roots idx .none
          else roots) rest

structure QdiscWorld where
  q : ReacQdisc
  roots : Nat → RootQdisc

/-- What may happen to the record or under it. -/
inductive QdiscOp where
  | arm (ifname : String) (wantEtf : Bool) (a : QdiscAnswers)
  | disarm (ifname : String) (a : QdiscAnswers)
  /-- Somebody else replaces a device's root. -/
  | outside (ifindex : Nat) (etf : Bool)
  deriving DecidableEq

def qdiscMachine : StepMachine QdiscWorld QdiscOp (List QdiscCall) where
  step s
    | .arm ifname want a =>
        let r := reacQdiscArm s.q ifname want a
        (⟨r.q, rootsAfter s.roots r.calls⟩, r.calls)
    | .disarm ifname a =>
        let r := reacQdiscDisarm s.q ifname a
        (⟨r.q, rootsAfter s.roots r.calls⟩, r.calls)
    | .outside idx etf =>
        (⟨s.q, Function.update s.roots idx (if etf then .etf .foreign else .other)⟩, [])

/-! ### On record -/

/-- An etf the daemon knows it installed is on record. -/
structure OnRecord (s : QdiscWorld) : Prop where
  named : ∀ idx, s.roots idx = .etf .confirmed → s.q.installed = true ∧ s.q.ifindex = idx
  resolved : s.q.installed = true → s.q.ifindex ≠ 0

/-- A call keeps track of an etf standing on `idx`. -/
structure ArmKeepsTrack (idx : Nat) (ifname : String) (want : Bool) (a : QdiscAnswers) :
    Prop where
  named : ifname ≠ ""
  resolved : a.ifindex = idx
  seen : want = false → a.before = .present
  stripped : want = true → a.installErr ≠ 0 → a.strips = true

instance (idx : Nat) (ifname : String) (want : Bool) (a : QdiscAnswers) :
    Decidable (ArmKeepsTrack idx ifname want a) :=
  decidable_of_iff (ifname ≠ "" ∧ a.ifindex = idx ∧ (want = false → a.before = .present) ∧
      (want = true → a.installErr ≠ 0 → a.strips = true))
    ⟨fun ⟨h₁, h₂, h₃, h₄⟩ => ⟨h₁, h₂, h₃, h₄⟩, fun ⟨h₁, h₂, h₃, h₄⟩ => ⟨h₁, h₂, h₃, h₄⟩⟩

/-- While the recorded etf stands, the calls keep track of it. -/
def KeepsTrack (s : QdiscWorld) : QdiscOp → Prop
  | .arm ifname want a =>
      s.roots s.q.ifindex = .etf .confirmed → ArmKeepsTrack s.q.ifindex ifname want a
  | .disarm ifname a =>
      s.roots s.q.ifindex = .etf .confirmed → ArmKeepsTrack s.q.ifindex ifname false a
  | .outside _ _ => True

instance (s : QdiscWorld) : ∀ op, Decidable (KeepsTrack s op)
  | .arm ifname want a => inferInstanceAs (Decidable (_ → ArmKeepsTrack _ ifname want a))
  | .disarm ifname a => inferInstanceAs (Decidable (_ → ArmKeepsTrack _ ifname false a))
  | .outside _ _ => inferInstanceAs (Decidable True)

/-- With nothing recorded, no root may carry an etf of ours. -/
theorem OnRecord.ofForgotten {q : ReacQdisc} {roots : Nat → RootQdisc}
    (hq : q.installed = false) (hnone : ∀ idx, roots idx ≠ .etf .confirmed) :
    OnRecord ⟨q, roots⟩ where
  named idx hidx := absurd hidx (hnone idx)
  resolved hins := absurd (hins.symm.trans hq) (by decide)

/-- **One arming that keeps track keeps the record.** -/
theorem arm_onRecord {s : QdiscWorld} {ifname : String} {want : Bool} {a : QdiscAnswers}
    (h : OnRecord s)
    (hk : s.roots s.q.ifindex = .etf .confirmed → ArmKeepsTrack s.q.ifindex ifname want a) :
    OnRecord ⟨(reacQdiscArm s.q ifname want a).q,
      rootsAfter s.roots (reacQdiscArm s.q ifname want a).calls⟩ := by
  -- what standing on some device asks of the call
  have hkeeps : ∀ idx, s.roots idx = .etf .confirmed →
      s.q.installed = true ∧ s.q.ifindex = idx ∧ ArmKeepsTrack idx ifname want a := by
    intro idx hidx
    obtain ⟨hins, hq⟩ := h.named idx hidx
    subst hq
    exact ⟨hins, rfl, hk hidx⟩
  -- a device the call rewrites is the one that was on record, or carries none of ours
  have hother : ∀ idx r, Function.update s.roots a.ifindex r idx = .etf .confirmed →
      r ≠ .etf .confirmed → False := by
    intro idx r hidx hr
    by_cases he : idx = a.ifindex
    · rw [he, Function.update_self] at hidx
      exact hr hidx
    · rw [Function.update_of_ne he] at hidx
      exact he (hkeeps idx hidx).2.2.resolved.symm
  have hexit := reacQdiscArm_exit s.q ifname want a
  generalize reacQdiscArm s.q ifname want a = r at hexit ⊢
  obtain ⟨q', rc, calls⟩ := r
  cases hexit with
  | unresolved hnone =>
      refine ⟨fun idx hidx => ?_, by simp⟩
      obtain ⟨hins, hq, hkept⟩ := hkeeps idx hidx
      rcases hnone with hn | hi
      · exact absurd hn hkept.named
      · have := h.resolved hins
        rw [hq, ← hkept.resolved] at this
        exact absurd hi this
  | left hname hq hb =>
      refine .ofForgotten hq fun idx hidx => ?_
      exact absurd ((hkeeps idx hidx).2.2.seen rfl) hb
  | kept hname hb herr hours =>
      refine ⟨fun idx hidx => ?_, h.resolved⟩
      have hidx : (if a.removeErr = 0 then Function.update s.roots a.ifindex .none
          else s.roots) idx = .etf .confirmed := hidx
      rw [if_neg herr] at hidx
      exact h.named idx hidx
  | swept hname hq hb hours =>
      refine .ofForgotten hq fun idx hidx => ?_
      have hidx : (if a.removeErr = 0 then Function.update s.roots a.ifindex .none
          else s.roots) idx = .etf .confirmed := hidx
      by_cases herr : a.removeErr = 0
      · rw [if_pos herr] at hidx
        exact (hother idx _ hidx (by simp)).elim
      · rw [if_neg herr] at hidx
        obtain ⟨hins, hqi, hkept⟩ := hkeeps idx hidx
        exact absurd ⟨hins, hqi.trans hkept.resolved.symm⟩ (hours herr)
  | refused hname hq herr =>
      refine .ofForgotten hq fun idx hidx => ?_
      have hidx : (if a.installErr = 0 then _ else if a.strips then
          Function.update s.roots a.ifindex .none else s.roots) idx = .etf .confirmed := hidx
      rw [if_neg herr] at hidx
      by_cases hst : a.strips = true
      · rw [if_pos hst] at hidx
        exact (hother idx _ hidx (by simp)).elim
      · rw [if_neg hst] at hidx
        exact absurd ((hkeeps idx hidx).2.2.stripped rfl herr) hst
  | unseen hname hq herr hback =>
      refine .ofForgotten hq fun idx hidx => ?_
      have hidx : Function.update s.roots a.ifindex (.etf (if
          some (QdiscCall.read a.ifindex a.readBack) = some (.read a.ifindex .present)
          then .confirmed else .acked)) idx = .etf .confirmed := hidx
      rw [if_neg (by simpa using hback)] at hidx
      exact (hother idx _ hidx (by simp)).elim
  | installed hname hq hqi herr hback =>
      refine ⟨fun idx hidx => ?_, fun _ => by rw [hqi]; exact hname⟩
      have hidx : Function.update s.roots a.ifindex (.etf (if
          some (QdiscCall.read a.ifindex .present) = some (.read a.ifindex .present)
          then .confirmed else .acked)) idx = .etf .confirmed := hidx
      by_cases he : idx = a.ifindex
      · exact ⟨hq, by rw [hqi, he]⟩
      · rw [Function.update_of_ne he] at hidx
        exact absurd (hkeeps idx hidx).2.2.resolved.symm he

theorem qdiscStep_onRecord {s : QdiscWorld} {op : QdiscOp} (h : OnRecord s)
    (hk : KeepsTrack s op) : OnRecord (qdiscMachine.step s op).1 := by
  cases op with
  | arm ifname want a => exact arm_onRecord h hk
  | disarm ifname a => exact arm_onRecord h hk
  | outside idx etf =>
      refine ⟨fun idx' hidx => ?_, h.resolved⟩
      have hidx : Function.update s.roots idx (if etf then .etf .foreign else .other) idx' =
          .etf .confirmed := hidx
      by_cases he : idx' = idx
      · rw [he, Function.update_self] at hidx
        cases etf <;> cases hidx
      · rw [Function.update_of_ne he] at hidx
        exact h.named idx' hidx

/-! ### Only an etf is removed -/

/-- Every removal directly follows a read of its device that saw an etf. -/
def LookedFirst : Option QdiscCall → List QdiscCall → Prop
  | _, [] => True
  | prev, .remove idx err :: rest =>
      prev = some (.read idx .present) ∧ LookedFirst (some (.remove idx err)) rest
  | _, .read idx st :: rest => LookedFirst (some (.read idx st)) rest
  | _, .install idx err strips :: rest => LookedFirst (some (.install idx err strips)) rest

theorem LookedFirst.weaken {calls : List QdiscCall} (h : LookedFirst none calls)
    (prev : Option QdiscCall) : LookedFirst prev calls := by
  cases calls with
  | nil => exact True.intro
  | cons c rest =>
      cases c with
      | read idx st => exact h
      | remove idx err => exact absurd h.1 (by simp)
      | install idx err strips => exact h

theorem LookedFirst.append {more : List QdiscCall} (hmore : LookedFirst none more) :
    ∀ (calls : List QdiscCall) (prev : Option QdiscCall), LookedFirst prev calls →
      LookedFirst prev (calls ++ more) := by
  intro calls
  induction calls with
  | nil => intro prev _; exact hmore.weaken prev
  | cons c rest ih =>
      intro prev h
      cases c with
      | read idx st => exact ih _ h
      | remove idx err => exact ⟨h.1, ih _ h.2⟩
      | install idx err strips => exact ih _ h

theorem arm_lookedFirst (q : ReacQdisc) (ifname : String) (want : Bool) (a : QdiscAnswers) :
    LookedFirst none (reacQdiscArm q ifname want a).calls := by
  have hexit := reacQdiscArm_exit q ifname want a
  generalize reacQdiscArm q ifname want a = r at hexit ⊢
  obtain ⟨q', rc, calls⟩ := r
  cases hexit with
  | unresolved => exact True.intro
  | left => exact True.intro
  | kept => exact ⟨rfl, True.intro⟩
  | swept => exact ⟨rfl, True.intro⟩
  | refused => exact True.intro
  | unseen => exact True.intro
  | installed => exact True.intro

theorem qdiscStep_lookedFirst (s : QdiscWorld) (op : QdiscOp) :
    LookedFirst none (qdiscMachine.step s op).2 := by
  cases op with
  | arm ifname want a => exact arm_lookedFirst s.q ifname want a
  | disarm ifname a => exact arm_lookedFirst s.q ifname false a
  | outside idx etf => exact True.intro

theorem outputs_lookedFirst {tail : List QdiscCall} (htail : LookedFirst none tail) :
    ∀ (run : List QdiscOp) (s : QdiscWorld),
      LookedFirst none ((qdiscMachine.outputs s run).flatten ++ tail) := by
  intro run
  induction run with
  | nil => intro s; exact htail
  | cons op rest ih =>
      intro s
      show LookedFirst none (((qdiscMachine.step s op).2 ++ _) ++ tail)
      rw [List.append_assoc]
      exact LookedFirst.append (ih _) _ none (qdiscStep_lookedFirst s op)

/-! ### The release -/

theorem release_lookedFirst (q : ReacQdisc) (a : QdiscAnswers) :
    LookedFirst none (reacQdiscRelease q a).calls := by
  unfold reacQdiscRelease
  split
  · exact True.intro
  · split
    · rename_i hb
      rw [hb]
      exact ⟨rfl, True.intro⟩
    · exact True.intro

/-- A record is what makes the release try the removal again. -/
theorem release_removes {q : ReacQdisc} {a : QdiscAnswers} (hins : q.installed = true)
    (hidx : q.ifindex ≠ 0) (hb : a.before = .present) :
    QdiscCall.remove q.ifindex a.removeErr ∈ (reacQdiscRelease q a).calls := by
  rw [reacQdiscRelease, if_neg (by simp [hins, hidx]), if_pos hb]
  simp

/-- **The daemon keeps track of its own etf, and removes nothing else.**  Over every run
of calls and outside changes and the release after it, a removal follows a read that
saw an etf; and when every call keeps track, an etf the daemon knows it installed is on
record for as long as it stands, and the release tries to take it away. -/
theorem etf_stays_on_record (roots : Nat → RootQdisc)
    (hroots : ∀ idx, roots idx ≠ .etf .confirmed) (run : List QdiscOp) (a : QdiscAnswers) :
    let s := qdiscMachine.after ⟨.zeroed, roots⟩ run
    LookedFirst none
        ((qdiscMachine.outputs ⟨.zeroed, roots⟩ run).flatten ++ (reacQdiscRelease s.q a).calls) ∧
      (qdiscMachine.Guarded KeepsTrack ⟨.zeroed, roots⟩ run →
        ∀ idx, s.roots idx = .etf .confirmed → s.q.installed = true ∧ s.q.ifindex = idx ∧
          (a.before = .present → QdiscCall.remove idx a.removeErr ∈
            (reacQdiscRelease s.q a).calls)) := by
  refine ⟨outputs_lookedFirst (release_lookedFirst _ a) run _, fun hg idx hidx => ?_⟩
  have h := qdiscMachine.invariant_guarded (I := OnRecord) (G := KeepsTrack)
    (fun _ _ => qdiscStep_onRecord) run ⟨.zeroed, roots⟩
    (.ofForgotten rfl hroots) hg
  obtain ⟨hins, hq⟩ := h.named idx hidx
  refine ⟨hins, hq, fun hb => ?_⟩
  have := release_removes hins (h.resolved hins) hb
  rw [hq] at this
  exact this

/-! ### What the record loses -/

/-- Device 2 under its name, with everything the kernel is asked answered well. -/
def wellAnswered : QdiscAnswers :=
  { ifindex := 2, before := .present, removeErr := 0, installErr := 0, strips := true,
    readBack := .present }

def bareWorld : QdiscWorld := ⟨.zeroed, fun _ => .none⟩

/-- An etf of the daemon's own stands on device 2 and the record does not name it. -/
def LostEtf (s : QdiscWorld) : Prop :=
  (s.roots 2 = .etf .acked ∨ s.roots 2 = .etf .confirmed) ∧
    ¬ (s.q.installed = true ∧ s.q.ifindex = 2)

instance (s : QdiscWorld) : Decidable (LostEtf s) :=
  inferInstanceAs (Decidable (_ ∧ ¬ _))

/-- Five runs after which the daemon's own etf is not on record: the read-back of an
ACKed install is unreadable; a disarm cannot read the device; a disarm cannot resolve
the name; a re-install is refused and changes nothing; the next install names another
device. -/
theorem etf_lost_from_record :
    let armed := QdiscOp.arm "eth0" true wellAnswered
    ∀ run ∈ [
      [QdiscOp.arm "eth0" true { wellAnswered with readBack := .unreadable }],
      [armed, .disarm "eth0" { wellAnswered with before := .unreadable }],
      [armed, .disarm "eth0" { wellAnswered with ifindex := 0 }],
      [armed, .arm "eth0" true { wellAnswered with installErr := 1, strips := false }],
      [armed, .arm "eth1" true { wellAnswered with ifindex := 3 }]],
      LostEtf (qdiscMachine.after bareWorld run) := by
  decide

/-- A disarm the kernel refuses leaves the etf on record, and the release removes it. -/
theorem etf_stays_on_record_refused :
    (qdiscMachine.after bareWorld [.arm "eth0" true wellAnswered,
      .disarm "eth0" { wellAnswered with removeErr := 16 }]).roots 2 = .etf .confirmed ∧
    QdiscCall.remove 2 0 ∈ (reacQdiscRelease (qdiscMachine.after bareWorld
      [.arm "eth0" true wellAnswered,
        .disarm "eth0" { wellAnswered with removeErr := 16 }]).q wellAnswered).calls := by
  refine ⟨by decide, ?_⟩
  exact ((etf_stays_on_record (fun _ => .none) (by simp) [.arm "eth0" true wellAnswered,
    .disarm "eth0" { wellAnswered with removeErr := 16 }] wellAnswered).2 (by decide) 2
    (by decide)).2.2 rfl

end ReacPw
