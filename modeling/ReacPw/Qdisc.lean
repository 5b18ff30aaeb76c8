/-
The daemon's ownership of the root qdisc on the device it binds (`reac_qdisc`).

Under the ETF backend the device must carry an `etf` root qdisc, and under the
thread backend it must not, since `skip_sock_check` drops every frame without a
launch time.  `reacQdiscArm` makes the device match, the record remembers what was
installed and where, and `reacQdiscRelease` takes away what the record names.

The kernel's answers in one call are its input: what the name resolves to, what
each read of the root qdisc says, and the errno of each write, 0 for an ACK.  The
answers need not agree with each other.  The calls made come back as a list,
oldest first.  The journal's texts are not modelled.
-/
import Mathlib.Tactic.Common

namespace ReacPw

/-- What a read of a device's root qdisc says (`reac_etf_qdisc_state`). -/
inductive EtfQdiscState where
  | none
  | present
  | unreadable
  deriving DecidableEq, Repr

/-- What the daemon did to one device's qdisc; all zero for nothing. -/
structure ReacQdisc where
  ifindex : Nat
  ifname : String
  installed : Bool
  deriving DecidableEq, Repr

def ReacQdisc.zeroed : ReacQdisc := { ifindex := 0, ifname := "", installed := false }

/-- What the kernel answers during one call. -/
structure QdiscAnswers where
  /-- `if_nametoindex`, 0 for no such interface. -/
  ifindex : Nat
  before : EtfQdiscState
  removeErr : Nat
  installErr : Nat
  /-- A failed install still took the old root qdisc away: it is a delete, then an add. -/
  strips : Bool
  readBack : EtfQdiscState
  deriving DecidableEq, Repr

/-- One call into `reac_etf_qdisc`, with its answer. -/
inductive QdiscCall where
  | read (ifindex : Nat) (answer : EtfQdiscState)
  | remove (ifindex err : Nat)
  | install (ifindex err : Nat) (strips : Bool)
  deriving DecidableEq, Repr

def einval : Nat := 22

def enodev : Nat := 19

def eio : Nat := 5

/-- What a call gives: the record, 0 or the errno, and the kernel calls made. -/
structure QdiscResult where
  q : ReacQdisc
  rc : Nat
  calls : List QdiscCall
  deriving DecidableEq, Repr

/-- Make `ifname`'s qdisc match `wantEtf`. -/
def reacQdiscArm (q : ReacQdisc) (ifname : String) (wantEtf : Bool) (a : QdiscAnswers) :
    QdiscResult :=
  let ours := q
  if ifname = "" then ⟨.zeroed, einval, []⟩
  else if a.ifindex = 0 then ⟨.zeroed, enodev, []⟩
  else
    let q : ReacQdisc := { ReacQdisc.zeroed with ifname := ifname }
    let look := QdiscCall.read a.ifindex a.before
    if !wantEtf then
      -- an etf root is removed, and anything else is left alone
      if a.before ≠ .present then ⟨q, 0, [look]⟩
      else if a.removeErr ≠ 0 then
        -- still there, and back on record only when it is our own
        if ours.installed ∧ ours.ifindex = a.ifindex then
          ⟨ours, a.removeErr, [look, .remove a.ifindex a.removeErr]⟩
        else ⟨q, a.removeErr, [look, .remove a.ifindex a.removeErr]⟩
      else ⟨q, 0, [look, .remove a.ifindex a.removeErr]⟩
    else if a.installErr ≠ 0 then
      ⟨q, a.installErr, [look, .install a.ifindex a.installErr a.strips]⟩
    -- an ACKed add is claimed only when the read-back sees it
    else if a.readBack ≠ .present then
      ⟨q, eio, [look, .install a.ifindex a.installErr a.strips, .read a.ifindex a.readBack]⟩
    else
      ⟨{ q with ifindex := a.ifindex, installed := true }, 0,
        [look, .install a.ifindex a.installErr a.strips, .read a.ifindex a.readBack]⟩

/-- The backend that opened is not the one the qdisc was armed for. -/
def reacQdiscDisarm (q : ReacQdisc) (ifname : String) (a : QdiscAnswers) : QdiscResult :=
  reacQdiscArm q ifname false a

/-- Take away what the record names, after looking, and clear it. -/
def reacQdiscRelease (q : ReacQdisc) (a : QdiscAnswers) : QdiscResult :=
  if !q.installed || q.ifindex == 0 then ⟨.zeroed, 0, []⟩
  else if a.before = .present then
    ⟨.zeroed, 0, [.read q.ifindex a.before, .remove q.ifindex a.removeErr]⟩
  else ⟨.zeroed, 0, [.read q.ifindex a.before]⟩

/-! ### What one call can do -/

/-- The exits of an arming: the record it leaves and the calls it made. -/
inductive ArmExit (q : ReacQdisc) (ifname : String) (a : QdiscAnswers) :
    Bool → ReacQdisc → List QdiscCall → Prop where
  | unresolved {want : Bool} (h : ifname = "" ∨ a.ifindex = 0) :
      ArmExit q ifname a want .zeroed []
  | left (hname : a.ifindex ≠ 0) {q' : ReacQdisc} (hq : q'.installed = false)
      (h : a.before ≠ .present) : ArmExit q ifname a false q' [.read a.ifindex a.before]
  | kept (hname : a.ifindex ≠ 0) (h : a.before = .present) (herr : a.removeErr ≠ 0)
      (hours : q.installed = true ∧ q.ifindex = a.ifindex) :
      ArmExit q ifname a false q [.read a.ifindex .present, .remove a.ifindex a.removeErr]
  | swept (hname : a.ifindex ≠ 0) {q' : ReacQdisc} (hq : q'.installed = false)
      (h : a.before = .present)
      (hours : a.removeErr ≠ 0 → ¬ (q.installed = true ∧ q.ifindex = a.ifindex)) :
      ArmExit q ifname a false q' [.read a.ifindex .present, .remove a.ifindex a.removeErr]
  | refused (hname : a.ifindex ≠ 0) {q' : ReacQdisc} (hq : q'.installed = false)
      (h : a.installErr ≠ 0) :
      ArmExit q ifname a true q'
        [.read a.ifindex a.before, .install a.ifindex a.installErr a.strips]
  | unseen (hname : a.ifindex ≠ 0) {q' : ReacQdisc} (hq : q'.installed = false)
      (h : a.installErr = 0) (hback : a.readBack ≠ .present) :
      ArmExit q ifname a true q'
        [.read a.ifindex a.before, .install a.ifindex 0 a.strips, .read a.ifindex a.readBack]
  | installed (hname : a.ifindex ≠ 0) {q' : ReacQdisc} (hq : q'.installed = true)
      (hidx : q'.ifindex = a.ifindex) (h : a.installErr = 0) (hback : a.readBack = .present) :
      ArmExit q ifname a true q'
        [.read a.ifindex a.before, .install a.ifindex 0 a.strips, .read a.ifindex .present]

/-- **An arming takes one of the exits.** -/
theorem reacQdiscArm_exit (q : ReacQdisc) (ifname : String) (want : Bool) (a : QdiscAnswers) :
    ArmExit q ifname a want (reacQdiscArm q ifname want a).q
      (reacQdiscArm q ifname want a).calls := by
  by_cases hn : ifname = ""
  · rw [reacQdiscArm, if_pos hn]
    exact .unresolved (Or.inl hn)
  by_cases hi : a.ifindex = 0
  · rw [reacQdiscArm, if_neg hn, if_pos hi]
    exact .unresolved (Or.inr hi)
  rw [reacQdiscArm, if_neg hn, if_neg hi]
  cases want with
  | false =>
      by_cases hb : a.before = .present
      · by_cases he : a.removeErr = 0
        · simp only [Bool.not_false, if_true, hb, ne_eq, not_true, if_false, he]
          rw [← he]
          exact .swept hi rfl hb (fun h => absurd he h)
        · by_cases hm : q.installed = true ∧ q.ifindex = a.ifindex
          · simp only [Bool.not_false, if_true, hb, ne_eq, not_true, if_false, he,
              not_false_eq_true, hm, and_self]
            exact .kept hi hb he hm
          · simp only [Bool.not_false, if_true, hb, ne_eq, not_true, if_false, he,
              not_false_eq_true, hm]
            exact .swept hi rfl hb (fun _ => hm)
      · simp only [Bool.not_false, if_true, hb, ne_eq, not_false_eq_true]
        exact .left hi rfl hb
  | true =>
      by_cases he : a.installErr = 0
      · by_cases hr : a.readBack = .present
        · simp only [Bool.not_true, he, hr, ne_eq, not_true, if_false]
          exact .installed hi rfl rfl he hr
        · simp only [Bool.not_true, he, hr, ne_eq, not_true, if_false, not_false_eq_true, if_true]
          exact .unseen hi rfl he hr
      · simp only [Bool.not_true, he, ne_eq, not_false_eq_true, if_true]
        exact .refused hi rfl he

end ReacPw
