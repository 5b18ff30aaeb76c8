/-
A port's budget given up, with the sniffers beside the table (`link_budget_yield`).

The walk over the table decides first and acts after.  Every holder of the port that
yields is dropped, its interface is handed back to the interface table, and its
sniffer, when one is still open, is told that the budget was given up.

What the walk asks of a holder is the node's pacer and a latch.  The send of a joined
slave or of a box has no pacer, and answers for none.  The latch is the listener's,
and says whether its publishing found frames arriving.

The hunt is a library's (`reac_hunt`) and a parameter here; `HuntApi.Lawful` is what
is relied on.  The array the walk collects its names in is larger than the table, so
no name is cut off.  The journal's texts are left out.
-/
import ReacPw.Hearing

namespace ReacPw

/-! ### The hunt -/

/-- The hunt's operations, over its states `η`. -/
structure HuntApi (η : Type*) where
  init : Nat → η
  pin : η → ReacRole → η
  /-- A frame off the wire, and whether it was a sighting of REAC gear. -/
  observe : η → List UInt8 → Nat → η × Bool
  silenceProven : η → η
  step : η → Nat → η
  openedNs : η → Nat
  pinned : η → Bool
  silent : η → Bool
  /-- What a serve reads of it, `reac_hunt_heard_anything` among it. -/
  said : η → Hunt

section
variable {η : Type*} (A : HuntApi η)

def HuntApi.heardAnything (w : η) : Bool := (A.said w).heardAnything

/-- What is relied on: a hunt that has heard something has it from a frame, and no wire
is mastered without a pin, a frame or the knock's licence. -/
structure HuntApi.Lawful : Prop where
  init : ∀ now, A.heardAnything (A.init now) = false ∧ A.silent (A.init now) = false
  pin : ∀ w role, A.heardAnything (A.pin w role) = A.heardAnything w ∧
    A.silent (A.pin w role) = A.silent w
  observe : ∀ w frame now,
    A.heardAnything (A.observe w frame now).1 =
      (A.heardAnything w || (A.observe w frame now).2) ∧
    A.silent (A.observe w frame now).1 = A.silent w ∧
    A.pinned (A.observe w frame now).1 = A.pinned w
  silenceProven : ∀ w, A.heardAnything (A.silenceProven w) = A.heardAnything w ∧
    A.pinned (A.silenceProven w) = A.pinned w
  step : ∀ w now, A.heardAnything (A.step w now) = A.heardAnything w ∧
    A.silent (A.step w now) = A.silent w ∧ A.pinned (A.step w now) = A.pinned w
  /-- A wire is mastered on a pin, on what was heard, or on a silence that was proven. -/
  master : ∀ w now, (A.said (A.step w now)).verdict = .master →
    A.pinned (A.step w now) = true ∨ A.heardAnything (A.step w now) = true ∨
      A.silent (A.step w now) = true

end

/-! ### The sniffers -/

/-- One sniffer (`struct sniffer`), as far as its hunt and the budget go. -/
structure SniffSlot (η : Type*) where
  hunt : η
  /-- The conf pins the segment `tap`. -/
  tapPinned : Bool
  watched : Bool
  /-- The segment gave its port's budget up. -/
  budgetYielded : Bool
  /-- Which was said. -/
  budgetYieldSaid : Bool
  undecidedSaid : Bool
  deriving DecidableEq, Repr

/-- The latch of a sniffer whose segment gave the budget up. -/
def SniffSlot.yielded {η : Type*} (sn : SniffSlot η) : SniffSlot η :=
  { sn with budgetYielded := true, budgetYieldSaid := false }

/-- The listeners, the interface table and the sniffers, by their interfaces. -/
structure HuntTable (σ : Type*) (n : Nat) (η : Type*) where
  hear : Hearing σ n
  sniff : String → Option (SniffSlot η)

section
variable {σ : Type*} {n : Nat} {η : Type*}

def HuntTable.setSniff (t : HuntTable σ n η) (name : String) (sn : Option (SniffSlot η)) :
    HuntTable σ n η :=
  { t with sniff := Function.update t.sniff name sn }

@[simp] theorem setSniff_hear (t : HuntTable σ n η) (name : String) (sn : Option (SniffSlot η)) :
    (t.setSniff name sn).hear = t.hear := rfl

@[simp] theorem setSniff_same (t : HuntTable σ n η) (name : String) (sn : Option (SniffSlot η)) :
    (t.setSniff name sn).sniff name = sn := by
  simp [HuntTable.setSniff]

theorem setSniff_ne (t : HuntTable σ n η) {name k : String} (sn : Option (SniffSlot η))
    (hne : k ≠ name) : (t.setSniff name sn).sniff k = t.sniff k := by
  simp [HuntTable.setSniff, hne]

/-- The latch on one segment's sniffer, if it is open. -/
def HuntTable.latch (t : HuntTable σ n η) (name : String) : HuntTable σ n η :=
  t.setSniff name ((t.sniff name).map .yielded)

/-! ### What the walk asks of a holder -/

/-- What a listener's wire and engine are really doing, and its latch. -/
structure SinkTruth where
  /-- The listener's `heard`, as its publishing last left it. -/
  heardLatch : Bool
  framesArriving : Bool
  /-- Of the pacer, where there is one. -/
  pastProbing : Bool
  recognizedBox : Bool
  deriving DecidableEq, Repr

/-- What the node answers: one without a pacer is not past PROBING and recognizes no box
(`reac_sink_node_past_probing`, `reac_sink_node_recognized_box`). -/
def sinkFacts (L : Listener) (w : SinkTruth) : SinkFacts :=
  let pacer := L.sink.any (!·.upstream)
  { heard := w.heardLatch, pastProbing := pacer && w.pastProbing,
    recognizedBox := pacer && w.recognizedBox }

variable (S : IfScan σ)

/-- One segment gives the budget up: dropped, heard again, and its sniffer told. -/
def HuntTable.yieldOne (t : HuntTable σ n η) (name : String) (now : Nat) : HuntTable σ n η :=
  { t with hear := hearingRehear S t.hear name now }.latch name

/-- `link_budget_yield`, and how many segments yielded. -/
def budgetYield (t : HuntTable σ n η) (taker txIf : String) (facts : Fin n → SinkFacts)
    (now : Nat) : HuntTable σ n η × Nat :=
  let names := budgetYielders t.hear taker (linkPortOf txIf) facts
  (names.foldl (fun t name => t.yieldOne S name now) t, names.length)

/-- The listeners and the interface table go as they do without the sniffers. -/
theorem yieldAll_hear (now : Nat) :
    ∀ (names : List String) (t : HuntTable σ n η),
      (names.foldl (fun t name => t.yieldOne S name now) t).hear =
        linkBudgetYield S t.hear names now := by
  intro names
  induction names with
  | nil => intro t; rfl
  | cons name rest ih => intro t; exact ih (t.yieldOne S name now)

theorem yielded_yielded (sn : SniffSlot η) : sn.yielded.yielded = sn.yielded := rfl

/-- The sniffers of those segments are told, and no other's. -/
def sniffersTold (names : List String) (sniff : String → Option (SniffSlot η)) (k : String) :
    Option (SniffSlot η) :=
  if k ∈ names then (sniff k).map .yielded else sniff k

theorem yieldAll_sniff (now : Nat) (k : String) :
    ∀ (names : List String) (t : HuntTable σ n η),
      (names.foldl (fun t name => t.yieldOne S name now) t).sniff k =
        sniffersTold names t.sniff k := by
  unfold sniffersTold
  intro names
  induction names with
  | nil => intro t; simp
  | cons name rest ih =>
      intro t
      rw [List.foldl_cons, ih]
      by_cases hk : k = name
      · subst hk
        have hone : (t.yieldOne S k now).sniff k = (t.sniff k).map .yielded :=
          setSniff_same _ _ _
        rw [hone, if_pos List.mem_cons_self]
        cases t.sniff k <;> simp [yielded_yielded]
      · have hone : (t.yieldOne S name now).sniff k = t.sniff k := setSniff_ne _ _ hk
        rw [hone]
        simp [hk]

/-- What a yield leaves: the table's own yield, and the sniffers told. -/
theorem budgetYield_parts (t : HuntTable σ n η) (taker txIf : String) (facts : Fin n → SinkFacts)
    (now : Nat) :
    (budgetYield S t taker txIf facts now).1 =
      { hear := linkBudgetYield S t.hear (budgetYielders t.hear taker (linkPortOf txIf) facts) now
        sniff := sniffersTold (budgetYielders t.hear taker (linkPortOf txIf) facts) t.sniff } := by
  have hsniff := funext fun k => yieldAll_sniff S now k
    (budgetYielders t.hear taker (linkPortOf txIf) facts) t
  have hhear := yieldAll_hear S now (budgetYielders t.hear taker (linkPortOf txIf) facts) t
  unfold budgetYield
  dsimp only
  rw [← hsniff, ← hhear]

/-- The interface table is told of each in turn. -/
theorem linkBudgetYield_scan (now : Nat) :
    ∀ (names : List String) (h : Hearing σ n),
      (linkBudgetYield S h names now).scan =
        names.foldl (fun s name => S.serveFailed s name now) h.scan := by
  intro names
  induction names with
  | nil => intro h; rfl
  | cons name rest ih =>
      intro h
      have hone : (hearingRehear S h name now).scan = S.serveFailed h.scan name now := by
        show S.serveFailed (hearingDrop h name).scan name now = _
        rw [hearingDrop_scan]
      show (linkBudgetYield S (hearingRehear S h name now) rest now).scan = _
      rw [ih, hone]
      rfl

end

end ReacPw
