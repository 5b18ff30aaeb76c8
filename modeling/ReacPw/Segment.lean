/-
What is done to one opened listener between its opens: the role doors of its
nodes, the poll that carries out what they accepted (`on_rate_reopen_timer`), and
the poll that stops a master streaming at nobody (`hearing_rehear_empty_masters`).

A role asserted on a node is decided by the segment's role record, which is a
library's: its answer is an input.  An accepted role is filed on the node that
took the write, and the poll reads one node of the two, chosen by the listener's
shape.
-/
import ReacPw.Listener

namespace ReacPw

/-! ### The role doors -/

/-- The node a Props write lands on. -/
inductive PropsDoor where
  | capture
  | playback
  deriving DecidableEq, Repr

/-- A `reac.cfg.role` assertion, and what `reac_role_swap_request` answers to it. -/
structure RoleAssert where
  role : ReacRole
  accepted : Bool
  deriving DecidableEq, Repr

/-- The sink's door (`sink_door_assert`); its role record is always bound. -/
def SinkNode.doorAssert (n : SinkNode) (r : RoleAssert) : SinkNode :=
  if r.accepted then { n with reopenRole := some r.role } else n

/-- A rate the sink's door accepted; the rate it runs at asks for nothing. -/
def SinkNode.rateAssert (n : SinkNode) (sampleRate hz : Nat) (accepted : Bool) : SinkNode :=
  if accepted ∧ hz ≠ sampleRate then { n with reopenRate := hz } else n

/-- The capture node's own door (`on_param_changed`); without a role record it is none. -/
def SourceNode.paramChanged (n : SourceNode) (r : RoleAssert) : SourceNode :=
  if n.roleSwap ∧ r.accepted then { n with reopenRole := some r.role } else n

/-- A role asserted on `reac-playback`. -/
def listenerPlaybackWrite (L : Listener) (r : RoleAssert) : Listener :=
  { L with sink := L.sink.map (·.doorAssert r) }

/-- A role asserted on `reac-capture`.  A master whose box has no outputs has its sink's
door bound there (`bound`). -/
def listenerCaptureWrite (L : Listener) (bound : Bool) (r : RoleAssert) : Listener :=
  if bound && L.adTimer then listenerPlaybackWrite L r
  else { L with src := L.src.map (·.paramChanged r) }

def listenerRateWrite (L : Listener) (hz : Nat) (accepted : Bool) : Listener :=
  { L with sink := L.sink.map (·.rateAssert L.sampleRate hz accepted) }

/-! ### The re-open poll -/

/-- What the poll did with a listener. -/
inductive TickAct where
  /-- Not opened, or its interface is gone and the table is told. -/
  | skipped
  /-- Its interface is gone and there is no table: the daemon quits. -/
  | quit
  | publishTap
  /-- `listener_publish_segment`, and whether the `heard` latch was stepped. -/
  | publishSegment (steps : Bool)
  /-- Dropped, to be heard and classified again in that role. -/
  | reclassify (role : ReacRole)
  | reopenRole (role : ReacRole)
  | reopenRate (hz : Nat)
  /-- A running sink with nothing asked of it. -/
  | idle
  deriving DecidableEq, Repr

/-- What the world answers on one poll of one listener. -/
structure TickAnswers where
  ifaceLost : Bool
  /-- The link's budget, as a re-opened master finds it. -/
  fits : Bool
  reopen : OpenAnswers
  deriving DecidableEq, Repr

/-- A node with no answer to publish publishes none, and a door has no latch to step. -/
def listenerPublishSegment (L : Listener) : TickAct :=
  .publishSegment (L.src.isSome && !L.cfg.doorOnly)

/-- The poll reads the capture node's record, and not the sink's. -/
def tickReadsCapture (L : Listener) : Bool := L.sink.isNone || L.cfg.joinBoxMaster

/-- A segment of the hearing is dropped and classified afresh instead of re-opened. -/
def listenerReclassifies (hearing : Bool) (L : Listener) : Bool :=
  hearing && L.cfg.source.isSome && L.cfg.live

/-- Drop the segment: its listener is closed and its slot is free. -/
def listenerDropped (L : Listener) : Listener :=
  { listenerClose L with opened := false, rxStarted := false }

/-- Carry out an accepted role. -/
def listenerTakeRole (hearing : Bool) (L : Listener) (role : ReacRole) (t : TickAnswers) :
    Listener × TickAct :=
  if listenerReclassifies hearing L then (listenerDropped L, .reclassify role)
  else (listenerReopenAtRole L role t.fits t.reopen, .reopenRole role)

/-- The poll on a listener that is up: the accepted role first, then the rate. -/
def listenerTick (hearing : Bool) (L : Listener) (t : TickAnswers) : Listener × TickAct :=
  if tickReadsCapture L then
    match L.src.bind (·.reopenRole) with
    | some role => listenerTakeRole hearing L role t
    | none => (L, listenerPublishSegment L)
  else
    match L.sink.bind (·.reopenRole) with
    | some role => listenerTakeRole hearing L role t
    | none =>
        let hz := (L.sink.map (·.reopenRate)).getD 0
        if 0 < hz then (listenerReopenAtRate L hz t.fits t.reopen, .reopenRate hz)
        else (L, .idle)

/-- What the poll finds on the node it reads. -/
def pendingRole (L : Listener) : Option ReacRole :=
  if tickReadsCapture L then L.src.bind (·.reopenRole) else L.sink.bind (·.reopenRole)

/-- A write on the sink is found exactly when the sink is what the poll reads. -/
theorem pendingRole_sinkWrite (L : Listener) (r : RoleAssert) :
    pendingRole (listenerPlaybackWrite L r) =
      if tickReadsCapture L = false ∧ r.accepted = true then some r.role else pendingRole L := by
  have hreads : tickReadsCapture (listenerPlaybackWrite L r) = tickReadsCapture L := by
    unfold tickReadsCapture listenerPlaybackWrite
    rw [Option.isNone_map]
  unfold pendingRole
  rw [hreads]
  cases hcap : tickReadsCapture L with
  | true => simp [listenerPlaybackWrite]
  | false =>
      obtain ⟨n, hn⟩ : ∃ n, L.sink = some n := by
        unfold tickReadsCapture at hcap
        cases hsink : L.sink with
        | none => rw [hsink] at hcap; exact absurd hcap (by simp)
        | some n => exact ⟨n, rfl⟩
      cases hacc : r.accepted <;> simp [listenerPlaybackWrite, hn, SinkNode.doorAssert, hacc]

/-- A write on a bound capture node is found exactly when the poll reads that node. -/
theorem pendingRole_sourceWrite (L : Listener) (r : RoleAssert) :
    pendingRole { L with src := L.src.map (·.paramChanged r) } =
      if tickReadsCapture L = true ∧ (L.src.map (·.roleSwap)).getD false = true ∧
        r.accepted = true then some r.role else pendingRole L := by
  have hreads : tickReadsCapture { L with src := L.src.map (·.paramChanged r) } =
      tickReadsCapture L := rfl
  unfold pendingRole
  rw [hreads]
  cases hcap : tickReadsCapture L with
  | false => simp
  | true =>
      cases hsrc : L.src with
      | none => simp
      | some n =>
          cases hswap : n.roleSwap <;> cases hacc : r.accepted <;>
            simp [SourceNode.paramChanged, hswap, hacc]

/-- A rate moves no role. -/
theorem pendingRole_rateWrite (L : Listener) (hz : Nat) (accepted : Bool) :
    pendingRole (listenerRateWrite L hz accepted) = pendingRole L := by
  have hreads : tickReadsCapture (listenerRateWrite L hz accepted) = tickReadsCapture L := by
    unfold tickReadsCapture listenerRateWrite
    rw [Option.isNone_map]
  have hsink : (listenerRateWrite L hz accepted).sink.bind (·.reopenRole) =
      L.sink.bind (·.reopenRole) := by
    cases hn : L.sink with
    | none => simp [listenerRateWrite, hn]
    | some n =>
        simp only [listenerRateWrite, hn, Option.map_some, Option.bind_some, SinkNode.rateAssert]
        split <;> rfl
  unfold pendingRole
  rw [hreads, hsink]
  rfl

theorem pendingRole_none {L : Listener} (hsrc : L.src.bind (·.reopenRole) = none)
    (hsink : L.sink.bind (·.reopenRole) = none) : pendingRole L = none := by
  unfold pendingRole
  rw [hsrc, hsink, ite_self]

/-- **What the poll does with a listener that is up.**  A pending role is carried out.
With none, a capture node it reads is answered for, and a sink's rate is carried out. -/
theorem listenerTick_cases (hearing : Bool) (L : Listener) (t : TickAnswers) :
    (∃ role, pendingRole L = some role ∧
      listenerTick hearing L t = listenerTakeRole hearing L role t) ∨
    (pendingRole L = none ∧ tickReadsCapture L = true ∧
      listenerTick hearing L t = (L, listenerPublishSegment L)) ∨
    (pendingRole L = none ∧ tickReadsCapture L = false ∧
      (listenerTick hearing L t = (L, .idle) ∨
        ∃ hz, listenerTick hearing L t =
          (listenerReopenAtRate L hz t.fits t.reopen, .reopenRate hz))) := by
  unfold listenerTick pendingRole
  cases hreads : tickReadsCapture L with
  | true =>
      rw [if_pos rfl]
      cases hrole : L.src.bind (·.reopenRole) with
      | some role => exact Or.inl ⟨role, rfl, rfl⟩
      | none => exact Or.inr (Or.inl ⟨rfl, rfl, rfl⟩)
  | false =>
      rw [if_neg Bool.false_ne_true]
      cases hrole : L.sink.bind (·.reopenRole) with
      | some role => exact Or.inl ⟨role, rfl, rfl⟩
      | none =>
          refine Or.inr (Or.inr ⟨rfl, rfl, ?_⟩)
          by_cases hz : 0 < (L.sink.map (·.reopenRate)).getD 0
          · exact Or.inr ⟨(L.sink.map (·.reopenRate)).getD 0, by simp [hz]⟩
          · exact Or.inl (by simp [hz])

/-- One listener's share of `on_rate_reopen_timer`. -/
def rateReopenTick (hearing : Bool) (L : Listener) (t : TickAnswers) : Listener × TickAct :=
  if !L.opened then (L, .skipped)
  else if L.rxStarted && t.ifaceLost then (L, if hearing then .skipped else .quit)
  else if L.cfg.tap then (L, .publishTap)
  else listenerTick hearing L t

/-! ### A master streaming at nobody -/

/-- What the engine shows the poll: the box frames it has received and whether it is
past PROBING. -/
structure EngineObs where
  rxBoxFrames : UInt64
  pastProbing : Bool
  deriving DecidableEq, Repr

/-- The rule is for an unpinned master on a live wire. -/
def emptyMasterApplies (L : Listener) : Bool :=
  L.opened && !L.cfg.doorOnly && !L.cfg.tap && L.cfg.role == .master && !L.cfg.rolePinned &&
    L.cfg.source.isSome && L.cfg.live

/-- One listener's share of `hearing_rehear_empty_masters`, and whether it was dropped.
`obs` is `none` when the pacer is not open. -/
def rehearEmptyMaster (L : Listener) (now : Nat) (obs : Option EngineObs) : Listener × Bool :=
  if !emptyMasterApplies L then ({ L with emptyOpen := false }, false)
  else match obs with
    | none => (L, false)
    | some o =>
        if !L.emptyOpen then
          ({ L with empty := reacEmptyMasterInit now o.rxBoxFrames, emptyOpen := true }, false)
        else
          let r := reacEmptyMasterStep L.empty now o.rxBoxFrames o.pastProbing
          let L := { L with empty := r.1 }
          if !r.2 then (L, false) else (listenerDropped { L with emptyOpen := false }, true)

/-- **What the poll can do.**  Out of the rule's reach the watch is closed; a closed pacer
leaves it; an engine's first poll opens it; after that it is stepped, and a master it
finds empty is dropped. -/
theorem rehearEmptyMaster_cases (L : Listener) (now : Nat) (obs : Option EngineObs) :
    (emptyMasterApplies L = false ∧
      rehearEmptyMaster L now obs = ({ L with emptyOpen := false }, false)) ∨
    (obs = none ∧ rehearEmptyMaster L now obs = (L, false)) ∨
    (∃ o, obs = some o ∧ L.emptyOpen = false ∧ rehearEmptyMaster L now obs =
      ({ L with empty := reacEmptyMasterInit now o.rxBoxFrames, emptyOpen := true }, false)) ∨
    (∃ o, obs = some o ∧ emptyMasterApplies L = true ∧ L.emptyOpen = true ∧
      ((rehearEmptyMaster L now obs).2 =
        (reacEmptyMasterStep L.empty now o.rxBoxFrames o.pastProbing).2) ∧
      ((rehearEmptyMaster L now obs).1 =
          { L with empty := (reacEmptyMasterStep L.empty now o.rxBoxFrames o.pastProbing).1 } ∨
        (rehearEmptyMaster L now obs).1.emptyOpen = false)) := by
  cases happlies : emptyMasterApplies L with
  | false => exact Or.inl ⟨rfl, by simp [rehearEmptyMaster, happlies]⟩
  | true =>
      cases obs with
      | none => exact Or.inr (Or.inl ⟨rfl, by simp [rehearEmptyMaster, happlies]⟩)
      | some o =>
          cases hopen : L.emptyOpen with
          | false =>
              refine Or.inr (Or.inr (Or.inl ⟨o, rfl, rfl, ?_⟩))
              simp [rehearEmptyMaster, happlies, hopen]
          | true =>
              refine Or.inr (Or.inr (Or.inr ⟨o, rfl, rfl, rfl, ?_⟩))
              cases hdrop : (reacEmptyMasterStep L.empty now o.rxBoxFrames o.pastProbing).2 with
              | false => exact ⟨by simp [rehearEmptyMaster, happlies, hopen, hdrop],
                  Or.inl (by simp [rehearEmptyMaster, happlies, hopen, hdrop])⟩
              | true => exact ⟨by simp [rehearEmptyMaster, happlies, hopen, hdrop],
                  Or.inr (by
                    simp [rehearEmptyMaster, happlies, hopen, hdrop, listenerDropped,
                      listenerClose, listenerDropNodes])⟩

/-- A master that is not dropped stays up, on its configuration. -/
theorem rehearEmptyMaster_stays {L : Listener} {now : Nat} {obs : Option EngineObs}
    (hkeeps : (rehearEmptyMaster L now obs).2 = false) :
    (rehearEmptyMaster L now obs).1.opened = L.opened ∧
      (rehearEmptyMaster L now obs).1.cfg = L.cfg := by
  rcases rehearEmptyMaster_cases L now obs with ⟨-, hres⟩ | ⟨-, hres⟩ | ⟨o, -, -, hres⟩ |
    ⟨o, hobs, happlies, hopen, hsnd, -⟩
  · rw [hres]
    exact ⟨rfl, rfl⟩
  · rw [hres]
    exact ⟨rfl, rfl⟩
  · rw [hres]
    exact ⟨rfl, rfl⟩
  · subst hobs
    rw [hsnd] at hkeeps
    simp [rehearEmptyMaster, happlies, hopen, hkeeps]

end ReacPw
