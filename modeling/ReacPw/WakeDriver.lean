/-
The two callers of the wake ladder, which are its eyes and its hands.

`wakeStep` runs on a master listener's 200 ms timer and reads the engine's
counters; `hearingKnockWake` runs on every poll of the hearing and reads the
knock's.  Each asks the ladder for a verdict and carries an edge out as two
rtnetlink writes, the down now and the up on a later turn: the edge in flight is
one field, `upAtNs`, and nothing sleeps.

What the kernel answers on a turn (the carrier, who uses the interface, whether a
write was taken) is part of the turn's input.  `port_siblings_served` walks the
listener table, which is not this component's; its answer is an input too.  The
texts for the journal are not modelled.

A turn gives a report beside the new state: whether the ladder was opened afresh,
what it was shown and answered, and the writes made.
-/
import ReacPw.Wake

namespace ReacPw

/-! ### Who uses the interface -/

/-- What rtnetlink says about an interface (`reac_link_owner`). -/
inductive LinkOwner where
  | bare
  | addr
  | stacked
  | route
  | unread
  deriving DecidableEq, Repr

/-- Everything but `bare` is the host's. -/
def reacLinkOwnerIsHosts (v : LinkOwner) : Bool := v ≠ .bare

/-- How old the cached answer may be. -/
def linkOwnerCacheNs : Nat := 1000000000

/-- The answer and its time: the cached one for a second, then what is `read` now. -/
def linkOwnerCached (owner : LinkOwner) (readNs now : Nat) (read : LinkOwner) : LinkOwner × Nat :=
  if readNs ≠ 0 ∧ now - readNs < linkOwnerCacheNs then (owner, readNs) else (read, now)

/-! ### What a turn gives -/

/-- One `reac_link_admin` write and whether the kernel took it. -/
structure LinkWrite where
  up : Bool
  ok : Bool
  deriving DecidableEq, Repr

/-- What one turn of a driver did. -/
structure WakeReport where
  /-- The ladder was opened afresh, its bounce count forgotten. -/
  inited : Bool := false
  /-- What the ladder was shown and what it answered. -/
  asked : Option (WakeObs × WakeAct) := none
  writes : List LinkWrite := []
  deriving DecidableEq, Repr

/-- When the link comes back after an edge made at `now`. -/
def edgeUpAt (now : Nat) : Nat := now + reacWakeDownMs * 1000000

/-! ### The master's driver -/

/-- The counters the pacer publishes. -/
structure PacerObs where
  probing : Bool
  rxBoxFrames : UInt64
  sceneComplete : UInt64
  txFrames : UInt64
  deriving DecidableEq, Repr

/-- What `wake_step` reads and writes of a listener's autodetect context. -/
structure AutodetectCtx where
  /-- The listener holds a master engine. -/
  sink : Bool
  ifname : String
  wake : ReacWake
  /-- The link is down until here, 0 for no edge in flight. -/
  upAtNs : Nat
  wakeOpen : Bool
  txSeen : UInt64
  owner : LinkOwner
  ownerReadNs : Nat
  deriving DecidableEq, Repr

/-- What `listener_open` leaves: a zeroed context, with the engine and its device bound. -/
def AutodetectCtx.fresh (sink : Bool) (ifname : String) : AutodetectCtx :=
  { sink := sink, ifname := ifname, wake := .zeroed, upAtNs := 0, wakeOpen := false,
    txSeen := 0, owner := .bare, ownerReadNs := 0 }

/-- One turn's clock and what the world answers on it. -/
structure WakeTurn where
  now : Nat
  /-- `none` when the pacer is not open. -/
  pacer : Option PacerObs
  carrier : LinkCarrier
  siblingsServed : Bool
  ownerRead : LinkOwner
  downOk : Bool
  upOk : Bool
  deriving DecidableEq, Repr

/-- The engine's own facts; its counters are cumulative over the pacer's life. -/
def reacSinkNodeWakeObs (p : PacerObs) : WakeObs :=
  { probing := p.probing, carrier := .down, rxBoxFrames := p.rxBoxFrames,
    scenePushes := p.sceneComplete, siblingsServed := false, hostNic := false,
    txFrames := p.txFrames }

/-- The ladder opened on the first turn, and its grace re-opened on a new spell. -/
def wakeOpened (c : AutodetectCtx) (now : Nat) (probing : Bool) : AutodetectCtx :=
  if !c.wakeOpen then { c with wake := reacWakeInit now, wakeOpen := true }
  else if probing && c.wake.openedNs == 0 then { c with wake := reacWakeReopen c.wake now }
  else c

/-- The context and the observation the ladder is asked with. -/
def wakeAsked (c : AutodetectCtx) (t : WakeTurn) (p : PacerObs) : AutodetectCtx × WakeObs :=
  let o := reacSinkNodeWakeObs p
  let c := wakeOpened c t.now o.probing
  let owner := linkOwnerCached c.owner c.ownerReadNs t.now t.ownerRead
  let o := { o with
    carrier := t.carrier
    siblingsServed := t.siblingsServed
    hostNic := reacLinkOwnerIsHosts owner.1
    -- frames that left the host since the last turn, by the counter's own wrap
    txFrames := o.txFrames - c.txSeen }
  let c := { c with owner := owner.1, ownerReadNs := owner.2, txSeen := p.txFrames }
  -- a master past PROBING forgets the stamp, so the next spell gets its own grace
  let c := if o.probing then c else { c with wake := { c.wake with openedNs := 0 } }
  (c, o)

/-- The ladder's answer, carried out. -/
def wakeCarryOut (c : AutodetectCtx) (t : WakeTurn) (o : WakeObs) : AutodetectCtx × WakeReport :=
  match reacWakeStep c.wake t.now o with
  | (w, .none) =>
      ({ c with wake := (reacWakeRefusalToSay w).1 }, { asked := some (o, .none) })
  | (w, .bounce) =>
      ({ c with wake := w, upAtNs := if t.downOk then edgeUpAt t.now else c.upAtNs },
        { asked := some (o, .bounce), writes := [⟨false, t.downOk⟩] })
  | (w, .exhausted) => ({ c with wake := w }, { asked := some (o, .exhausted) })

/-- One turn of the ladder on a master listener. -/
def wakeStep (c : AutodetectCtx) (t : WakeTurn) : AutodetectCtx × WakeReport :=
  if !c.sink || c.ifname == "" then (c, {})
  else if c.upAtNs ≠ 0 then
    -- an edge in flight is finished before anything else is asked
    if t.now < c.upAtNs then (c, {})
    else ({ c with upAtNs := 0 }, { writes := [⟨true, t.upOk⟩] })
  else match t.pacer with
    | none => (c, {})
    | some p =>
        let a := wakeAsked c t p
        let r := wakeCarryOut a.1 t a.2
        (r.1, { r.2 with inited := !c.wakeOpen })

/-- **What one turn can do.**  Nothing, or it finishes an edge whose time has come, or
it asks the ladder. -/
theorem wakeStep_cases (c : AutodetectCtx) (t : WakeTurn) :
    wakeStep c t = (c, {}) ∨
    (c.upAtNs ≠ 0 ∧ c.upAtNs ≤ t.now ∧
      wakeStep c t = ({ c with upAtNs := 0 }, { writes := [⟨true, t.upOk⟩] })) ∨
    (∃ p, t.pacer = some p ∧ c.upAtNs = 0 ∧
      (wakeStep c t).1 = (wakeCarryOut (wakeAsked c t p).1 t (wakeAsked c t p).2).1 ∧
      (wakeStep c t).2 =
        { (wakeCarryOut (wakeAsked c t p).1 t (wakeAsked c t p).2).2 with
          inited := !c.wakeOpen }) := by
  by_cases hguard : (!c.sink || c.ifname == "") = true
  · exact Or.inl (by rw [wakeStep, if_pos hguard])
  by_cases hup : c.upAtNs ≠ 0
  · by_cases hnow : t.now < c.upAtNs
    · exact Or.inl (by rw [wakeStep, if_neg hguard, if_pos hup, if_pos hnow])
    · refine Or.inr (Or.inl ⟨hup, Nat.le_of_not_lt hnow, ?_⟩)
      rw [wakeStep, if_neg hguard, if_pos hup, if_neg hnow]
  have hask : wakeStep c t = (match t.pacer with
      | none => (c, {})
      | some p =>
          ((wakeCarryOut (wakeAsked c t p).1 t (wakeAsked c t p).2).1,
            { (wakeCarryOut (wakeAsked c t p).1 t (wakeAsked c t p).2).2 with
              inited := !c.wakeOpen })) := by
    rw [wakeStep, if_neg hguard, if_neg hup]
  cases hp : t.pacer with
  | none => exact Or.inl (by rw [hask, hp])
  | some p =>
      refine Or.inr (Or.inr ⟨p, rfl, not_not.mp hup, ?_, ?_⟩)
      · rw [hask, hp]
      · rw [hask, hp]

/-- Opening and asking the ladder is about its own state: the engine, its device and an edge
in flight stay. -/
theorem wakeAsked_frame (c : AutodetectCtx) (t : WakeTurn) (p : PacerObs) :
    (wakeAsked c t p).1.sink = c.sink ∧ (wakeAsked c t p).1.ifname = c.ifname ∧
      (wakeAsked c t p).1.upAtNs = c.upAtNs := by
  have hopened : (wakeOpened c t.now p.probing).sink = c.sink ∧
      (wakeOpened c t.now p.probing).ifname = c.ifname ∧
      (wakeOpened c t.now p.probing).upAtNs = c.upAtNs := by
    unfold wakeOpened
    split
    · exact ⟨rfl, rfl, rfl⟩
    · split <;> exact ⟨rfl, rfl, rfl⟩
  rw [← hopened.1, ← hopened.2.1, ← hopened.2.2]
  unfold wakeAsked
  dsimp only
  split <;> exact ⟨rfl, rfl, rfl⟩

theorem wakeCarryOut_frame (c : AutodetectCtx) (t : WakeTurn) (o : WakeObs) :
    (wakeCarryOut c t o).1.sink = c.sink ∧ (wakeCarryOut c t o).1.ifname = c.ifname := by
  unfold wakeCarryOut
  split <;> exact ⟨rfl, rfl⟩

theorem wakeCarryOut_asked (c : AutodetectCtx) (t : WakeTurn) (o : WakeObs) :
    (wakeCarryOut c t o).2.asked = some (o, (reacWakeStep c.wake t.now o).2) := by
  unfold wakeCarryOut
  split <;> rename_i h <;> rw [h]

theorem wakeCarryOut_writes (c : AutodetectCtx) (t : WakeTurn) (o : WakeObs) :
    (wakeCarryOut c t o).2.writes =
      if (reacWakeStep c.wake t.now o).2 = .bounce then [⟨false, t.downOk⟩] else [] := by
  unfold wakeCarryOut
  split <;> rename_i h <;> rw [h] <;> rfl

theorem wakeCarryOut_upAtNs (c : AutodetectCtx) (t : WakeTurn) (o : WakeObs) :
    (wakeCarryOut c t o).1.upAtNs =
      if (reacWakeStep c.wake t.now o).2 = .bounce ∧ t.downOk then edgeUpAt t.now
      else c.upAtNs := by
  unfold wakeCarryOut
  split <;> rename_i h <;> rw [h] <;> simp

/-- Saying a refusal aside, the ladder is left as its step left it. -/
theorem wakeCarryOut_wake (c : AutodetectCtx) (t : WakeTurn) (o : WakeObs) :
    (wakeCarryOut c t o).1.wake = (reacWakeStep c.wake t.now o).1 ∨
    (wakeCarryOut c t o).1.wake = (reacWakeRefusalToSay (reacWakeStep c.wake t.now o).1).1 := by
  unfold wakeCarryOut
  split <;> rename_i h <;> rw [h] <;> simp

/-! ### The knock's driver -/

/-- The ladder and its eyes (`reac_knock_ladder`): the counters as its spell opened. -/
structure ReacKnockLadder where
  wake : ReacWake
  pushes0 : UInt64
  pushesLast : UInt64
  frames0 : UInt64
  knocksSeen : UInt32
  deriving DecidableEq, Repr

/-- One slot of the ladder table, kept by name; the empty name is a free slot. -/
structure KnockLadder where
  name : String
  kl : ReacKnockLadder
  upAtNs : Nat
  exhaustedSaid : Nat
  deriving DecidableEq, Repr

/-- A slot as `knock_ladder_of` hands it out: zeroed and named. -/
def KnockLadder.blank (name : String) : KnockLadder :=
  { name := name,
    kl := { wake := .zeroed, pushes0 := 0, pushesLast := 0, frames0 := 0, knocksSeen := 0 },
    upAtNs := 0, exhaustedSaid := 0 }

/-- A sniffer whose wire is being knocked on, with the kernel's answers for it. -/
structure KnockSniff where
  name : String
  /-- Every REAC frame its socket has heard. -/
  frames : UInt64
  /-- The knock's completed transfers, its spells, and the frames sent in this one. -/
  pushes : UInt64
  knocks : UInt32
  spellSent : UInt64
  carrier : LinkCarrier
  siblingsServed : Bool
  owner : LinkOwner
  downOk : Bool
  deriving DecidableEq, Repr

/-- The ladder opened on its first turn, and its grace and baselines on a fresh spell or
a fresh sniffer. -/
def knockLadderOpened (kl : ReacKnockLadder) (s : KnockSniff) (now : Nat) : ReacKnockLadder :=
  let opened (w : ReacWake) : ReacKnockLadder :=
    { kl with wake := w, pushes0 := s.pushes, knocksSeen := s.knocks, frames0 := s.frames }
  let kl :=
    if kl.wake.openedNs = 0 then opened (reacWakeInit now)
    else if s.knocks ≠ kl.knocksSeen ∨ s.pushes < kl.pushesLast ∨ s.frames < kl.frames0 then
      opened (reacWakeReopen kl.wake now)
    else kl
  { kl with pushesLast := s.pushes }

theorem knockLadderOpened_wake (kl : ReacKnockLadder) (s : KnockSniff) (now : Nat) :
    (knockLadderOpened kl s now).wake =
      if kl.wake.openedNs = 0 then reacWakeInit now
      else if s.knocks ≠ kl.knocksSeen ∨ s.pushes < kl.pushesLast ∨ s.frames < kl.frames0 then
        reacWakeReopen kl.wake now
      else kl.wake := by
  dsimp only [knockLadderOpened]
  split
  · rfl
  · split <;> rfl

/-- What the knock's ladder is shown: counts of the spell, not of the sniffer. -/
def knockLadderObs (kl : ReacKnockLadder) (s : KnockSniff) : WakeObs :=
  { probing := true, carrier := s.carrier, rxBoxFrames := s.frames - kl.frames0,
    scenePushes := s.pushes - kl.pushes0, siblingsServed := s.siblingsServed,
    hostNic := reacLinkOwnerIsHosts s.owner, txFrames := s.spellSent }

/-- One turn of the knock's ladder, with what it was shown and what it answered. -/
def reacKnockLadderStep (kl : ReacKnockLadder) (s : KnockSniff) (now : Nat) :
    ReacKnockLadder × WakeObs × WakeAct :=
  let kl := knockLadderOpened kl s now
  let o := knockLadderObs kl s
  let r := reacWakeStep kl.wake now o
  ({ kl with wake := r.1 }, o, r.2)

/-- An edge in flight whose time has come is brought back up. -/
def knockFinish (kl : KnockLadder) (now : Nat) (upOk : Bool) : KnockLadder × List LinkWrite :=
  if kl.name = "" ∨ kl.upAtNs = 0 ∨ now < kl.upAtNs then (kl, [])
  else ({ kl with upAtNs := 0 }, [⟨true, upOk⟩])

/-- The knock ladder's answer, carried out. -/
def knockCarryOut (kl : KnockLadder) (s : KnockSniff) (now : Nat) : KnockLadder × WakeReport :=
  match reacKnockLadderStep kl.kl s now with
  | (k, o, .none) =>
      ({ kl with kl := { k with wake := (reacWakeRefusalToSay k.wake).1 } },
        { asked := some (o, .none) })
  | (k, o, .bounce) =>
      ({ kl with kl := k, upAtNs := if s.downOk then edgeUpAt now else kl.upAtNs },
        { asked := some (o, .bounce), writes := [⟨false, s.downOk⟩] })
  | (k, o, .exhausted) =>
      ({ kl with kl := k, exhaustedSaid := kl.exhaustedSaid + 1 },
        { asked := some (o, .exhausted) })

/-- The body of the loop over the sniffers, on the ladder of that sniffer's name. -/
def knockTurn (kl : KnockLadder) (s : KnockSniff) (now : Nat) : KnockLadder × WakeReport :=
  if kl.upAtNs ≠ 0 then (kl, {})
  else
    let r := knockCarryOut kl s now
    (r.1, { r.2 with inited := kl.kl.wake.openedNs == 0 })

/-- The ladder a turn asks and what it is shown. -/
def knockAsked (kl : KnockLadder) (s : KnockSniff) (now : Nat) : ReacWake × WakeObs :=
  ((knockLadderOpened kl.kl s now).wake, knockLadderObs (knockLadderOpened kl.kl s now) s)

/-- The answer carried out, by what the ladder was asked. -/
theorem knockCarryOut_eq (kl : KnockLadder) (s : KnockSniff) (now : Nat) {w : ReacWake}
    {act : WakeAct}
    (h : reacWakeStep (knockAsked kl s now).1 now (knockAsked kl s now).2 = (w, act)) :
    knockCarryOut kl s now =
      let k := { knockLadderOpened kl.kl s now with wake := w }
      let o := (knockAsked kl s now).2
      match act with
      | .none =>
          ({ kl with kl := { k with wake := (reacWakeRefusalToSay w).1 } },
            { asked := some (o, .none) })
      | .bounce =>
          ({ kl with kl := k, upAtNs := if s.downOk then edgeUpAt now else kl.upAtNs },
            { asked := some (o, .bounce), writes := [⟨false, s.downOk⟩] })
      | .exhausted =>
          ({ kl with kl := k, exhaustedSaid := kl.exhaustedSaid + 1 },
            { asked := some (o, .exhausted) }) := by
  have hstep : reacKnockLadderStep kl.kl s now =
      ({ knockLadderOpened kl.kl s now with wake := w }, (knockAsked kl s now).2, act) := by
    have hunfold : reacKnockLadderStep kl.kl s now =
        ({ knockLadderOpened kl.kl s now with
            wake := (reacWakeStep (knockAsked kl s now).1 now (knockAsked kl s now).2).1 },
          (knockAsked kl s now).2,
          (reacWakeStep (knockAsked kl s now).1 now (knockAsked kl s now).2).2) := rfl
    rw [hunfold, h]
  rw [knockCarryOut, hstep]
  cases act <;> rfl

theorem knockCarryOut_asked (kl : KnockLadder) (s : KnockSniff) (now : Nat) :
    (knockCarryOut kl s now).2.asked = some ((knockAsked kl s now).2,
      (reacWakeStep (knockAsked kl s now).1 now (knockAsked kl s now).2).2) := by
  rcases h : reacWakeStep (knockAsked kl s now).1 now (knockAsked kl s now).2 with ⟨w, act⟩
  rw [knockCarryOut_eq kl s now h]
  cases act <;> rfl

theorem knockCarryOut_writes (kl : KnockLadder) (s : KnockSniff) (now : Nat) :
    (knockCarryOut kl s now).2.writes =
      if (reacWakeStep (knockAsked kl s now).1 now (knockAsked kl s now).2).2 = .bounce
      then [⟨false, s.downOk⟩] else [] := by
  rcases h : reacWakeStep (knockAsked kl s now).1 now (knockAsked kl s now).2 with ⟨w, act⟩
  rw [knockCarryOut_eq kl s now h]
  cases act <;> rfl

theorem knockCarryOut_upAtNs (kl : KnockLadder) (s : KnockSniff) (now : Nat) :
    (knockCarryOut kl s now).1.upAtNs =
      if (reacWakeStep (knockAsked kl s now).1 now (knockAsked kl s now).2).2 = .bounce ∧ s.downOk
      then edgeUpAt now else kl.upAtNs := by
  rcases h : reacWakeStep (knockAsked kl s now).1 now (knockAsked kl s now).2 with ⟨w, act⟩
  rw [knockCarryOut_eq kl s now h]
  cases act <;> simp

theorem knockCarryOut_name (kl : KnockLadder) (s : KnockSniff) (now : Nat) :
    (knockCarryOut kl s now).1.name = kl.name := by
  unfold knockCarryOut
  split <;> rfl

theorem knockCarryOut_wake (kl : KnockLadder) (s : KnockSniff) (now : Nat) :
    (knockCarryOut kl s now).1.kl.wake =
      (reacWakeStep (knockAsked kl s now).1 now (knockAsked kl s now).2).1 ∨
    (knockCarryOut kl s now).1.kl.wake = (reacWakeRefusalToSay
      (reacWakeStep (knockAsked kl s now).1 now (knockAsked kl s now).2).1).1 := by
  rcases h : reacWakeStep (knockAsked kl s now).1 now (knockAsked kl s now).2 with ⟨w, act⟩
  rw [knockCarryOut_eq kl s now h]
  cases act <;> simp

/-- The ladder is stepped once a second, every fifth poll. -/
def ladderPollsDue (polls : UInt32) : Bool := polls % 5 == 0

/-- One poll of the knock's driver as one interface sees it. -/
structure KnockPoll where
  now : Nat
  upOk : Bool
  /-- The interface's sniffer, when its wire is being knocked on. -/
  sniff : Option KnockSniff
  deriving DecidableEq, Repr

/-- `hearing_knock_wake` on one interface: its ladder slot and the shared poll count. -/
structure KnockState where
  ladder : KnockLadder
  ladderPolls : UInt32
  deriving DecidableEq, Repr

def knockWakeOne (s : KnockState) (t : KnockPoll) : KnockState × WakeReport :=
  let fin := knockFinish s.ladder t.now t.upOk
  let polls := s.ladderPolls + 1
  match if ladderPollsDue polls then t.sniff else none with
  | some sn =>
      let r := knockTurn fin.1 sn t.now
      ({ ladder := r.1, ladderPolls := polls }, { r.2 with writes := fin.2 ++ r.2.writes })
  | none => ({ ladder := fin.1, ladderPolls := polls }, { writes := fin.2 })

/-- A poll finishes an edge whose time has come, and on every fifth asks the ladder. -/
theorem knockWakeOne_cases (s : KnockState) (t : KnockPoll) :
    ((knockWakeOne s t).1.ladder = (knockFinish s.ladder t.now t.upOk).1 ∧
      (knockWakeOne s t).2 = { writes := (knockFinish s.ladder t.now t.upOk).2 }) ∨
    (∃ sn ∈ t.sniff, ladderPollsDue (s.ladderPolls + 1) = true ∧
      (knockWakeOne s t).1.ladder =
        (knockTurn (knockFinish s.ladder t.now t.upOk).1 sn t.now).1 ∧
      (knockWakeOne s t).2 =
        { (knockTurn (knockFinish s.ladder t.now t.upOk).1 sn t.now).2 with
          writes := (knockFinish s.ladder t.now t.upOk).2 ++
            (knockTurn (knockFinish s.ladder t.now t.upOk).1 sn t.now).2.writes }) := by
  by_cases hdue : ladderPollsDue (s.ladderPolls + 1) = true
  · cases hsn : t.sniff with
    | none => exact Or.inl (by simp [knockWakeOne, hsn])
    | some sn => exact Or.inr ⟨sn, rfl, hdue, by simp [knockWakeOne, hsn, hdue]⟩
  · exact Or.inl (by simp [knockWakeOne, hdue])

end ReacPw
