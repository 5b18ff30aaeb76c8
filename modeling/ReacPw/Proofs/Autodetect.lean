/-
When the nodes follow the recognised box.

A tick that sees another address than the one it acted on builds the nodes to the row;
one that sees the same address trusts that the row has not changed.  Two slots hold the
rows, and others resolve between two ticks: after an even number of new rows the address
is the old one again, over another row.  `TickKept` excludes exactly that.

Beside the listener runs a trace, the row of the last tick and the number of rows made
since.  The number says which slot is current, and while it is 0 the remembered address
still points to the row of that tick; the nodes always have that row's widths and name
(`FollowInv`), whatever the ladder of a missing node does.
-/
import ReacPw.Autodetect

namespace ReacPw

variable {I : Type} (A : BoxApi I)

/-! ### Resolving the row -/

@[simp] theorem row_put (r : BoxRows) (row : BoxRow) (p : RowSlot) : (r.put row p).row p = row := by
  cases p with
  | first => rfl
  | second => rfl

@[simp] theorem put_cur (r : BoxRows) (row : BoxRow) (p : RowSlot) :
    (r.put row p).cur = some p := by
  cases p with
  | first => rfl
  | second => rfl

/-- The slot beside. -/
def RowSlot.other : RowSlot → RowSlot
  | .first => .second
  | .second => .first

theorem next_of_cur {r : BoxRows} {p : RowSlot} (h : r.cur = some p) : r.next = p.other := by
  cases p with
  | first => simp [BoxRows.next, h, RowSlot.other]
  | second => simp [BoxRows.next, h, RowSlot.other]

/-- Nothing, the current row, or a new row in the slot beside. -/
theorem reacBoxRowResolve_cases (r : BoxRows) (i o : Int) (id : I) (waitOver : Bool) :
    reacBoxRowResolve A r i o id waitOver = (r, none) ∨
    (∃ p, r.cur = some p ∧ reacBoxRowResolve A r i o id waitOver = (r, some p)) ∨
    ∃ row, reacBoxRowResolve A r i o id waitOver = (r.put row r.next, some r.next) := by
  unfold reacBoxRowResolve
  split
  · exact Or.inl rfl
  · split
    · exact Or.inl rfl
    · split
      · exact Or.inl rfl
      · dsimp only
        split
        · rename_i p hp
          refine Or.inr (Or.inl ⟨p, ?_, rfl⟩)
          exact (Option.filter_eq_some_iff.mp hp).1
        · exact Or.inr (Or.inr ⟨_, rfl⟩)

/-- `reac_sink_node_recognized_box`, and what its address points to. -/
def recognizedBox (s : BoxSeen) (t : AutodetectTick I) : Option (RowSlot × BoxRow) :=
  match sinkBoxRow A s t.facts t.now with
  | (_, none) => none
  | (seen, some bm) => some (bm, seen.rows.row bm)

/-! ### What the nodes should be -/

/-- The nodes of a row: no box has none, a box without outputs no reac-playback. -/
def NodesFollow (c : AutodetectNodes) : Option BoxRow → Prop
  | none => c.src = none ∧ c.sink = none
  | some row =>
      c.src = some { channels := row.inCh, label := nodeLabel row.display } ∧
      c.sink =
        if 0 < row.outCh then some { channels := row.outCh, label := nodeLabel row.display }
        else none

/-- A row whose widths a node can have. -/
def RowFits (row : BoxRow) : Prop :=
  0 < row.inCh ∧ row.inCh ≤ reacMaxChannels ∧ row.outCh ≤ reacMaxChannels

instance (row : BoxRow) : Decidable (RowFits row) := inferInstanceAs (Decidable (_ ∧ _ ∧ _))

theorem sourceEnsure_fits {node : Option BoxNode} {row : BoxRow} (h : RowFits row) :
    reacSourceNodeEnsure node row.inCh row.display true =
      some { channels := row.inCh, label := nodeLabel row.display } := by
  have hwidth : (if 0 < row.inCh ∧ row.inCh ≤ reacMaxChannels then row.inCh else reacMaxChannels) =
      row.inCh := if_pos ⟨h.1, h.2.1⟩
  unfold reacSourceNodeEnsure reacNodeEnsureNeedsRebuild
  dsimp only
  rw [hwidth]
  by_cases hsame : node = some { channels := row.inCh, label := nodeLabel row.display }
  · simp [hsame]
  · simp [hsame]

theorem sinkEnsure_fits {node : Option BoxNode} {row : BoxRow} (h : RowFits row)
    (hout : 0 < row.outCh) :
    reacSinkNodeEnsure node row.outCh row.display true =
      some { channels := row.outCh, label := nodeLabel row.display } := by
  have hwide : ¬reacMaxChannels < row.outCh := Int.not_lt.mpr h.2.2
  have hneg : ¬row.outCh < 0 := by omega
  have hzero : ¬row.outCh = 0 := by omega
  unfold reacSinkNodeEnsure reacNodeEnsureNeedsRebuild
  dsimp only
  rw [if_neg hwide, if_neg hneg, if_neg hzero]
  by_cases hsame : node = some { channels := row.outCh, label := nodeLabel row.display }
  · simp [hsame]
  · simp [hsame]

/-- **Nodes that are sized follow their row.** -/
theorem autodetectSized_follows (c : AutodetectNodes) {t : AutodetectTick I} (bm : RowSlot)
    {row : BoxRow} (hfits : RowFits row) (hsrc : t.srcBuilt = true) (hsink : t.sinkBuilt = true) :
    NodesFollow (autodetectSized c t bm row) (some row) := by
  constructor
  · show reacSourceNodeEnsure c.src row.inCh row.display t.srcBuilt = _
    rw [hsrc]
    exact sourceEnsure_fits hfits
  · show (if !reacBoxRowHasPlayback row then none
      else reacSinkNodeEnsure c.sink row.outCh row.display t.sinkBuilt) = _
    by_cases hout : 0 < row.outCh
    · have hplayback : reacBoxRowHasPlayback row = true := by simpa [reacBoxRowHasPlayback] using hout
      rw [if_pos hout, hplayback, hsink]
      exact sinkEnsure_fits hfits hout
    · have hplayback : reacBoxRowHasPlayback row = false := by
        simpa [reacBoxRowHasPlayback] using hout
      rw [if_neg hout, hplayback]
      rfl

/-! ### One tick -/

/-- What a tick has to find: builds that succeed, and a row whose widths a node can have. -/
structure TickBuilds (c : AutodetectNodes) (t : AutodetectTick I) : Prop where
  src : t.srcBuilt = true
  sink : t.sinkBuilt = true
  fits : ∀ found ∈ recognizedBox A c.seen t, RowFits found.2

instance (c : AutodetectNodes) (t : AutodetectTick I) : Decidable (TickBuilds A c t) :=
  decidable_of_iff
    (t.srcBuilt = true ∧ t.sinkBuilt = true ∧ ∀ found ∈ recognizedBox A c.seen t, RowFits found.2)
    ⟨fun h => ⟨h.1, h.2.1, h.2.2⟩, fun h => ⟨h.src, h.sink, h.fits⟩⟩

/-- The row of the last tick, and the rows made since. -/
structure RowTrace where
  sized : Option BoxRow := none
  made : Nat := 0
  deriving DecidableEq, Repr

/-- Whether a look makes a new row. -/
def lookMakes (s : BoxSeen) (f : BoxFacts I) (now : Nat) : Nat :=
  if (sinkBoxRow A s f now).1.rows.cur = s.rows.cur then 0 else 1

/-- After an even number of new rows, the last of them is the row of the last tick again. -/
def TickKept (c : AutodetectNodes) (trace : RowTrace) (t : AutodetectTick I) : Prop :=
  let made := trace.made + lookMakes A c.seen t.facts t.now
  ∀ found ∈ recognizedBox A c.seen t,
    c.last.isSome = true → 0 < made → made % 2 = 0 → trace.sized = some found.2

instance (c : AutodetectNodes) (trace : RowTrace) (t : AutodetectTick I) :
    Decidable (TickKept A c trace t) :=
  inferInstanceAs (Decidable (∀ found ∈ recognizedBox A c.seen t, _ → _ → _ → _))

/-- The nodes have the widths and the name of the last tick's row; the rows made since say
where that row's address is. -/
structure FollowInv (c : AutodetectNodes) (trace : RowTrace) : Prop where
  pinned : c.pinned = false
  last : c.last = none → trace.sized = none
  nodes : NodesFollow c trace.sized
  slot : ∀ p, c.last = some p →
    c.seen.rows.cur = some (if trace.made % 2 = 0 then p else p.other)
  kept : ∀ p, c.last = some p → trace.made = 0 → trace.sized = some (c.seen.rows.row p)

theorem followInv_start : FollowInv {} {} := by
  constructor
  · rfl
  · intro _
    rfl
  · exact ⟨rfl, rfl⟩
  · intro p hp
    exact absurd hp (by simp)
  · intro p hp
    exact absurd hp (by simp)

variable {A}

/-- A tick gives the row it recognises. -/
theorem tick_row (c : AutodetectNodes) (t : AutodetectTick I) :
    (onAutodetectTimer A c t).2 = (recognizedBox A c.seen t).map (·.2) := by
  unfold onAutodetectTimer recognizedBox
  obtain ⟨seen, bm⟩ := sinkBoxRow A c.seen t.facts t.now
  cases bm with
  | none =>
      dsimp only
      split
      · rfl
      · rfl
  | some bm =>
      dsimp only
      split
      · split
        · rfl
        · rfl
      · rfl

/-- Where the rows are after a look. -/
theorem look_cases (s : BoxSeen) (f : BoxFacts I) (now : Nat) :
    ((sinkBoxRow A s f now).1.rows = s.rows ∧
      ((sinkBoxRow A s f now).2 = none ∨ (sinkBoxRow A s f now).2 = s.rows.cur)) ∨
    ∃ row, (sinkBoxRow A s f now).1.rows = s.rows.put row s.rows.next ∧
      (sinkBoxRow A s f now).2 = some s.rows.next := by
  have hrows : ∀ s' : BoxSeen, s'.rows = s.rows → ∀ waitOver,
      let r := reacBoxRowResolve A s'.rows f.declaredIn f.declaredOut f.identity waitOver
      (r.1 = s.rows ∧ (r.2 = none ∨ r.2 = s.rows.cur)) ∨
        ∃ row, r.1 = s.rows.put row s.rows.next ∧ r.2 = some s.rows.next := by
    intro s' hs' waitOver
    rw [hs']
    dsimp only
    obtain hnone | ⟨p, hcur, hsame⟩ | ⟨row, hnew⟩ :=
      reacBoxRowResolve_cases A s.rows f.declaredIn f.declaredOut f.identity waitOver
    · rw [hnone]
      exact Or.inl ⟨rfl, Or.inl rfl⟩
    · rw [hsame]
      exact Or.inl ⟨rfl, Or.inr hcur.symm⟩
    · rw [hnew]
      exact Or.inr ⟨row, rfl, rfl⟩
  unfold sinkBoxRow
  dsimp only
  split
  · exact hrows _ rfl _
  · exact hrows s rfl _

/-- **A look moves the current slot exactly when it makes a row.** -/
theorem look_slot {s : BoxSeen} {p : RowSlot} {made : Nat}
    (h : s.rows.cur = some (if made % 2 = 0 then p else p.other)) (f : BoxFacts I) (now : Nat) :
    (sinkBoxRow A s f now).1.rows.cur =
      some (if (made + lookMakes A s f now) % 2 = 0 then p else p.other) ∧
    (lookMakes A s f now = 0 → (sinkBoxRow A s f now).1.rows = s.rows) := by
  obtain ⟨hsame, -⟩ | ⟨row, hnew, -⟩ := look_cases (A := A) s f now
  · have hmakes : lookMakes A s f now = 0 := by simp [lookMakes, hsame]
    rw [hmakes, hsame]
    exact ⟨h, fun _ => rfl⟩
  · have hnext := next_of_cur h
    have hcur : (sinkBoxRow A s f now).1.rows.cur = some s.rows.next := by rw [hnew, put_cur]
    have hmoved : s.rows.next ≠ (if made % 2 = 0 then p else p.other) := by
      rw [hnext]
      cases (if made % 2 = 0 then p else p.other) with
      | first => simp [RowSlot.other]
      | second => simp [RowSlot.other]
    have hmakes : lookMakes A s f now = 1 := by
      unfold lookMakes
      rw [hcur, h, if_neg (by simpa using hmoved)]
    rw [hmakes, hcur, hnext]
    refine ⟨?_, by simp⟩
    obtain heven | hodd := Nat.mod_two_eq_zero_or_one made
    · have hnow : (made + 1) % 2 = 1 := by omega
      simp [heven, hnow]
    · have hnow : (made + 1) % 2 = 0 := by omega
      cases p with
      | first => simp [hodd, hnow, RowSlot.other]
      | second => simp [hodd, hnow, RowSlot.other]

/-- A row that is recognised is the current one. -/
theorem recognized_cur {s : BoxSeen} {f : BoxFacts I} {now : Nat} {bm : RowSlot}
    (h : (sinkBoxRow A s f now).2 = some bm) : (sinkBoxRow A s f now).1.rows.cur = some bm := by
  obtain ⟨hsame, hnone | hcur⟩ | ⟨row, hnew, hbm⟩ := look_cases (A := A) s f now
  · rw [hnone] at h
    exact absurd h (by simp)
  · rw [hsame, ← hcur, h]
  · rw [hnew, put_cur, ← hbm, h]

theorem recognizedBox_of {s : BoxSeen} {t : AutodetectTick I} {seen : BoxSeen} {bm : RowSlot}
    (h : sinkBoxRow A s t.facts t.now = (seen, some bm)) :
    recognizedBox A s t = some (bm, seen.rows.row bm) := by
  unfold recognizedBox
  rw [h]

/-- An address the last tick acted on points to that tick's row. -/
theorem FollowInv.same_row {c : AutodetectNodes} {trace : RowTrace} (h : FollowInv c trace)
    {t : AutodetectTick I} (hkept : TickKept A c trace t) {seen : BoxSeen} {bm : RowSlot}
    (hrow : sinkBoxRow A c.seen t.facts t.now = (seen, some bm)) (hlast : c.last = some bm) :
    trace.sized = some (seen.rows.row bm) := by
  obtain ⟨hslot, hrows⟩ := look_slot (A := A) (h.slot bm hlast) t.facts t.now
  have hcur := recognized_cur (A := A) (congrArg Prod.snd hrow)
  rw [hrow] at hslot hrows hcur
  have heven : (trace.made + lookMakes A c.seen t.facts t.now) % 2 = 0 := by
    by_contra hodd
    rw [hcur, if_neg hodd] at hslot
    cases bm with
    | first => simp [RowSlot.other] at hslot
    | second => simp [RowSlot.other] at hslot
  by_cases hnone : trace.made + lookMakes A c.seen t.facts t.now = 0
  · have hmade : trace.made = 0 := by omega
    have hmakes : lookMakes A c.seen t.facts t.now = 0 := by omega
    have hsame : seen.rows = c.seen.rows := hrows hmakes
    rw [hsame]
    exact h.kept bm hlast hmade
  · apply hkept _ (recognizedBox_of hrow)
    · rw [hlast]
      rfl
    · exact Nat.pos_of_ne_zero hnone
    · exact heven

/-- What a tick leaves when it recognised a row and its nodes follow it. -/
theorem followInv_sized {c : AutodetectNodes} {bm : RowSlot} (hpinned : c.pinned = false)
    (hlast : c.last = some bm) (hcur : c.seen.rows.cur = some bm)
    (hnodes : NodesFollow c (some (c.seen.rows.row bm))) :
    FollowInv c { sized := some (c.seen.rows.row bm) } := by
  constructor
  · exact hpinned
  · intro hnone
    exact absurd (hlast.symm.trans hnone) (by simp)
  · exact hnodes
  · intro p hp
    rw [hcur, ← hlast, hp]
    rfl
  · intro p hp _
    obtain rfl : bm = p := Option.some.inj (hlast.symm.trans hp)
    rfl

/-- **One tick.** -/
theorem FollowInv.tick {c : AutodetectNodes} {trace : RowTrace} (h : FollowInv c trace)
    {t : AutodetectTick I} (hbuilds : TickBuilds A c t) (hkept : TickKept A c trace t) :
    FollowInv (onAutodetectTimer A c t).1 { sized := (onAutodetectTimer A c t).2 } := by
  obtain ⟨hsrc, hsink, hfits⟩ := hbuilds
  cases hlook : sinkBoxRow A c.seen t.facts t.now with
  | mk seen row =>
      cases row with
      | none =>
          -- no box: its nodes go with it
          unfold onAutodetectTimer
          rw [hlook]
          dsimp only
          by_cases hlast : c.last.isSome = true
          · rw [h.pinned, hlast, if_pos (by decide)]
            exact ⟨rfl, fun _ => rfl, ⟨rfl, rfl⟩, by simp, by simp⟩
          · have hnone : c.last = none := by simpa using hlast
            have hnodes := h.nodes
            rw [h.last hnone] at hnodes
            simp only [hnone, Option.isSome_none, Bool.false_and]
            exact ⟨h.pinned, fun _ => rfl, hnodes, by simp, by simp⟩
      | some bm =>
          have hfit : RowFits (seen.rows.row bm) := hfits _ (recognizedBox_of hlook)
          have hcur : seen.rows.cur = some bm := by
            have hcur := recognized_cur (A := A) (congrArg Prod.snd hlook)
            rw [hlook] at hcur
            exact hcur
          by_cases hlast : c.last = some bm
          · have hsized := h.same_row hkept hlook hlast
            have hnodes := h.nodes
            rw [hsized] at hnodes
            unfold onAutodetectTimer
            rw [hlook]
            dsimp only
            rw [if_pos hlast]
            split
            · apply followInv_sized
              · exact h.pinned
              · rfl
              · exact hcur
              · exact autodetectSized_follows _ bm hfit hsrc hsink
            · apply followInv_sized
              · exact h.pinned
              · exact hlast
              · exact hcur
              · exact hnodes
          · unfold onAutodetectTimer
            rw [hlook]
            dsimp only
            rw [if_neg hlast]
            apply followInv_sized
            · exact h.pinned
            · rfl
            · exact hcur
            · exact autodetectSized_follows _ bm hfit hsrc hsink

/-- Another caller's look. -/
theorem FollowInv.peek {c : AutodetectNodes} {trace : RowTrace} (h : FollowInv c trace)
    (f : BoxFacts I) (now : Nat) :
    FollowInv { c with seen := (sinkBoxRow A c.seen f now).1 }
      { trace with made := trace.made + lookMakes A c.seen f now } := by
  constructor
  · exact h.pinned
  · exact h.last
  · exact h.nodes
  · intro p hp
    exact (look_slot (h.slot p hp) f now).1
  · intro p hp hmade
    have hbefore : trace.made = 0 := by
      have hsum : trace.made + lookMakes A c.seen f now = 0 := hmade
      omega
    have hmakes : lookMakes A c.seen f now = 0 := by
      have hsum : trace.made + lookMakes A c.seen f now = 0 := hmade
      omega
    have hrows := (look_slot (h.slot p hp) f now).2 hmakes
    show trace.sized = some ((sinkBoxRow A c.seen f now).1.rows.row p)
    rw [hrows]
    exact h.kept p hp hbefore

/-! ### Runs -/

variable (A)

/-- The trace beside the listener. -/
def noteRow (trace : RowTrace) (c : AutodetectNodes) (e : AutodetectEvent I)
    (row : Option (Option BoxRow)) : RowTrace :=
  match e with
  | .tick _ => { sized := row.getD none }
  | .peek facts now => { trace with made := trace.made + lookMakes A c.seen facts now }

/-- The listener with its trace. -/
def autodetectRun :
    StepMachine (AutodetectNodes × RowTrace) (AutodetectEvent I) (Option (Option BoxRow)) :=
  (autodetectMachine A).withHistory (noteRow A)

/-- What every tick of a run has to find. -/
def EventBuilds (s : AutodetectNodes × RowTrace) : AutodetectEvent I → Prop
  | .tick t => TickBuilds A s.1 t
  | .peek _ _ => True

def EventKept (s : AutodetectNodes × RowTrace) : AutodetectEvent I → Prop
  | .tick t => TickKept A s.1 s.2 t
  | .peek _ _ => True

instance (s : AutodetectNodes × RowTrace) (e : AutodetectEvent I) : Decidable (EventBuilds A s e) :=
  match e with
  | .tick t => inferInstanceAs (Decidable (TickBuilds A s.1 t))
  | .peek _ _ => inferInstanceAs (Decidable True)

instance (s : AutodetectNodes × RowTrace) (e : AutodetectEvent I) : Decidable (EventKept A s e) :=
  match e with
  | .tick t => inferInstanceAs (Decidable (TickKept A s.1 s.2 t))
  | .peek _ _ => inferInstanceAs (Decidable True)

theorem autodetectRun_step (s : AutodetectNodes × RowTrace) (e : AutodetectEvent I)
    (h : FollowInv s.1 s.2) (hok : EventBuilds A s e ∧ EventKept A s e) :
    FollowInv ((autodetectRun A).step s e).1.1 ((autodetectRun A).step s e).1.2 := by
  cases e with
  | tick t => exact h.tick hok.1 hok.2
  | peek facts now => exact h.peek facts now

/-- **The nodes follow the recognised box** after every tick of a run in which no address
came back over another row. -/
theorem nodes_follow_box (run : List (AutodetectEvent I)) (t : AutodetectTick I)
    (hbuilds : (autodetectRun A).Guarded (EventBuilds A) ({}, {}) (run ++ [.tick t]))
    (hkept : (autodetectRun A).Guarded (EventKept A) ({}, {}) (run ++ [.tick t])) :
    NodesFollow ((autodetectRun A).after ({}, {}) (run ++ [.tick t])).1
      ((recognizedBox A ((autodetectRun A).after ({}, {}) run).1.seen t).map (·.2)) := by
  have hend := (autodetectRun A).invariant_guarded (I := fun s => FollowInv s.1 s.2)
    (autodetectRun_step A) _ _ followInv_start
    (((autodetectRun A).guarded_and _ _).mpr ⟨hbuilds, hkept⟩)
  rw [StepMachine.after_concat] at hend ⊢
  rw [← tick_row]
  exact hend.nodes

/-! ### Three boxes between two ticks -/

/-- Boxes named by their widths, and an identity page that is always there. -/
def plainBoxes : BoxApi Unit where
  hasReacVersion _ := true
  boxName _ i _ := some { display := txt "REAC-" ++ (toString i).toList }

def widths (i o : Int) : BoxFacts Unit := { declaredIn := i, declaredOut := o, identity := () }

/-- A tick of a healthy graph. -/
def plainTick (i o : Int) : AutodetectTick Unit :=
  { now := 1, facts := widths i o, srcOnGraph := true, sinkOnGraph := true, srcBuilt := true,
    sinkBuilt := true }

theorem nodes_follow_box_swapped :
    NodesFollow
      ((autodetectRun plainBoxes).after ({}, {})
        ([.tick (plainTick 16 8), .peek (widths 8 8) 1] ++ [.tick (plainTick 8 8)])).1
      ((recognizedBox plainBoxes
        ((autodetectRun plainBoxes).after ({}, {})
          [.tick (plainTick 16 8), .peek (widths 8 8) 1]).1.seen (plainTick 8 8)).map (·.2)) := by
  apply nodes_follow_box
  · decide
  · decide

/-- The third box has the first one's slot: its nodes are never built. -/
theorem nodes_follow_box_aba :
    ¬∀ (I : Type) (A : BoxApi I) (run : List (AutodetectEvent I)) (t : AutodetectTick I),
      (autodetectRun A).Guarded (EventBuilds A) ({}, {}) (run ++ [.tick t]) →
        NodesFollow ((autodetectRun A).after ({}, {}) (run ++ [.tick t])).1
          ((recognizedBox A ((autodetectRun A).after ({}, {}) run).1.seen t).map (·.2)) := by
  intro hclaim
  have hfollow := hclaim Unit plainBoxes
    [.tick (plainTick 16 8), .peek (widths 8 8) 1, .peek (widths 32 8) 1] (plainTick 32 8)
    (by decide)
  have hsrc := hfollow.1
  exact absurd hsrc (by decide)

end ReacPw
