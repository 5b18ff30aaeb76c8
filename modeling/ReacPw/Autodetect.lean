/-
A master's nodes and the box they are sized from (`reac_box_row`, `reac_node_recover`,
`on_autodetect_timer`).

The box is read off its frames as a row: two widths and a name.  Rows are kept in two
slots and handed out by pointer; the same facts give the same pointer, new facts the
other slot.  A 200 ms timer compares the pointer with the one it acted on last, and builds
reac-capture and reac-playback to the row's widths when they differ; while they agree a
ladder watches that both nodes are on the graph.

What the frames declare, the identity page and the clock are inputs, and so is what the
graph answers; libreac's name for a box is a parameter.  Whatever else resolves the row
(the log timer, a Props write, the roster's tick) is a `peek`.  A build resolves the row
again from the tick's own facts, finds the row it has just put, and is not repeated here.  The wake ladder runs on the same timer and touches no node; the texts for
the journal are not modelled.
-/
import ReacPw.Lib.Run
import ReacPw.Segconf

namespace ReacPw

/-! ### The row -/

/-- A row of `struct reac_box_model`, as a slot holds it. -/
structure BoxRow where
  name : Text := []
  token : Text := []
  display : Text := []
  inCh : Int := 0
  outCh : Int := 0
  deriving DecidableEq, Repr

/-- libreac's part: whether an identity page has the hw block, and a box's names from its
family, the name it sent and its widths; none when these are no box widths. -/
structure BoxApi (I : Type) where
  hasReacVersion : I → Bool
  boxName : I → Int → Int → Option BoxRow

/-- Which of the two slots; a row's address. -/
inductive RowSlot where
  | first
  | second
  deriving DecidableEq, Repr

structure BoxRows where
  first : BoxRow := {}
  second : BoxRow := {}
  /-- The slot last returned. -/
  cur : Option RowSlot := none
  deriving DecidableEq, Repr

/-- What an address points to. -/
def BoxRows.row (r : BoxRows) : RowSlot → BoxRow
  | .first => r.first
  | .second => r.second

def BoxRows.put (r : BoxRows) (row : BoxRow) : RowSlot → BoxRows
  | .first => { r with first := row, cur := some .first }
  | .second => { r with second := row, cur := some .second }

/-- The slot of new facts. -/
def BoxRows.next (r : BoxRows) : RowSlot := if r.cur = some .first then .second else .first

section
variable {I : Type} (A : BoxApi I)

/-- The box as its frames say (`reac_box_row_resolve`). -/
def reacBoxRowResolve (r : BoxRows) (declaredIn declaredOut : Int) (id : I) (waitOver : Bool) :
    BoxRows × Option RowSlot :=
  if declaredIn = 0 ∧ declaredOut = 0 then (r, none)
  else if !A.hasReacVersion id && !waitOver then (r, none)
  else
    match A.boxName id declaredIn declaredOut with
    | none => (r, none)
    | some names =>
        let same (p : RowSlot) : Bool :=
          (r.row p).inCh == declaredIn && (r.row p).outCh == declaredOut &&
            (r.row p).display == names.display
        match r.cur.filter same with
        | some p => (r, some p)
        | none =>
            (r.put { names with inCh := declaredIn, outCh := declaredOut } r.next, some r.next)

def reacBoxRowHasPlayback (row : BoxRow) : Bool := decide (0 < row.outCh)

/-- How long a name waits for the identity page. -/
def reacpwBoxNameWaitNs : Nat := 3000000000

/-- What the pacer has published of the box. -/
structure BoxFacts (I : Type) where
  declaredIn : Int
  declaredOut : Int
  identity : I

/-- The part of a master's sink that names the box. -/
structure BoxSeen where
  rows : BoxRows := {}
  declInSeen : Int := 0
  declOutSeen : Int := 0
  boxDeclSinceNs : Nat := 0
  deriving DecidableEq, Repr

/-- `sink_box_row`. -/
def sinkBoxRow (s : BoxSeen) (f : BoxFacts I) (now : Nat) : BoxSeen × Option RowSlot :=
  let s :=
    if f.declaredIn ≠ s.declInSeen ∨ f.declaredOut ≠ s.declOutSeen then
      { s with
        declInSeen := f.declaredIn
        declOutSeen := f.declaredOut
        boxDeclSinceNs := if f.declaredIn ≠ 0 ∨ f.declaredOut ≠ 0 then now else 0 }
    else s
  let waitOver := decide (s.boxDeclSinceNs ≠ 0 ∧ reacpwBoxNameWaitNs ≤ now - s.boxDeclSinceNs)
  let r := reacBoxRowResolve A s.rows f.declaredIn f.declaredOut f.identity waitOver
  ({ s with rows := r.1 }, r.2)

end

/-! ### The ladder of a missing node -/

inductive RecoverAct where
  | wait
  | rebuild
  | giveUp
  deriving DecidableEq, Repr

structure NodeRecover where
  /-- Consecutive ticks off the graph. -/
  absent : Nat := 0
  attempts : Nat := 0
  gaveUp : Bool := false
  deriving DecidableEq, Repr

def reacRecoverGraceTicks : Nat := 10
def reacRecoverMaxAttempts : Nat := 5
def reacRecoverMaxShift : Nat := 4

def reacNodeRecoverInit : NodeRecover := {}

def reacNodeRecoverWindow (r : NodeRecover) : Nat :=
  reacRecoverGraceTicks <<< min r.attempts reacRecoverMaxShift

def reacNodeRecoverStep (r : NodeRecover) (onGraph : Bool) : NodeRecover × RecoverAct :=
  if onGraph then (reacNodeRecoverInit, .wait)
  else if r.gaveUp then (r, .wait)
  else
    let r := { r with absent := r.absent + 1 }
    if r.absent < reacNodeRecoverWindow r then (r, .wait)
    else
      let r := { r with absent := 0 }
      if reacRecoverMaxAttempts ≤ r.attempts then ({ r with gaveUp := true }, .giveUp)
      else ({ r with attempts := r.attempts + 1 }, .rebuild)

/-! ### The two nodes -/

/-- What a node was built with. -/
structure BoxNode where
  channels : Int
  label : Text
  deriving DecidableEq, Repr

def reacMaxChannels : Int := 40

/-- A label, as a node keeps it. -/
def nodeLabel (label : Text) : Text := clipped 64 label

def reacNodeEnsureNeedsRebuild (node : Option BoxNode) (want : BoxNode) : Bool :=
  decide (node ≠ some want)

/-- `reac_source_node_ensure`; `built` is whether a build succeeds. -/
def reacSourceNodeEnsure (node : Option BoxNode) (channels : Int) (label : Text) (built : Bool) :
    Option BoxNode :=
  let want : BoxNode :=
    { channels := if 0 < channels ∧ channels ≤ reacMaxChannels then channels else reacMaxChannels
      label := nodeLabel label }
  if !reacNodeEnsureNeedsRebuild node want then node
  else if built then some want
  else none

/-- `reac_sink_node_ensure`: no node for no outputs. -/
def reacSinkNodeEnsure (node : Option BoxNode) (channels : Int) (label : Text) (built : Bool) :
    Option BoxNode :=
  let want := if reacMaxChannels < channels then reacMaxChannels else channels
  if want < 0 then node
  else if want = 0 then none
  else
    let want : BoxNode := { channels := want, label := nodeLabel label }
    if !reacNodeEnsureNeedsRebuild node want then node
    else if built then some want
    else none

/-! ### The timer -/

/-- What the timer reads and writes of a master listener. -/
structure AutodetectNodes where
  seen : BoxSeen := {}
  /-- reac-capture, while there is one. -/
  src : Option BoxNode := none
  /-- reac-playback, while there is one. -/
  sink : Option BoxNode := none
  /-- The row last acted on. -/
  last : Option RowSlot := none
  pinned : Bool := false
  recover : NodeRecover := reacNodeRecoverInit
  /-- A rebuilt capture needs the sink's badges again. -/
  restamp : Bool := false
  deriving DecidableEq, Repr

/-- What one tick finds. -/
structure AutodetectTick (I : Type) where
  now : Nat
  facts : BoxFacts I
  /-- What the graph says of a node there is. -/
  srcOnGraph : Bool
  sinkOnGraph : Bool
  srcBuilt : Bool
  sinkBuilt : Bool

section
variable {I : Type} (A : BoxApi I)

/-- The nodes sized to a row, and the capture's badges stamped if it was rebuilt. -/
def autodetectSized (c : AutodetectNodes) (t : AutodetectTick I) (bm : RowSlot) (row : BoxRow) :
    AutodetectNodes :=
  { c with
    last := some bm
    src := reacSourceNodeEnsure c.src row.inCh row.display t.srcBuilt
    sink :=
      if !reacBoxRowHasPlayback row then none
      else reacSinkNodeEnsure c.sink row.outCh row.display t.sinkBuilt
    restamp := false }

/-- One tick: the listener, and the row it recognised. -/
def onAutodetectTimer (c : AutodetectNodes) (t : AutodetectTick I) :
    AutodetectNodes × Option BoxRow :=
  match sinkBoxRow A c.seen t.facts t.now with
  | (seen, none) =>
      let c := { c with seen := seen }
      if c.last.isSome && !c.pinned then
        ({ c with
            src := none, sink := none, last := none, restamp := true,
            recover := reacNodeRecoverInit }, none)
      else (c, none)
  | (seen, some bm) =>
      let c := { c with seen := seen }
      let row := seen.rows.row bm
      if c.last = some bm then
        -- the same row: is what we said we built really there?
        let onGraph := c.src.isSome && t.srcOnGraph
        let sinkOnGraph := !reacBoxRowHasPlayback row || c.sink.isSome && t.sinkOnGraph
        match reacNodeRecoverStep c.recover (onGraph && sinkOnGraph) with
        | (r, .rebuild) =>
            let c :=
              { c with
                recover := r
                src := if onGraph then c.src else none
                restamp := c.restamp || !onGraph
                sink := if sinkOnGraph then c.sink else none }
            (autodetectSized c t bm row, some row)
        | (r, _) => ({ c with recover := r }, some row)
      else (autodetectSized { c with recover := reacNodeRecoverInit } t bm row, some row)

/-! ### The machine -/

inductive AutodetectEvent (I : Type) where
  | tick (t : AutodetectTick I)
  /-- Another caller resolves the row. -/
  | peek (facts : BoxFacts I) (now : Nat)

/-- One event; a tick gives the row it recognised. -/
def autodetectMachine :
    StepMachine AutodetectNodes (AutodetectEvent I) (Option (Option BoxRow)) where
  step c
    | .tick t => ((onAutodetectTimer A c t).1, some (onAutodetectTimer A c t).2)
    | .peek facts now => ({ c with seen := (sinkBoxRow A c.seen facts now).1 }, none)

end

end ReacPw
