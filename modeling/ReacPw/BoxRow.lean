/-
The whole of `reac_box_row_resolve`: what it is given, and what it notes beside the row.

The nodes follow the row alone (`reacBoxRowResolve`).  Here the name is asked of libreac
the way the source asks it, from the family the identity page names, the name the box
sent and the widths; the catalogue's entry is only compared, and a new row leaves word of
a defect found and of a family nobody captured.

The library's namer, its families and its catalogue are parameters; a page may be missing
altogether.  The journal's lines are not modelled.
-/
import ReacPw.Autodetect
import ReacPw.Lib.Run

namespace ReacPw

/-- The texts of a name. -/
structure BoxNames where
  name : Text
  token : Text
  display : Text
  deriving DecidableEq, Repr

/-- libreac's part: `P` are the identity pages, `F` the families, `K` the catalogue's
entries. -/
structure BoxFactsApi (P F K : Type) where
  hasReacVersion : P → Bool
  /-- The name a page carries, when it carries one. -/
  modelName : P → Option Text
  /-- `reac_box_family_of`. -/
  familyOf : Option P → F
  unknownFamily : F
  /-- `reac_box_name`; none when the widths are no box's. -/
  boxName : F → Option Text → Int → Int → Option BoxNames
  /-- `reac_box_catalogue_defect`; 0 for none. -/
  catalogueDefect : Option K → Int → Int → Text → Int

/-- The facts a row is resolved from. -/
structure RowFacts (P : Type) where
  declaredIn : Int
  declaredOut : Int
  id : Option P
  waitOver : Bool
  deriving DecidableEq

structure BoxRowCache where
  rows : BoxRows := {}
  defect : Int := 0
  unknownFamily : Bool := false
  deriving DecidableEq, Repr

def reacBoxRowsInit : BoxRowCache := {}

section
variable {P F K : Type} [DecidableEq F] (A : BoxFactsApi P F K)

def RowFacts.haveHw (f : RowFacts P) : Bool := f.id.any A.hasReacVersion

def RowFacts.said (f : RowFacts P) : Option Text := f.id.bind A.modelName

def RowFacts.names (f : RowFacts P) : Option BoxNames :=
  A.boxName (A.familyOf f.id) (f.said A) f.declaredIn f.declaredOut

/-- The row a slot is filled with. -/
def RowFacts.row (f : RowFacts P) (names : BoxNames) : BoxRow :=
  { name := names.name
    token := names.token
    display := names.display
    inCh := f.declaredIn
    outCh := f.declaredOut }

/-- A row says what these facts and their display say. -/
def RowFacts.same (f : RowFacts P) (names : BoxNames) (row : BoxRow) : Bool :=
  row.inCh == f.declaredIn && row.outCh == f.declaredOut && row.display == names.display

/-- `reac_box_row_resolve`. -/
def boxRowResolve (r : BoxRowCache) (catalogue : Option K) (f : RowFacts P) :
    BoxRowCache × Option RowSlot :=
  if f.declaredIn = 0 ∧ f.declaredOut = 0 then (r, none)
  else if !f.haveHw A && !f.waitOver then (r, none)
  else
    match f.names A with
    | none => (r, none)
    | some names =>
        match r.rows.cur.filter fun p => f.same names (r.rows.row p) with
        | some p => (r, some p)
        | none =>
            ({ rows := r.rows.put (f.row names) r.rows.next
               defect := A.catalogueDefect catalogue f.declaredIn f.declaredOut names.display
               unknownFamily := decide (A.familyOf f.id = A.unknownFamily) && (f.said A).isNone },
              some r.rows.next)

/-- A call: the catalogue's entry, and the facts. -/
structure BoxRowCall (P K : Type) where
  catalogue : Option K
  facts : RowFacts P

def boxRowMachine : StepMachine BoxRowCache (BoxRowCall P K) (Option RowSlot) where
  step r c := boxRowResolve A r c.catalogue c.facts

/-! ### The part the nodes follow -/

/-- The namer as the nodes' model takes it. -/
def BoxFactsApi.nodes : BoxApi (Option P) where
  hasReacVersion id := id.any A.hasReacVersion
  boxName id i o :=
    (A.boxName (A.familyOf id) (id.bind A.modelName) i o).map fun names =>
      { name := names.name, token := names.token, display := names.display }

omit [DecidableEq F] in
theorem nodes_boxName (f : RowFacts P) :
    A.nodes.boxName f.id f.declaredIn f.declaredOut =
      (f.names A).map fun names =>
        { name := names.name, token := names.token, display := names.display } := rfl

/-- **The nodes' model is this one without what it notes.** -/
theorem boxRowResolve_rows (r : BoxRowCache) (catalogue : Option K) (f : RowFacts P) :
    ((boxRowResolve A r catalogue f).1.rows, (boxRowResolve A r catalogue f).2) =
      reacBoxRowResolve A.nodes r.rows f.declaredIn f.declaredOut f.id f.waitOver := by
  unfold boxRowResolve reacBoxRowResolve
  split
  · rfl
  · rw [show A.nodes.hasReacVersion f.id = f.haveHw A from rfl]
    split
    · rfl
    · rw [nodes_boxName]
      cases f.names A with
      | none => rfl
      | some names =>
          simp only [Option.map_some]
          unfold RowFacts.same RowFacts.row
          cases r.rows.cur.filter fun p =>
              (r.rows.row p).inCh == f.declaredIn && (r.rows.row p).outCh == f.declaredOut &&
                (r.rows.row p).display == names.display with
          | none => rfl
          | some p => rfl

end

end ReacPw
