/-
A master's head-amp door.

A Props object may carry head-amp cells, `reac.headamp.<ch>.<param>` keys with a value
each.  Where the segment can carry a head-amp record at all, every cell that reads well is
handed to the pacer's command ring and noted in the table the readback is rendered from
(`ha_asserted`).  The pacer's thread takes commands off the ring when it likes.

The ring's capacity and the number of head-amp channels are the transport library's.
-/
import Mathlib.Logic.Function.Basic
import ReacPw.Lib.Decimal
import ReacPw.RateDoor

namespace ReacPw

structure HeadampLimits where
  /-- `REAC_HEADAMP_MAX_CH`. -/
  maxCh : Nat
  /-- `REAC_HEADAMP_CMD_RING`. -/
  cmdRing : Nat
  deriving DecidableEq, Repr

inductive HeadampParam where
  | phantom
  | pad
  | sens
  deriving DecidableEq, Repr

/-- A head-amp cell's address. -/
abbrev HeadampCell := Nat × HeadampParam

/-- `struct reac_headamp_setting`. -/
structure HeadampSetting where
  cell : HeadampCell
  value : Nat
  deriving DecidableEq, Repr

/-- `enum reac_headamp_refuse`. -/
inductive HeadampRefuse where
  | accepted
  | noBox
  | boxMaster
  | noBase
  | badKey
  | outOfRange
  deriving DecidableEq, Repr

def reacHeadampCfgDecide (boxMaster : Bool) (channels base : Int) : HeadampRefuse :=
  if boxMaster then .boxMaster
  else if channels ≤ 0 then .noBox
  else if base < 0 then .noBase
  else .accepted

/-- `REAC_HEADAMP_SENS_MAX`. -/
def headampSensMax : Nat := 0x37

def valueInRange : HeadampParam → Nat → Bool
  | .sens, value => value ≤ headampSensMax
  | _, value => value ≤ 1

/-- An address of the table with a value its parameter takes. -/
def HeadampSetting.inRange (limits : HeadampLimits) (s : HeadampSetting) : Bool :=
  decide (s.cell.1 < limits.maxCh) && valueInRange s.cell.2 s.value

/-! ### Reading the cells -/

def isSpace (c : Char) : Bool := c ∈ [' ', '\t', '\n', '\x0b', '\x0c', '\r']

/-- `strtol` in base ten: the number and what follows it, none without a digit.  It stops at
the ends of a `long` in C, which are past every channel either way. -/
def strtol (s : List Char) : Option (Int × List Char) :=
  let s := s.dropWhile isSpace
  let negative := s.head? = some '-'
  let s := if negative ∨ s.head? = some '+' then s.tail else s
  let digits := s.takeWhile Char.isDigit
  if digits = [] then none
  else some (if negative then -(Decimal.value digits : Int) else Decimal.value digits,
    s.dropWhile Char.isDigit)

def paramNameToId (name : List Char) : Option HeadampParam :=
  if name = "phantom".toList then some .phantom
  else if name = "pad".toList then some .pad
  else if name = "sens".toList then some .sens
  else none

/-- The key after its prefix, `<ch>.<param>` (`parse_key`). -/
def headampParseKey (limits : HeadampLimits) (rest : List Char) :
    Except HeadampRefuse HeadampCell :=
  match strtol rest with
  | some (c, '.' :: name) =>
      match paramNameToId name with
      | none => .error .badKey
      | some p =>
          if c < 0 ∨ (limits.maxCh : Int) ≤ c then .error .outOfRange else .ok (c.toNat, p)
  | _ => .error .badKey

def valuePodToByte : ParamPod → Option Nat
  | .bool b => some b.toNat
  | .int i => if 0 ≤ i ∧ i ≤ 255 then some i.toNat else none
  | .float (some near) => if 0 ≤ near ∧ near ≤ 255 then some near.toNat else none
  | _ => none

/-- One key of the prefix and its value. -/
def parseCell (limits : HeadampLimits) (rest : List Char) (value : ParamPod) :
    Except HeadampRefuse HeadampSetting :=
  match headampParseKey limits rest with
  | .error refusal => .error refusal
  | .ok cell =>
      match valuePodToByte value with
      | none => .error .outOfRange
      | some v => if valueInRange cell.2 v then .ok ⟨cell, v⟩ else .error .outOfRange

/-- What the parse hands back: the cells, the keys seen, and the first refusal. -/
structure HeadampParse where
  cells : List HeadampSetting := []
  keys : Nat := 0
  refusal : HeadampRefuse := .accepted
  deriving DecidableEq, Repr

def headampPrefix : List Char := "reac.headamp.".toList

/-- The walk over the struct; `key` is the key that awaits its value, `max` the room for
cells, past which the walk stops. -/
def headampWalk (limits : HeadampLimits) (max : Nat) :
    Option String → List ParamPod → HeadampParse → HeadampParse
  | _, [], r => r
  | none, .str s :: rest, r => headampWalk limits max (some s) rest r
  | none, _ :: rest, r => headampWalk limits max none rest r
  | some k, value :: rest, r =>
      if headampPrefix.isPrefixOf k.toList then
        let r := { r with keys := r.keys + 1 }
        match parseCell limits (k.toList.drop headampPrefix.length) value with
        | .error refusal =>
            headampWalk limits max none rest
              { r with refusal := if r.refusal = .accepted then refusal else r.refusal }
        | .ok s =>
            if r.cells.length < max then
              headampWalk limits max none rest { r with cells := r.cells ++ [s] }
            else r
      else headampWalk limits max none rest r

/-- `reac_headamp_prop_parse_result` into room for `max` cells. -/
def reacHeadampPropParseResult (limits : HeadampLimits) (max : Nat) : PropsPod → HeadampParse
  | .params pods => headampWalk limits max none pods {}
  | _ => {}

/-- The parse as the door calls it, with room for every cell there is. -/
def reacHeadampPropParse (limits : HeadampLimits) : PropsPod → HeadampParse
  | .params pods => headampWalk limits (limits.maxCh * 3) none pods {}
  | _ => {}

/-! ### The ring and the two tables -/

/-- A value for every cell that was set. -/
abbrev HeadampTable := HeadampCell → Option Nat

/-- Set a cell, unless its bounds refuse it (`reac_headamp_asserted_set`, and the send
table's own set). -/
def headampSet (limits : HeadampLimits) (t : HeadampTable) (s : HeadampSetting) : HeadampTable :=
  if s.inRange limits then Function.update t s.cell (some s.value) else t

structure HeadampDoor where
  /-- Commands the pacer has not taken yet, oldest first. -/
  ring : List HeadampSetting
  /-- The pacer's send table. -/
  table : HeadampTable
  asserted : HeadampTable
  writeRefused : HeadampRefuse

/-- What the segment can carry (`sink_headamp_capability`). -/
structure HeadampFacts where
  upstream : Bool
  pacerOpen : Bool
  channels : Int
  base : Int
  deriving DecidableEq, Repr

def HeadampFacts.capability (f : HeadampFacts) : HeadampRefuse :=
  if f.upstream then .boxMaster
  else if !f.pacerOpen then .noBox
  else reacHeadampCfgDecide false f.channels f.base

/-- A node as `reac_sink_node_new` leaves it: the configured cells are in both tables. -/
def HeadampDoor.seeded (limits : HeadampLimits) (headamps : List HeadampSetting) : HeadampDoor :=
  { ring := []
    table := headamps.foldl (headampSet limits) fun _ => none
    asserted := headamps.foldl (headampSet limits) fun _ => none
    writeRefused := .accepted }

/-- The pacer takes up to that many commands and applies them to its table. -/
def HeadampDoor.drain (limits : HeadampLimits) (n : HeadampDoor) (count : Nat) : HeadampDoor :=
  { n with
    ring := n.ring.drop count
    table := (n.ring.take count).foldl (headampSet limits) n.table }

/-- `reac_pacer_headamp_set`: a full ring drops the command and says so. -/
def HeadampDoor.pacerSet (limits : HeadampLimits) (n : HeadampDoor) (s : HeadampSetting) :
    HeadampDoor × Bool :=
  if n.ring.length < limits.cmdRing then ({ n with ring := n.ring ++ [s] }, true) else (n, false)

/-- The cells of a write, in turn, each after the pacer has taken what it will; and the
commands the ring accepted.  Its answer to each is not looked at. -/
def assertCells (limits : HeadampLimits) :
    HeadampDoor → List Nat → List HeadampSetting → HeadampDoor × List HeadampSetting
  | n, _, [] => (n, [])
  | n, drains, s :: rest =>
      let set := (n.drain limits (drains.headD 0)).pacerSet limits s
      let r := assertCells limits { set.1 with asserted := headampSet limits set.1.asserted s }
        drains.tail rest
      (r.1, if set.2 then s :: r.2 else r.2)

/-- The head-amp half of `sink_door_assert`, and the commands the ring accepted. -/
def sinkDoorAssertHeadamp (limits : HeadampLimits) (n : HeadampDoor) (facts : HeadampFacts)
    (pod : PropsPod) (drains : List Nat) : HeadampDoor × List HeadampSetting :=
  let parsed := reacHeadampPropParse limits pod
  if 0 < parsed.keys ∧ facts.capability = .accepted then
    assertCells limits { n with writeRefused := parsed.refusal } drains parsed.cells
  else (n, [])

/-! ### Runs of the door -/

inductive HeadampEvent where
  /-- A Props object is written, while the pacer takes commands between its cells. -/
  | write (facts : HeadampFacts) (pod : PropsPod) (drains : List Nat)
  /-- The pacer takes up to that many commands. -/
  | drain (count : Nat)
  deriving DecidableEq, Repr

def headampStep (limits : HeadampLimits) (n : HeadampDoor) :
    HeadampEvent → HeadampDoor × List HeadampSetting
  | .write facts pod drains => sinkDoorAssertHeadamp limits n facts pod drains
  | .drain count => (n.drain limits count, [])

/-- Each cell's last accepted value, after more commands were accepted. -/
def noteAccepted (given : HeadampTable) (accepted : List HeadampSetting) : HeadampTable :=
  accepted.foldl (fun t s => Function.update t s.cell (some s.value)) given

/-- A door, and what the ring last accepted for each cell, or was seeded with. -/
def headampMachine (limits : HeadampLimits) :
    StepMachine (HeadampDoor × HeadampTable) HeadampEvent (List HeadampSetting) :=
  (StepMachine.mk (headampStep limits)).withHistory fun given _ _ accepted =>
    noteAccepted given accepted

/-- A door just opened: what was seeded was given. -/
def headampOpened (limits : HeadampLimits) (headamps : List HeadampSetting) :
    HeadampDoor × HeadampTable :=
  (HeadampDoor.seeded limits headamps, (HeadampDoor.seeded limits headamps).table)

end ReacPw
