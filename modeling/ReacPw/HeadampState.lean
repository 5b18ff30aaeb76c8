/-
What a master asserts of its head-amps, and the text it is read back from.

The table holds the last accepted value of every cell, by channel and parameter number, and
a mark that tells a deliberate zero from an untouched cell.  The readback goes over the
channels and their parameters and appends `ch:param=value` for each marked cell, with a
comma before all but the first.

The number of head-amp channels is the transport library's (`HeadampLimits`), and so are the
parameters' numbers.
-/
import ReacPw.HeadampDoor
import ReacPw.Lib.Buffer
import ReacPw.Lib.Decimal

namespace ReacPw

/-- `REAC_HEADAMP_NPARAMS`. -/
def headampNparams : Nat := 3

/-- The number a parameter goes by in the table and the text. -/
def HeadampParam.number : HeadampParam → Nat
  | .phantom => 0
  | .pad => 1
  | .sens => 2

def HeadampParam.ofNumber : Nat → Option HeadampParam
  | 0 => some .phantom
  | 1 => some .pad
  | 2 => some .sens
  | _ => none

/-- `value_in_range`: no value is in range of what is no parameter. -/
def assertedValueInRange (param value : UInt8) : Bool :=
  match HeadampParam.ofNumber param.toNat with
  | some p => valueInRange p value.toNat
  | none => false

/-- `struct reac_headamp_asserted`. -/
structure HeadampAsserted where
  value : Nat → Nat → UInt8
  set : Nat → Nat → Bool

def reacHeadampAssertedInit : HeadampAsserted :=
  { value := fun _ _ => 0, set := fun _ _ => false }

/-- The arguments of one `reac_headamp_asserted_set`. -/
structure AssertedWrite where
  ch : UInt8
  param : UInt8
  value : UInt8
  deriving DecidableEq, Repr

/-- The table after the write, none where the write is refused. -/
def reacHeadampAssertedSet (limits : HeadampLimits) (t : HeadampAsserted) (w : AssertedWrite) :
    Option HeadampAsserted :=
  if limits.maxCh ≤ w.ch.toNat ∨ headampNparams ≤ w.param.toNat then none
  else if !assertedValueInRange w.param w.value then none
  else
    some
      { value := Function.update t.value w.ch.toNat
          (Function.update (t.value w.ch.toNat) w.param.toNat w.value)
        set := Function.update t.set w.ch.toNat
          (Function.update (t.set w.ch.toNat) w.param.toNat true) }

/-! ### The readback -/

/-- The cells in the order the two loops come to them. -/
def assertedAddresses (limits : HeadampLimits) : List (Nat × Nat) :=
  (List.range limits.maxCh).flatMap fun ch => (List.range headampNparams).map fun p => (ch, p)

/-- A cell in the text: its channel, its parameter's number and its value. -/
structure AssertedCell where
  ch : Nat
  param : Nat
  value : Nat
  deriving DecidableEq, Repr

/-- `"%d:%d=%u"`. -/
def AssertedCell.text (c : AssertedCell) : List Char :=
  Decimal.numeral c.ch ++ ':' :: (Decimal.numeral c.param ++ '=' :: Decimal.numeral c.value)

def HeadampAsserted.cell (t : HeadampAsserted) (ch p : Nat) : AssertedCell :=
  ⟨ch, p, (t.value ch p).toNat⟩

/-- One turn of the loops: `cell` is written with a separator unless it is the first. -/
def assertedRenderCell (t : HeadampAsserted) (buflen : Nat) (b : TextBuffer Char)
    (a : Nat × Nat) : TextBuffer Char :=
  if t.set a.1 a.2 then
    b.append '\x00' buflen ((if b.used = 0 then [] else [',']) ++ (t.cell a.1 a.2).text)
  else b

/-- What is in the buffer, and the length that is returned. -/
def reacHeadampAssertedRender (limits : HeadampLimits) (t : HeadampAsserted)
    (buf : Nat → Char) (buflen : Nat) : TextBuffer Char :=
  (assertedAddresses limits).foldl (assertedRenderCell t buflen)
    (TextBuffer.clear '\x00' buflen buf)

/-- The whole text: what the readback leaves in a buffer with room for all of it. -/
def assertedText (limits : HeadampLimits) (t : HeadampAsserted) : List Char :=
  let full := (reacHeadampAssertedRender limits t (fun _ => '\x00') 0).used
  TextBuffer.readText '\x00' (full + 1)
    (reacHeadampAssertedRender limits t (fun _ => '\x00') (full + 1)).buf

/-! ### Reading the text -/

def decodeAssertedCell (text : List Char) : Option AssertedCell :=
  match text.splitOn ':' with
  | [ch, rest] =>
      match rest.splitOn '=' with
      | [p, v] => do return ⟨← Decimal.read ch, ← Decimal.read p, ← Decimal.read v⟩
      | _ => none
  | _ => none

def decodeAsserted (text : List Char) : Option (List AssertedCell) :=
  if text = [] then some [] else (text.splitOn ',').mapM decodeAssertedCell

/-! ### Runs of writes -/

/-- The table after the writes, and those that were accepted, in order. -/
def assertedRun (limits : HeadampLimits) :
    HeadampAsserted → List AssertedWrite → HeadampAsserted × List AssertedWrite
  | t, [] => (t, [])
  | t, w :: ws =>
      match reacHeadampAssertedSet limits t w with
      | none => assertedRun limits t ws
      | some t' =>
          let r := assertedRun limits t' ws
          (r.1, w :: r.2)

/-- The value a cell was last given, none before the first. -/
def lastAccepted (accepted : List AssertedWrite) (ch p : Nat) : Option Nat :=
  ((accepted.filter fun w => w.ch.toNat = ch ∧ w.param.toNat = p).getLast?).map (·.value.toNat)

end ReacPw
