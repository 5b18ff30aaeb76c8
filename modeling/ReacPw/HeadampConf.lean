/-
The head-amp cells of a configuration.

A `REAC_HEADAMP` value is a list of cells `CH:PARAM:VALUE` between blanks, tabs and commas
(`parse_headamp_list`), and each cell goes through `sscanf` (`parse_headamp`).  One cell that is
refused refuses the list.

The conversions are the C library's: `%u` skips blanks, takes a sign, reads its digits as
`strtoul` does and keeps the low 32 bits, and what follows the last of them is not looked at.
-/
import ReacPw.HeadampDoor
import ReacPw.Lib.Tokens

namespace ReacPw

/-! ### One cell -/

def ulongMax : Nat := 0xffffffffffffffff

/-- What `strtoul` makes of a sign and digits of this worth: it stops at `ULONG_MAX`, and a
negative number wraps round. -/
def strtoulValue (negative : Bool) (n : Nat) : Nat :=
  if ulongMax < n then ulongMax
  else if negative then (ulongMax + 1 - n) % (ulongMax + 1)
  else n

/-- `%u`: the number, in an `unsigned`, and what follows it. -/
def scanUnsigned (s : List Char) : Option (Nat × List Char) :=
  let s := s.dropWhile isSpace
  let negative := s.head? = some '-'
  let s := if negative ∨ s.head? = some '+' then s.tail else s
  let digits := s.takeWhile Char.isDigit
  if digits = [] then none
  else some (strtoulValue negative (Decimal.value digits) % 0x100000000, s.dropWhile Char.isDigit)

/-- `%15[^:]`. -/
def scanField (s : List Char) : Option (List Char × List Char) :=
  let field := (s.takeWhile (· ≠ ':')).take 15
  if field = [] then none else some (field, s.drop field.length)

/-- `sscanf(s, "%u:%15[^:]:%u", …)`, none unless it assigns all three. -/
def scanHeadamp (s : List Char) : Option (Nat × List Char × Nat) :=
  match scanUnsigned s with
  | some (ch, ':' :: rest) =>
      match scanField rest with
      | some (pstr, ':' :: rest) => (scanUnsigned rest).map fun val => (ch, pstr, val.1)
      | _ => none
  | _ => none

def parseHeadamp (limits : HeadampLimits) (s : List Char) : Option HeadampSetting :=
  match scanHeadamp s with
  | none => none
  | some (ch, pstr, val) =>
      match paramNameToId pstr with
      | none => none
      | some param =>
          if limits.maxCh ≤ ch then none
          else if valueInRange param val then some ⟨(ch % 256, param), val % 256⟩
          else none

/-! ### The list -/

def isCellSep (c : Char) : Bool := c == ',' || c == ' ' || c == '\t'

/-- The size of the buffer a cell is copied to, its NUL included. -/
def headampCellSize : Nat := 32

/-- The loop of `parse_headamp_list`, with `out` read so far. -/
def parseHeadampCells (limits : HeadampLimits) (max : Nat) (s : List Char)
    (out : List HeadampSetting) : Option (List HeadampSetting) :=
  match _hskip : s.dropWhile isCellSep with
  | [] => some out
  | c :: rest =>
      let cell := (c :: rest).takeWhile fun x => !isCellSep x
      if headampCellSize ≤ cell.length ∨ max ≤ out.length then none
      else
        match parseHeadamp limits cell with
        | none => none
        | some setting =>
            parseHeadampCells limits max ((c :: rest).dropWhile fun x => !isCellSep x)
              (out ++ [setting])
termination_by s.length
decreasing_by
  have hc : isCellSep c = false := Tokens.head_dropWhile s c (by rw [_hskip]; rfl)
  have hle := List.length_dropWhile_le isCellSep s
  have hrest := List.length_dropWhile_le (fun x => !isCellSep x) rest
  rw [_hskip, List.length_cons] at hle
  rw [List.dropWhile_cons_of_pos (by rw [hc]; rfl)]
  omega

/-- The cells, none where the list is refused. -/
def parseHeadampList (limits : HeadampLimits) (max : Nat) (s : List Char) :
    Option (List HeadampSetting) :=
  parseHeadampCells limits max s []

end ReacPw
