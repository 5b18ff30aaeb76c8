/-
The operator's configuration files (`reac_segconf`): the parser.

A file is a list of lines.  A line opens a segment's section, gives one key of it, or
says nothing; everything else is refused by name and counted, and the rest of the file
is honoured.  A second file is parsed onto what the first left, so the last word on a
key wins.  What one key means under another is judged once all files are read.

Texts are the C strings' bytes, one character each.  The role vocabulary and the
table of box models are libreac's, and parameters; only the tokens of the table are
read here.
-/
import Mathlib.Data.List.DropRight
import ReacPw.LinkBudget

namespace ReacPw

/-- The bytes of a C string. -/
abbrev Text := List Char

def txt (s : String) : Text := s.toList

/-- The em dash of the messages. -/
def dash : Text := [Char.ofNat 0xe2, Char.ofNat 0x80, Char.ofNat 0x94]

/-! ### The struct -/

/-- `enum reac_role_intent`. -/
inductive RoleIntent where
  | auto
  | master
  | slave
  | tap
  | box
  deriving DecidableEq, Repr

def reacSegconfMax : Nat := 32
def reacSegconfRefusals : Nat := 8
def reacSegconfRefusalLen : Nat := 200
def reacSegconfFile : Text := txt "reac-pw.conf"
def reacSegconfDird : Text := txt "reac-pw.conf.d"
def reacSegconfFiles : Nat := 17
def reacSegconfFileLen : Nat := 96
def reacSegconfModelLen : Nat := 24

structure SegconfSeg where
  name : Text
  role : RoleIntent := .auto
  roleSet : Bool := false
  ignore : Bool := false
  ignoreSet : Bool := false
  saidIgnored : Bool := false
  model : Text := []
  modelSet : Bool := false
  modelFile : Text := []
  roleFile : Text := []
  ignoreFile : Text := []
  /-- The file-number this section was last opened in. -/
  seenGen : Nat := 0
  deriving DecidableEq, Repr

/-- What a file looked like when it was read. -/
structure SegconfStamp where
  mtimeNs : Int := 0
  size : Int := 0
  ino : Nat := 0
  present : Bool := false
  deriving DecidableEq, Repr

structure Segconf where
  seg : List SegconfSeg := []
  present : Bool := false
  path : Text := []
  refusal : List Text := []
  refused : Nat := 0
  overflow : Nat := 0
  file : List Text := []
  filesOverflow : Nat := 0
  stamp : List SegconfStamp := List.replicate reacSegconfFiles {}
  stampDir : SegconfStamp := {}
  home : Text := []
  base : Text := []
  /-- The file being parsed. -/
  reading : Text := []
  gen : Nat := 0
  deriving DecidableEq, Repr

def reacSegconfInit : Segconf := {}

/-- A copy into an array of `n` bytes. -/
def clipped (n : Nat) (s : Text) : Text := s.take (n - 1)

/-- A refusal is counted for ever, and kept while there is room; `line` is 0 for none. -/
def refuse (c : Segconf) (line : Nat) (msg : Text) : Segconf :=
  let c := { c with refused := c.refused + 1 }
  if reacSegconfRefusals ≤ c.refusal.length then c
  else
    let file := if c.reading = [] then reacSegconfFile else c.reading
    let head := if 0 < line then file ++ txt ":" ++ (toString line).toList ++ txt ": "
      else file ++ txt ": "
    if reacSegconfRefusalLen ≤ head.length then c
    else { c with refusal := c.refusal ++ [clipped reacSegconfRefusalLen (head ++ msg)] }

/-! ### A line's characters -/

def isBlank (c : Char) : Bool := c == ' ' || c == '\t' || c == '\r'

def trim (s : Text) : Text := (s.dropWhile isBlank).rdropWhile isBlank

/-- A comment marker counts at the start of the line or after whitespace. -/
def stripFrom : Bool → Text → Text
  | _, [] => []
  | opens, c :: rest =>
      if (c = '#' ∨ c = ';') ∧ opens then [] else c :: stripFrom (c == ' ' || c == '\t') rest

def stripComment (s : Text) : Text := stripFrom true s

def doubleQuote : Char := Char.ofNat 0x22
def singleQuote : Char := Char.ofNat 0x27

/-- One matching pair of quotes. -/
def unquote (v : Text) : Text :=
  if 2 ≤ v.length ∧ v.head? = v.getLast? ∧
      (v.head? = some doubleQuote ∨ v.head? = some singleQuote) then
    (v.drop 1).dropLast
  else v

/-- `strcasecmp` against a lower-case word. -/
def foldEq (s : Text) (word : String) : Bool := s.map Char.toLower == txt word

/-- A value folded to lower case into an array of `n` bytes. -/
def folded (n : Nat) (v : Text) : Text := (clipped n v).map Char.toLower

def parseBool (v : Text) : Option Bool :=
  if foldEq v "yes" || foldEq v "true" || v == txt "1" then some true
  else if foldEq v "no" || foldEq v "false" || v == txt "0" then some false
  else none

/-! ### Headers and keys -/

/-- The name a header opens, or why it is refused. -/
def readHeader (line : Text) : Except Text Text :=
  match line.dropWhile (· ≠ ']') with
  | [] => .error (txt "section is not closed: '" ++ line ++ txt "'")
  | _ :: _ :: _ => .error (txt "text after the closing ']' of '" ++ line ++ txt "'")
  | [_] =>
      let body := trim ((line.takeWhile (· ≠ ']')).drop 1)
      if !foldEq (body.take 7) "segment" || !((body.drop 7).head?.any fun c => c == ' ' || c == '\t')
      then
        .error (txt "unknown section [" ++ body ++ txt "] " ++ dash ++
          txt " only [segment <name>] is understood")
      else
        let name := trim (body.drop 7)
        if name = [] then .error (txt "[segment] names no segment")
        else if ifnamsiz ≤ name.length then
          .error (txt "[segment " ++ name ++
            txt "] is longer than an interface name can be (15)")
        else .ok name

/-- A key a section takes, with its value. -/
inductive KeyValue where
  | role (i : RoleIntent)
  | model (token : Text)
  | ignore (yes : Bool)
  deriving DecidableEq, Repr

/-- libreac's role vocabulary and its box-model table. -/
structure SegconfWords where
  roleIntent : Text → Option RoleIntent
  boxTokens : List Text

/-- The tokens the refusal of a model lists, as far as its array goes. -/
def knownModels (tokens : List Text) : Text :=
  let joined := tokens.foldl (fun known t =>
    if known.length + 2 < 240 then known ++ (if known = [] then [] else txt "|") ++ t else known) []
  clipped 240 joined

section
variable (W : SegconfWords)

/-- What a key and its value say in the section of `cur`, or why they are refused. -/
def readKey (cur key val : Text) : Except Text KeyValue :=
  let seg := txt "[segment " ++ cur ++ txt "] "
  if foldEq key "role" then
    match W.roleIntent (folded 64 val) with
    | some i => .ok (.role i)
    | none =>
        .error (seg ++ txt "role = '" ++ val ++ txt "' is not one of auto|master|slave|tap|box")
  else if foldEq key "model" then
    if W.boxTokens.contains (folded reacSegconfModelLen val) then
      .ok (.model (folded reacSegconfModelLen val))
    else
      .error (seg ++ txt "model = '" ++ val ++ txt "' is not a box model " ++ dash ++ txt " " ++
        knownModels W.boxTokens)
  else if foldEq key "ignore" then
    match parseBool val with
    | some b => .ok (.ignore b)
    | none => .error (seg ++ txt "ignore = '" ++ val ++ txt "' is not yes|no")
  else if foldEq key "knock" then
    .error (seg ++ txt "knock takes no plan since 1.0.41: the knock has one content, " ++
      txt "the control frames, never the stream; remove the line (it says '" ++ val.take 24 ++ txt "')")
  else
    .error (seg ++ txt "has no key '" ++ key ++ txt "' " ++ dash ++ txt " role, model, ignore")

/-- A key's value on a segment, and the file that gave it. -/
def keySet (file : Text) (s : SegconfSeg) : KeyValue → SegconfSeg
  | .role i => { s with role := i, roleSet := true, roleFile := clipped reacSegconfFileLen file }
  | .model token =>
      { s with
        model := clipped reacSegconfModelLen token, modelSet := true,
        modelFile := clipped reacSegconfFileLen file }
  | .ignore b => { s with ignore := b, ignoreSet := true, ignoreFile := clipped reacSegconfFileLen file }

/-! ### The table -/

/-- The entry of a name (`reac_segconf_find`). -/
def reacSegconfFind (c : Segconf) (name : Text) : Option SegconfSeg :=
  c.seg.find? fun s => s.name == name

/-- The entry for `name`, made when there is room: whether it is new, or no entry. -/
def segGet (c : Segconf) (name : Text) : Segconf × Option Bool :=
  if (reacSegconfFind c name).isSome then (c, some false)
  else if reacSegconfMax ≤ c.seg.length then ({ c with overflow := c.overflow + 1 }, none)
  else ({ c with seg := c.seg ++ [{ name := clipped ifnamsiz name }] }, some true)

/-- A change of one entry. -/
def segSet (c : Segconf) (name : Text) (f : SegconfSeg → SegconfSeg) : Segconf :=
  { c with seg := c.seg.map fun s => if s.name = name then f s else s }

/-! ### The file -/

/-- What the loop over the lines carries. -/
structure ParseState where
  conf : Segconf
  /-- The section that is open. -/
  cur : Option Text := none
  lineno : Nat := 0

def lineRefused (st : ParseState) (msg : Text) : ParseState :=
  { st with conf := refuse st.conf st.lineno msg }

/-- Open a section. -/
def sectionOpen (st : ParseState) (name : Text) : ParseState :=
  match segGet st.conf name with
  | (c, none) =>
      lineRefused { st with conf := c, cur := none }
        (txt "[segment " ++ name ++ txt "] is past the 32-segment bound and was NOT read")
  | (c, some isNew) =>
      let again := !isNew && ((reacSegconfFind c name).map (·.seenGen)) == some c.gen
      let st :=
        if again then
          lineRefused { st with conf := c }
            (txt "[segment " ++ name ++
              txt "] appears more than once in this file; the keys are merged")
        else { st with conf := c }
      { st with
        conf := segSet st.conf name fun s => { s with seenGen := st.conf.gen }
        cur := some name }

def parseHeader (st : ParseState) (line : Text) : ParseState :=
  match readHeader line with
  | .error msg => { lineRefused st msg with cur := none }
  | .ok name => sectionOpen st name

def parseKey (st : ParseState) (line : Text) : ParseState :=
  match line.dropWhile (· ≠ '=') with
  | [] =>
      lineRefused st (txt "'" ++ line ++
        txt "' is neither a [segment <name>] header nor a key = value")
  | _ :: v =>
      let key := trim (line.takeWhile (· ≠ '='))
      match st.cur with
      | none =>
          lineRefused st (txt "'" ++ key ++ txt "' is outside any [segment <name>] section")
      | some cur =>
          match readKey W cur key (unquote (trim v)) with
          | .error msg => lineRefused st msg
          | .ok kv =>
              { st with conf := segSet st.conf cur fun s => keySet st.conf.reading s kv }

def parseLine (st : ParseState) (raw : Text) : ParseState :=
  let st := { st with lineno := st.lineno + 1 }
  -- a line too long to hold is refused whole, and ends the section if it opens one
  if 512 ≤ raw.length then
    let opens := (raw.dropWhile isBlank).head? == some '['
    lineRefused { st with cur := if opens then none else st.cur }
      (txt "line is longer than 511 bytes and was NOT read")
  else
    let line := trim (stripComment raw)
    match line.head? with
    | none => st
    | some c => if c = '[' then parseHeader st line else parseKey W st line

/-- The lines of a text, the last one with or without its newline. -/
def textLines : Text → List Text
  | [] => []
  | c :: rest =>
      if c = '\n' then [] :: textLines rest
      else
        match textLines rest with
        | [] => [[c]]
        | l :: ls => (c :: l) :: ls

/-- Parse one file onto what the earlier ones left. -/
def reacSegconfParseFile (c : Segconf) (text label : Option Text) : Segconf :=
  let c :=
    { c with
      reading := clipped reacSegconfFileLen (label.getD reacSegconfFile)
      gen := c.gen + 1 }
  match text with
  | none => c
  | some t => ((textLines (t.takeWhile (· ≠ Char.ofNat 0))).foldl (parseLine W) { conf := c }).conf

/-! ### Across the keys -/

/-- Why a segment's keys do not go together. -/
def crossRefusal (s : SegconfSeg) : Option Text :=
  let isBox := s.roleSet && s.role == .box
  if s.modelSet && !isBox then
    some (txt "[segment " ++ s.name ++ txt "] model = '" ++ s.model ++
      txt "' is meaningful only under role = box; the role stands and the model is dropped")
  else if isBox && !s.modelSet then
    some (txt "[segment " ++ s.name ++ txt "] role = box needs a model " ++ dash ++
      txt " none was given, so the segment falls back to auto")
  else none

/-- A model without its role is dropped; a box without its model falls back to auto. -/
def crossed (s : SegconfSeg) : SegconfSeg :=
  let isBox := s.roleSet && s.role == .box
  if s.modelSet && !isBox then { s with modelSet := false, model := [] }
  else if isBox && !s.modelSet then { s with roleSet := false, role := .auto }
  else s

def crossCheck (c : Segconf) : Segconf :=
  let c' := c.seg.foldl (fun c s => ((crossRefusal s).map (refuse c 0)).getD c) c
  { c' with seg := c.seg.map crossed }

def reacSegconfParse (c : Segconf) (text : Option Text) : Segconf :=
  crossCheck (reacSegconfParseFile W c text (some reacSegconfFile))

end

end ReacPw
