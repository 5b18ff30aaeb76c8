/-
The operator's configuration files (`reac_segconf`): reading them and noticing that one
moved.

The loader reads the hand-written file, then the drop-ins of a directory in byte order,
and keeps what each looked like in a table of stamps.  The stamp of a file goes in the
slot the file's own name would have, and that slot is only taken when the file opens.
The refresh stats what the tables name and loads again when an answer differs.

The file system is a parameter: what stands at a path, what a directory lists in the
order `readdir` gives, and `$HOME`.
-/
import Mathlib.Data.List.Sort
import ReacPw.Segconf

namespace ReacPw

def reacSegconfDir : Text := txt ".config/reac-pw"

/-- What opening and reading a file gives. -/
inductive FileContent where
  | denied
  /-- It opened, and the buffer for it could not be had. -/
  | unbuffered
  | text (bytes : Text)
  deriving DecidableEq, Repr

/-- What stands at a path. -/
structure FileEntry where
  mtimeNs : Int := 0
  size : Int := 0
  ino : Nat := 0
  content : FileContent
  deriving DecidableEq, Repr

structure FileSystem where
  entry : Text → Option FileEntry
  /-- A directory that opens, in `readdir` order. -/
  listing : Text → Option (List Text)
  /-- Why a path could not be read. -/
  strerror : Text → Text
  /-- `$HOME`. -/
  home : Option Text

/-- A path below another. -/
def below (dir name : Text) : Text := dir ++ txt "/" ++ name

/-- `stat`, as a stamp. -/
def FileSystem.stamp (fs : FileSystem) (path : Text) : SegconfStamp :=
  match fs.entry path with
  | none => {}
  | some e => { mtimeNs := e.mtimeNs, size := e.size, ino := e.ino, present := true }

/-- `fopen`, and the buffer the text is read into. -/
def FileSystem.opened (fs : FileSystem) (path : Text) : Option (Option Text) :=
  match fs.entry path with
  | none => none
  | some e =>
      match e.content with
      | .denied => none
      | .unbuffered => some none
      | .text bytes => some (some bytes)

section
variable (W : SegconfWords) (fs : FileSystem)

/-! ### Loading -/

/-- What `read_one` returns. -/
inductive ReadOne where
  | read
  | absent
  | failed
  deriving DecidableEq, Repr

def fileBytes : Nat := 64 * 1024

/-- One file's whole text, parsed as `label`; its stamp is taken whatever the answer. -/
def readOne (c : Segconf) (label : Text) (slot : Nat) : Segconf × ReadOne :=
  let path := below c.base label
  let st := fs.stamp path
  let c := { c with stamp := c.stamp.set slot st }
  match fs.opened path with
  | none => (c, if st.present then .failed else .absent)
  | some buffer =>
      let c :=
        if c.file.length < reacSegconfFiles then
          { c with file := c.file ++ [clipped reacSegconfFileLen label] }
        else c
      let c := { c with reading := clipped reacSegconfFileLen label }
      match buffer with
      | none => (refuse c 0 (txt "out of memory reading this file"), .failed)
      | some text =>
          let c :=
            if fileBytes - 1 < text.length then
              refuse c 0 (txt "larger than 64 KiB; the rest was NOT read")
            else c
          (reacSegconfParseFile W c (some (text.take (fileBytes - 1))) (some label), .read)

/-- `strcmp`, as an order. -/
def nameCmp : Text → Text → Bool
  | [], _ => true
  | _ :: _, [] => false
  | a :: as, b :: bs => if a = b then nameCmp as bs else decide (a.toNat < b.toNat)

/-- `*.conf`, and nothing hidden. -/
def dropinName (nm : Text) : Bool :=
  nm.head? != some '.' && decide (6 ≤ nm.length) && nm.drop (nm.length - 5) == txt ".conf"

/-- One name the directory lists: the names taken, and how many were past a bound. -/
def dropinTake (taken : List Text × Nat) (nm : Text) : List Text × Nat :=
  if !dropinName nm then taken
  else if reacSegconfFileLen ≤ nm.length + (reacSegconfDird.length + 1) + 1 then
    (taken.1, taken.2 + 1)
  else if reacSegconfFiles - 1 ≤ taken.1.length then (taken.1, taken.2 + 1)
  else (taken.1 ++ [nm], taken.2)

/-- The drop-ins of a directory, in the order they are read. -/
def dropins (listing : List Text) : List Text :=
  ((listing.foldl dropinTake ([], 0)).1).insertionSort fun a b => nameCmp a b = true

def dropinLabel (nm : Text) : Text := clipped reacSegconfFileLen (below reacSegconfDird nm)

/-- One drop-in. -/
def loadDropin (c : Segconf) (nm : Text) : Segconf :=
  let label := dropinLabel nm
  let slot := c.file.length
  if reacSegconfFiles ≤ slot then { c with filesOverflow := c.filesOverflow + 1 }
  else
    match readOne W fs c label slot with
    | (c, .read) => c
    | (c, _) =>
        refuse { c with reading := clipped reacSegconfFileLen label } 0
          (txt "is listed in the directory and could NOT be read (" ++
            fs.strerror (below c.base label) ++
            txt "); the files that could be read are still applied")

def loadDropins (c : Segconf) : Segconf :=
  let dird := below c.base reacSegconfDird
  let c := { c with stampDir := fs.stamp dird }
  match fs.listing dird with
  | none => c
  | some listing =>
      let c := { c with filesOverflow := c.filesOverflow + (listing.foldl dropinTake ([], 0)).2 }
      let c := (dropins listing).foldl (loadDropin W fs) c
      if 0 < c.filesOverflow then
        refuse c 0 ((toString c.filesOverflow).toList ++
          txt " drop-in(s) past the 16-file bound were NOT read")
      else c

/-- Where the files are, for the home the loader is given. -/
def segconfBase (home : Option Text) : Text :=
  let home := (home.or fs.home).getD []
  clipped 512 (below (if home = [] then txt "." else home) reacSegconfDir)

/-- `reac_segconf_load`; nothing of the old struct is kept. -/
def reacSegconfLoad (home : Option Text) : Segconf :=
  let base := segconfBase fs home
  let c :=
    { reacSegconfInit with
      home := clipped 256 (home.getD [])
      base := base
      path := clipped 512 (below base reacSegconfFile) }
  let c :=
    match readOne W fs c reacSegconfFile 0 with
    | (c, .read) => { c with present := true }
    | (c, _) => c
  crossCheck (loadDropins W fs c)

/-! ### Refreshing -/

/-- Has `label` moved since the stamp? -/
def moved (c : Segconf) (label : Text) (st : SegconfStamp) : Bool :=
  match fs.entry (below c.base label) with
  | none => st.present
  | some e => !st.present || e.mtimeNs != st.mtimeNs || e.size != st.size || e.ino != st.ino

/-- The home a refresh gives the loader. -/
def refreshHome (c : Segconf) : Option Text := if c.home = [] then none else some c.home

/-- Load again if anything moved: the struct, and whether it did. -/
def reacSegconfRefresh (c : Segconf) : Segconf × Bool :=
  if c.base = [] then (c, false)
  else
    let move :=
      moved fs c reacSegconfFile (c.stamp.headD {}) || moved fs c reacSegconfDird c.stampDir ||
        (c.file.zip c.stamp).any fun f => f.1 != reacSegconfFile && moved fs c f.1 f.2
    if move then (reacSegconfLoad W fs (refreshHome c), true) else (c, false)

/-! ### The answer a segment is ignored -/

def reacSegconfIgnored (c : Segconf) (name : Text) : Bool :=
  ((reacSegconfFind c name).map (·.ignore)).getD false

/-- The line that a segment is ignored has been said. -/
def saidIgnored (c : Segconf) (name : Text) : Segconf :=
  segSet c name fun s => { s with saidIgnored := true }

/-- Is this segment switched off?  The struct, the answer, and whether the line is printed. -/
def segmentIgnored (c : Segconf) (name : Text) : Segconf × Bool × Bool :=
  let c := (reacSegconfRefresh W fs c).1
  if !reacSegconfIgnored c name then (c, false, false)
  else if ((reacSegconfFind c name).map (·.saidIgnored)).getD true then (c, true, false)
  else (saidIgnored c name, true, true)

end

end ReacPw
