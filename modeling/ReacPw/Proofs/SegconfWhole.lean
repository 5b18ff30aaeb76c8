/-
When a configuration file is read in whole lines.

The reader hands the parser a text that its buffer cuts and that a NUL ends, and the
parser goes through the lines of that text.  A text that starts another has its lines,
but for the last, which may have been cut (`textLines_prefix`).  So what was read is a
number of lines of the file and at most one cut line, and the file is read whole unless
that line goes in.  The reader counts that something was left only for the buffer's end.
-/
import ReacPw.SegconfFiles
import ReacPw.Proofs.Segconf

namespace ReacPw

/-! ### Lines that go in -/

/-- What a table says: its entries, but for the file each was last opened in. -/
def Segconf.entries (c : Segconf) : List SegconfSeg := c.seg.map fun s => { s with seenGen := 0 }

section
variable (W : SegconfWords)

/-- A line with something on it that is not refused. -/
def wentIn (st : ParseState) (raw : Text) : Prop :=
  trim (stripComment raw) ≠ [] ∧ (parseLine W st raw).conf.refused = st.conf.refused

instance (st : ParseState) (raw : Text) : Decidable (wentIn W st raw) :=
  inferInstanceAs (Decidable (_ ∧ _))

/-- The lines that go in, one after the other. -/
def linesIn : ParseState → List Text → List Text
  | _, [] => []
  | st, raw :: rest =>
      (if wentIn W st raw then [raw] else []) ++ linesIn (parseLine W st raw) rest

def linesParsed (st : ParseState) (lines : List Text) : ParseState := lines.foldl (parseLine W) st

/-- How many of the lines are counted. -/
def lineRefusals (st : ParseState) (lines : List Text) : Nat :=
  (linesParsed W st lines).conf.refused - st.conf.refused

/-- The first header of a segment in the file, if the table has an entry for it. -/
def headerOpens (st : ParseState) (name : Text) : Bool :=
  match reacSegconfFind st.conf name with
  | some s => s.seenGen != st.conf.gen
  | none => decide (st.conf.seg.length < reacSegconfMax)

/-- A header that opens its segment, or a key of the open section. -/
def goesIn (st : ParseState) (raw : Text) : Bool :=
  match lineMeaning W raw with
  | .header name => headerOpens st name
  | .key _ => st.cur.isSome
  | _ => false

end

/-! ### The text the parser gets -/

/-- The lines the parser is given: the buffer cuts the text, and a NUL ends it. -/
def linesRead (bytes : Text) : List Text :=
  textLines ((bytes.take (fileBytes - 1)).takeWhile (· ≠ Char.ofNat 0))

/-- The lines two texts start with. -/
def sharedLines : List Text → List Text → List Text
  | a :: as, b :: bs => if a = b then a :: sharedLines as bs else []
  | _, _ => []

/-- The lines of the file among those the parser is given. -/
def wholeLines (bytes : Text) : List Text := sharedLines (linesRead bytes) (textLines bytes)

/-- The line the text was cut in. -/
def cutLine (bytes : Text) : Option Text := (linesRead bytes)[(wholeLines bytes).length]?

section
variable (W : SegconfWords) (fs : FileSystem) (c : Segconf) (label : Text) (slot : Nat)
  (bytes : Text)

/-- Where the parser starts on a file's text. -/
def readStart : ParseState :=
  let c := { c with stamp := c.stamp.set slot (fs.stamp (below c.base label)) }
  let c :=
    if c.file.length < reacSegconfFiles then
      { c with file := c.file ++ [clipped reacSegconfFileLen label] }
    else c
  let c := { c with reading := clipped reacSegconfFileLen label }
  let c :=
    if fileBytes - 1 < bytes.length then
      refuse c 0 (txt "larger than 64 KiB; the rest was NOT read")
    else c
  { conf := { c with reading := clipped reacSegconfFileLen label, gen := c.gen + 1 } }

/-- A file read in whole lines: no other line goes in, the table is what they make of it, and
what was not read is counted beside the lines that are.  One refusal stands for all of it: that
of a file past the buffer stands for what a NUL hides before the buffer's end as well. -/
structure ReadWhole : Prop where
  applied : linesIn W (readStart fs c label slot bytes) (linesRead bytes) =
    linesIn W (readStart fs c label slot bytes) (wholeLines bytes)
  effect : (readOne W fs c label slot).1.entries =
    (linesParsed W (readStart fs c label slot bytes) (wholeLines bytes)).conf.entries
  counted : linesRead bytes ≠ textLines bytes →
    c.refused + lineRefusals W (readStart fs c label slot bytes) (linesRead bytes) <
      (readOne W fs c label slot).1.refused

/-- The file fits its buffer and has no NUL, or it does not fit and the line that the buffer's
end, or a NUL before it, falls in does not go in.  A file that does not fit is said to be read
in part, whichever of the two ends it. -/
def CutHarmless : Prop :=
  (bytes.length < fileBytes ∧ Char.ofNat 0 ∉ bytes) ∨
    fileBytes ≤ bytes.length ∧ ∀ cut ∈ cutLine bytes,
      goesIn W (linesParsed W (readStart fs c label slot bytes) (wholeLines bytes)) cut = false

end

/-! ### A text that starts another -/

theorem textLines_newline (rest : Text) : textLines ('\n' :: rest) = [] :: textLines rest := by
  simp [textLines]

theorem textLines_cons {x : Char} (hx : x ≠ '\n') {rest : Text} (hrest : textLines rest = []) :
    textLines (x :: rest) = [[x]] := by
  simp [textLines, hx, hrest]

theorem textLines_grow {x : Char} (hx : x ≠ '\n') {rest l : Text} {ls : List Text}
    (hrest : textLines rest = l :: ls) : textLines (x :: rest) = (x :: l) :: ls := by
  simp [textLines, hx, hrest]

/-- The characters of the lines are the text's, but for the newlines. -/
theorem mem_textLines {x : Char} (hx : x ≠ '\n') (text : Text) :
    (∃ l ∈ textLines text, x ∈ l) ↔ x ∈ text := by
  induction text with
  | nil => simp [textLines]
  | cons y rest ih =>
      by_cases hy : y = '\n'
      · subst hy
        rw [textLines_newline]
        simp [hx, ih]
      · cases hrest : textLines rest with
        | nil =>
            rw [hrest] at ih
            rw [textLines_cons hy hrest]
            simp only [List.not_mem_nil, false_and, exists_false, false_iff] at ih
            simp [ih]
        | cons l ls =>
            rw [hrest] at ih
            rw [textLines_grow hy hrest]
            simp only [List.mem_cons, or_and_right, exists_or, exists_eq_left] at ih ⊢
            rw [or_assoc, ih]

/-- The lines of a text that starts another are lines of the other, but for a last one that
was cut. -/
theorem textLines_prefix {text : Text} : ∀ {bytes : Text}, text <+: bytes →
    textLines text <+: textLines bytes ∨
      ∃ whole cut line rest, textLines text = whole ++ [cut] ∧
        textLines bytes = whole ++ line :: rest ∧ cut ≠ line := by
  induction text with
  | nil =>
      intro bytes _
      exact Or.inl List.nil_prefix
  | cons x text ih =>
      intro bytes hpre
      obtain ⟨more, rfl⟩ := hpre
      rw [List.cons_append]
      have hrest := ih (List.prefix_append text more)
      by_cases hx : x = '\n'
      · subst hx
        rw [textLines_newline, textLines_newline]
        obtain hpre | ⟨whole, cut, line, rest, htext, hbytes, hne⟩ := hrest
        · exact Or.inl (List.cons_prefix_cons.mpr ⟨rfl, hpre⟩)
        · exact Or.inr ⟨[] :: whole, cut, line, rest, by rw [htext]; rfl, by rw [hbytes]; rfl, hne⟩
      · cases htext : textLines text with
        | nil =>
            rw [textLines_cons hx htext]
            cases hbytes : textLines (text ++ more) with
            | nil =>
                rw [textLines_cons hx hbytes]
                exact Or.inl (List.prefix_refl _)
            | cons l ls =>
                rw [textLines_grow hx hbytes]
                by_cases hl : l = []
                · subst hl
                  exact Or.inl (List.cons_prefix_cons.mpr ⟨rfl, List.nil_prefix⟩)
                · exact Or.inr ⟨[], [x], x :: l, ls, rfl, rfl, by simpa using Ne.symm hl⟩
        | cons l ls =>
            rw [textLines_grow hx htext]
            rw [htext] at hrest
            obtain ⟨rest, hrest⟩ | ⟨whole, cut, line, rest, hcut, hbytes, hne⟩ := hrest
            · rw [textLines_grow hx hrest.symm]
              exact Or.inl (List.cons_prefix_cons.mpr ⟨rfl, List.prefix_append ls rest⟩)
            · cases whole with
              | nil =>
                  obtain ⟨rfl, rfl⟩ : l = cut ∧ ls = [] := by simpa using hcut
                  rw [textLines_grow hx hbytes]
                  exact Or.inr ⟨[], x :: l, x :: line, rest, rfl, rfl, by simpa using hne⟩
              | cons w ws =>
                  obtain ⟨rfl, rfl⟩ : l = w ∧ ls = ws ++ [cut] := by simpa using hcut
                  rw [textLines_grow hx hbytes]
                  exact Or.inr ⟨(x :: l) :: ws, cut, line, rest, rfl, rfl, hne⟩

theorem sharedLines_prefix {read file : List Text} (h : read <+: file) :
    sharedLines read file = read := by
  induction read generalizing file with
  | nil => simp [sharedLines]
  | cons a as ih =>
      obtain ⟨more, rfl⟩ := h
      rw [List.cons_append, sharedLines, if_pos rfl, ih (List.prefix_append as more)]

theorem sharedLines_cut {whole : List Text} {cut line : Text} {rest : List Text}
    (hne : cut ≠ line) : sharedLines (whole ++ [cut]) (whole ++ line :: rest) = whole := by
  induction whole with
  | nil => simp [sharedLines, hne]
  | cons a as ih => rw [List.cons_append, List.cons_append, sharedLines, if_pos rfl, ih]

theorem bytesRead_shared (bytes : Text) :
    (bytes.take (fileBytes - 1)).takeWhile (· ≠ Char.ofNat 0) <+: bytes :=
  (List.takeWhile_prefix _).trans (List.take_prefix _ _)

/-- **What was read: lines of the file, and at most one that was cut.** -/
theorem linesRead_eq (bytes : Text) :
    linesRead bytes = wholeLines bytes ++ (cutLine bytes).toList := by
  unfold cutLine wholeLines
  obtain hpre | ⟨whole, cut, line, rest, hread, hfile, hne⟩ :=
    textLines_prefix (bytesRead_shared bytes)
  · have hshared : sharedLines (linesRead bytes) (textLines bytes) = linesRead bytes :=
      sharedLines_prefix hpre
    rw [hshared]
    simp
  · have hread : linesRead bytes = whole ++ [cut] := hread
    have hshared : sharedLines (linesRead bytes) (textLines bytes) = whole := by
      rw [hread, hfile, sharedLines_cut hne]
    rw [hshared, hread]
    simp

/-- A file that fits and has no NUL is read to its end. -/
theorem linesRead_all {bytes : Text} (hfits : bytes.length < fileBytes)
    (hnul : Char.ofNat 0 ∉ bytes) : linesRead bytes = textLines bytes := by
  unfold linesRead
  have htake : bytes.take (fileBytes - 1) = bytes := List.take_of_length_le (Nat.le_sub_one_of_lt hfits)
  rw [htake]
  congr 1
  rw [List.takeWhile_eq_self_iff]
  intro x hx
  have hne : x ≠ Char.ofNat 0 := by
    rintro rfl
    exact hnul hx
  simpa using hne

/-- After a NUL something of the file was not read. -/
theorem linesRead_nul {bytes : Text} (hnul : Char.ofNat 0 ∈ bytes) :
    linesRead bytes ≠ textLines bytes := by
  intro heq
  have hline := (mem_textLines (x := Char.ofNat 0) (by decide) bytes).mpr hnul
  rw [← heq] at hline
  have hread := (mem_textLines (x := Char.ofNat 0) (by decide) _).mp hline
  exact absurd (List.mem_takeWhile_imp hread) (by simp)

/-! ### What a line does to the table -/

section
variable (W : SegconfWords)

theorem goesIn_empty {raw : Text} (hempty : trim (stripComment raw) = []) (st : ParseState) :
    goesIn W st raw = false := by
  unfold goesIn lineMeaning
  by_cases hlong : 512 ≤ raw.length
  · by_cases hopens : ((raw.dropWhile isBlank).head? == some '[') = true
    · simp [hlong, hopens]
    · simp [hlong, hopens]
  · simp [hlong, hempty]

theorem trim_of_nothing {raw : Text} (h : lineMeaning W raw = .nothing) :
    trim (stripComment raw) = [] := by
  unfold lineMeaning at h
  split at h
  · split at h <;> exact absurd h (by simp)
  · dsimp only at h
    split at h
    · rename_i hhead
      exact List.head?_eq_none_iff.mp hhead
    · split at h
      · exact absurd h (by unfold headerMeaning; split <;> simp)
      · exact absurd h (by unfold keyMeaning; split <;> [simp; split <;> simp])

theorem entries_seenGen (c : Segconf) (name : Text) (gen : Nat) :
    (segSet c name fun s => { s with seenGen := gen }).entries = c.entries := by
  unfold Segconf.entries segSet
  rw [List.map_map]
  apply List.map_congr_left
  intro s _
  by_cases hs : s.name = name <;> simp [hs]

@[simp] theorem refuse_entries (c : Segconf) (line : Nat) (msg : Text) :
    (refuse c line msg).entries = c.entries := by
  simp [Segconf.entries]

/-- A header that does not open its segment is counted, and the entries stand. -/
theorem sectionOpen_shut {st : ParseState} {name : Text} (h : headerOpens st name = false) :
    (sectionOpen st name).conf.refused = st.conf.refused + 1 ∧
      (sectionOpen st name).conf.entries = st.conf.entries := by
  unfold headerOpens at h
  cases hfind : reacSegconfFind st.conf name with
  | some s =>
      rw [hfind] at h
      have hagain : s.seenGen = st.conf.gen := by simpa using h
      have hopen := sectionOpen_again hfind hagain (n := st.lineno)
      rw [hopen]
      constructor
      · exact refuse_refused _ _ _
      · dsimp only
        rw [entries_seenGen, refuse_entries]
  | none =>
      rw [hfind] at h
      have hfull : reacSegconfMax ≤ st.conf.seg.length := by simpa using h
      constructor
      · simp [sectionOpen, segGet, hfind, hfull, lineRefused]
      · simp [sectionOpen, segGet, hfind, hfull, lineRefused, Segconf.entries]

/-- A header that opens its segment is not counted. -/
theorem sectionOpen_opens {st : ParseState} {name : Text} (h : headerOpens st name = true) :
    (sectionOpen st name).conf.refused = st.conf.refused := by
  unfold headerOpens at h
  cases hfind : reacSegconfFind st.conf name with
  | some s =>
      rw [hfind] at h
      have hfirst : s.seenGen ≠ st.conf.gen := by simpa using h
      have hopen := sectionOpen_first hfind hfirst (n := st.lineno)
      rw [hopen]
      rfl
  | none =>
      rw [hfind] at h
      have hplace : ¬reacSegconfMax ≤ st.conf.seg.length := Nat.not_le.mpr (by simpa using h)
      simp [sectionOpen, segGet, hfind, hplace, segSet]

/-- **A line that does not go in leaves the entries**, and is counted unless it is empty. -/
theorem parseLine_out {st : ParseState} {raw : Text} (h : goesIn W st raw = false) :
    (parseLine W st raw).conf.entries = st.conf.entries ∧
      (lineMeaning W raw ≠ .nothing →
        (parseLine W st raw).conf.refused = st.conf.refused + 1) := by
  have hmeans := parseLine_means W st raw
  dsimp only at hmeans
  unfold goesIn at h
  cases hm : lineMeaning W raw with
  | nothing =>
      rw [hm] at hmeans
      rw [hmeans]
      exact ⟨rfl, fun hne => absurd rfl hne⟩
  | header name =>
      rw [hm] at hmeans h
      rw [hmeans]
      have hin : headerOpens { st with lineno := st.lineno + 1 } name = false := h
      have hshut := sectionOpen_shut hin
      exact ⟨hshut.2, fun _ => hshut.1⟩
  | badHeader =>
      rw [hm] at hmeans
      obtain ⟨msg, hmsg⟩ := hmeans
      rw [hmsg]
      exact ⟨refuse_entries _ _ _, fun _ => refuse_refused _ _ _⟩
  | key kv =>
      rw [hm] at hmeans h
      obtain ⟨msg, hmsg⟩ := hmeans.1 (Option.not_isSome_iff_eq_none.mp (by simpa using h))
      rw [hmsg]
      exact ⟨refuse_entries _ _ _, fun _ => refuse_refused _ _ _⟩
  | refused =>
      rw [hm] at hmeans
      obtain ⟨msg, hmsg⟩ := hmeans
      rw [hmsg]
      exact ⟨refuse_entries _ _ _, fun _ => refuse_refused _ _ _⟩

/-- **The code's own account of a line that goes in.** -/
theorem wentIn_iff (st : ParseState) (raw : Text) : wentIn W st raw ↔ goesIn W st raw = true := by
  constructor
  · rintro ⟨hkey, hrefused⟩
    by_contra hout
    have hstep := parseLine_out W (Bool.eq_false_iff.mpr hout)
    have hcounted := hstep.2 fun hm => hkey (trim_of_nothing W hm)
    omega
  · intro hin
    have hkey : trim (stripComment raw) ≠ [] := by
      intro hempty
      rw [goesIn_empty W hempty st] at hin
      exact absurd hin (by simp)
    refine ⟨hkey, ?_⟩
    have hmeans := parseLine_means W st raw
    dsimp only at hmeans
    unfold goesIn at hin
    cases hm : lineMeaning W raw with
    | header name =>
        rw [hm] at hmeans hin
        rw [hmeans]
        have hnext : headerOpens { st with lineno := st.lineno + 1 } name = true := hin
        exact sectionOpen_opens hnext
    | key kv =>
        rw [hm] at hmeans hin
        obtain ⟨cur, hcur⟩ := Option.isSome_iff_exists.mp hin
        rw [hmeans.2 cur hcur]
        rfl
    | nothing => rw [hm] at hin; exact absurd hin (by simp)
    | badHeader => rw [hm] at hin; exact absurd hin (by simp)
    | refused => rw [hm] at hin; exact absurd hin (by simp)

theorem parseLine_refused_le (st : ParseState) (raw : Text) :
    st.conf.refused ≤ (parseLine W st raw).conf.refused := by
  cases hin : goesIn W st raw with
  | true => exact ((wentIn_iff W st raw).mpr hin).2.ge
  | false =>
      by_cases hm : lineMeaning W raw = .nothing
      · have hmeans := parseLine_means W st raw
        dsimp only at hmeans
        rw [hm] at hmeans
        rw [hmeans]
      · rw [(parseLine_out W hin).2 hm]
        exact Nat.le_succ _

theorem linesParsed_refused_le (lines : List Text) (st : ParseState) :
    st.conf.refused ≤ (linesParsed W st lines).conf.refused := by
  induction lines generalizing st with
  | nil => exact le_refl _
  | cons raw lines ih => exact (parseLine_refused_le W st raw).trans (ih (parseLine W st raw))

theorem lineRefusals_add (st : ParseState) (lines : List Text) :
    (linesParsed W st lines).conf.refused = st.conf.refused + lineRefusals W st lines := by
  unfold lineRefusals
  have hle := linesParsed_refused_le W lines st
  omega

theorem linesIn_append (lines more : List Text) (st : ParseState) :
    linesIn W st (lines ++ more) = linesIn W st lines ++ linesIn W (linesParsed W st lines) more := by
  induction lines generalizing st with
  | nil => rfl
  | cons raw lines ih =>
      rw [List.cons_append, linesIn, linesIn, ih, List.append_assoc]
      rfl

/-! ### Reading one file -/

variable (fs : FileSystem) (c : Segconf) (label : Text) (slot : Nat) (bytes : Text)

theorem readOne_parsed (hread : fs.opened (below c.base label) = some (some bytes)) :
    (readOne W fs c label slot).1 =
      (linesParsed W (readStart fs c label slot bytes) (linesRead bytes)).conf := by
  unfold readOne
  dsimp only
  rw [hread]
  rfl

/-- The buffer's end is counted before the lines are. -/
theorem readStart_refused :
    (readStart fs c label slot bytes).conf.refused =
      c.refused + if fileBytes ≤ bytes.length then 1 else 0 := by
  have hlast : fileBytes - 1 < bytes.length ↔ fileBytes ≤ bytes.length := by
    unfold fileBytes
    omega
  unfold readStart
  dsimp only
  by_cases hlong : fileBytes ≤ bytes.length
  · rw [if_pos (hlast.mpr hlong), if_pos hlong, refuse_refused]
    split <;> rfl
  · rw [if_neg (mt hlast.mp hlong), if_neg hlong]
    split <;> rfl

/-- **When a file is read in whole lines.** -/
theorem read_one_whole_iff (hread : fs.opened (below c.base label) = some (some bytes)) :
    ReadWhole W fs c label slot bytes ↔ CutHarmless W fs c label slot bytes := by
  have hlines := linesRead_eq bytes
  have hrefused : (readOne W fs c label slot).1.refused =
      c.refused + (if fileBytes ≤ bytes.length then 1 else 0) +
        lineRefusals W (readStart fs c label slot bytes) (linesRead bytes) := by
    rw [readOne_parsed W fs c label slot bytes hread, lineRefusals_add, readStart_refused]
  constructor
  · intro hwhole
    by_cases hlong : fileBytes ≤ bytes.length
    · refine Or.inr ⟨hlong, ?_⟩
      intro cut hcut
      have happlied := hwhole.applied
      rw [hlines, hcut, linesIn_append] at happlied
      by_contra hin
      have hwent := (wentIn_iff W _ cut).mpr (Bool.not_eq_false _ ▸ hin)
      simp [linesIn, hwent] at happlied
    · refine Or.inl ⟨Nat.lt_of_not_le hlong, ?_⟩
      intro hnul
      have hcounted := hwhole.counted (linesRead_nul hnul)
      rw [hrefused, if_neg hlong] at hcounted
      omega
  · rintro (⟨hfits, hnul⟩ | ⟨hlong, hcut⟩)
    · have hall := linesRead_all hfits hnul
      have hwhole : wholeLines bytes = linesRead bytes := by
        unfold wholeLines
        rw [hall, sharedLines_prefix (List.prefix_refl _)]
      constructor
      · rw [hwhole]
      · rw [hwhole, readOne_parsed W fs c label slot bytes hread]
      · exact fun hne => absurd hall hne
    · constructor
      · rw [hlines, linesIn_append]
        cases hline : cutLine bytes with
        | none => simp [linesIn]
        | some cut =>
            have hout := mt (wentIn_iff W _ cut).mp (Bool.eq_false_iff.mp (hcut cut hline))
            simp [linesIn, hout]
      · rw [readOne_parsed W fs c label slot bytes hread, hlines]
        cases hline : cutLine bytes with
        | none => simp
        | some cut =>
            have hout := (parseLine_out W (hcut cut hline)).1
            rw [linesParsed, List.foldl_append]
            exact hout
      · intro _
        rw [hrefused, if_pos hlong]
        omega

end

/-! ### One file -/

/-- A home whose hand-written file has these bytes. -/
def confHome (bytes : Text) : FileSystem where
  entry path :=
    if path = txt "/h/reac-pw.conf" then some { size := bytes.length, content := .text bytes }
    else none
  listing _ := none
  strerror _ := txt "No such file or directory"
  home := some (txt "/h")

/-- A table with nothing in it yet. -/
def confBase : Segconf := { reacSegconfInit with base := txt "/h" }

/-- Two segments. -/
def twoSegments : Text := txt "[segment e0]\nrole = tap\n[segment e1]\nignore = yes"

theorem read_one_whole_two :
    (confHome twoSegments).opened (below confBase.base reacSegconfFile) =
      some (some twoSegments) ∧
    CutHarmless deskWords (confHome twoSegments) confBase reacSegconfFile 0 twoSegments ∧
    ReadWhole deskWords (confHome twoSegments) confBase reacSegconfFile 0 twoSegments := by
  have hread : (confHome twoSegments).opened (below confBase.base reacSegconfFile) =
      some (some twoSegments) := by
    decide
  have hcut : CutHarmless deskWords (confHome twoSegments) confBase reacSegconfFile 0
      twoSegments := Or.inl (by decide)
  exact ⟨hread, hcut, (read_one_whole_iff _ _ _ _ _ _ hread).mpr hcut⟩

/-- The same, with a NUL after the first. -/
def nulBetween : Text :=
  txt "[segment e0]\nrole = tap\n" ++ Char.ofNat 0 :: txt "\n[segment e1]\nignore = yes"

/-- The second segment is not read, and nothing is counted. -/
theorem read_one_nul :
    ¬∀ (W : SegconfWords) (fs : FileSystem) (c : Segconf) (label : Text) (slot : Nat)
      (bytes : Text), fs.opened (below c.base label) = some (some bytes) →
        ReadWhole W fs c label slot bytes := by
  intro hclaim
  have hwhole := hclaim deskWords (confHome nulBetween) confBase reacSegconfFile 0 nulBetween
    (by decide)
  have hcounted := hwhole.counted (by decide)
  exact absurd hcounted (by decide)

end ReacPw
