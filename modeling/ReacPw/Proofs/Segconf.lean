/-
What the configuration files mean.

A line means one of five things by its characters alone: nothing, a header, a header
that is refused, a key with its value, or a refusal.  What a file does is then a
matter of lists.  A key belongs to the section of the nearest header before it, if that
one was accepted; the last word on a key of a segment wins over all files; what is
neither nothing, a header nor a key of a section is counted and changes no key.

`parseLine_means` says the parser does that with one line, `FileSound` carries it
over a file and the files.  Histories are kept newest first, so that "the last" is the
first of a list.
-/
import Mathlib.Algebra.GroupWithZero.Nat
import Mathlib.Data.List.Nodup
import ReacPw.Segconf

namespace ReacPw

/-! ### What a line means -/

inductive LineMeaning where
  | nothing
  | header (name : Text)
  | badHeader
  | key (kv : KeyValue)
  | refused
  deriving DecidableEq, Repr

def headerMeaning (line : Text) : LineMeaning :=
  match readHeader line with
  | .ok name => .header name
  | .error _ => .badHeader

section
variable (W : SegconfWords)

def keyMeaning (line : Text) : LineMeaning :=
  match line.dropWhile (· ≠ '=') with
  | [] => .refused
  | _ :: v =>
      match readKey W [] (trim (line.takeWhile (· ≠ '='))) (unquote (trim v)) with
      | .ok kv => .key kv
      | .error _ => .refused

/-- The meaning of a line, whatever section it stands in. -/
def lineMeaning (raw : Text) : LineMeaning :=
  if 512 ≤ raw.length then
    if (raw.dropWhile isBlank).head? == some '[' then .badHeader else .refused
  else
    let line := trim (stripComment raw)
    match line.head? with
    | none => .nothing
    | some c => if c = '[' then headerMeaning line else keyMeaning W line

/-- The lines of a file, newest first. -/
def fileMeaning (text : Option Text) : List LineMeaning :=
  match text with
  | none => []
  | some t => ((textLines (t.takeWhile (· ≠ Char.ofNat 0))).map (lineMeaning W)).reverse

end

/-! ### What the lines of a file mean together -/

/-- The section open after these lines: the nearest header's, if it was accepted. -/
def sectionOf : List LineMeaning → Option Text
  | [] => none
  | .header name :: _ => some name
  | .badHeader :: _ => none
  | _ :: older => sectionOf older

/-- A key of a segment, and the file that gave it. -/
structure Assignment where
  name : Text
  kv : KeyValue
  file : Text
  deriving DecidableEq, Repr

/-- The keys a line gives, after these lines. -/
def lineAssigns (file : Text) (older : List LineMeaning) : LineMeaning → List Assignment
  | .key kv => ((sectionOf older).map fun name => { name := name, kv := kv, file := file }).toList
  | _ => []

/-- The keys a file gives, newest first. -/
def fileAssigns (file : Text) : List LineMeaning → List Assignment
  | [] => []
  | m :: older => lineAssigns file older m ++ fileAssigns file older

/-- Whether a line is counted, after these lines: everything but a blank or a comment, a key
of a section, and the first header of its segment in the file. -/
def lineCounted (older : List LineMeaning) : LineMeaning → Bool
  | .nothing => false
  | .header name => older.contains (.header name)
  | .badHeader => true
  | .key _ => (sectionOf older).isNone
  | .refused => true

def fileCounted : List LineMeaning → Nat
  | [] => 0
  | m :: older => (if lineCounted older m then 1 else 0) + fileCounted older

/-- The names of the table, in the order their first headers stand in. -/
def fileNames (names : List Text) : List LineMeaning → List Text
  | [] => names
  | .header name :: older =>
      if name ∈ fileNames names older then fileNames names older
      else fileNames names older ++ [name]
  | _ :: older => fileNames names older

/-! ### What the files mean together -/

/-- A file's text and its label. -/
abbrev ConfFile := Option Text × Option Text

/-- The file's name, as the parser keeps it. -/
def ConfFile.label (f : ConfFile) : Text := clipped reacSegconfFileLen (f.2.getD reacSegconfFile)

section
variable (W : SegconfWords)

/-- The keys all files give, newest first. -/
def assigned (files : List ConfFile) : List Assignment :=
  files.foldl (fun older f => fileAssigns f.label (fileMeaning W f.1) ++ older) []

/-- The names of the table the files leave, after those it had. -/
def named (names : List Text) (files : List ConfFile) : List Text :=
  files.foldl (fun names f => fileNames names (fileMeaning W f.1)) names

/-- How many lines are counted. -/
def counted (files : List ConfFile) : Nat :=
  (files.map fun f => fileCounted (fileMeaning W f.1)).sum

end

def roleOf (name : Text) (a : Assignment) : Option (RoleIntent × Text) :=
  match a.kv with
  | .role i => if a.name = name then some (i, a.file) else none
  | _ => none

def modelOf (name : Text) (a : Assignment) : Option (Text × Text) :=
  match a.kv with
  | .model token => if a.name = name then some (token, a.file) else none
  | _ => none

def ignoreOf (name : Text) (a : Assignment) : Option (Bool × Text) :=
  match a.kv with
  | .ignore yes => if a.name = name then some (yes, a.file) else none
  | _ => none

/-- What was said of a segment's keys, each with its file. -/
structure SegKeys where
  role : Option (RoleIntent × Text) := none
  model : Option (Text × Text) := none
  ignore : Option (Bool × Text) := none
  deriving DecidableEq, Repr

/-- The last word on every key of a segment. -/
def lastWord (name : Text) (as : List Assignment) : SegKeys :=
  { role := as.findSome? (roleOf name)
    model := as.findSome? (modelOf name)
    ignore := as.findSome? (ignoreOf name) }

/-- An entry that says exactly these keys, and keeps its previous answer to the others. -/
structure SaysKeys (prior s : SegconfSeg) (k : SegKeys) : Prop where
  role : (s.role, s.roleSet, s.roleFile) =
    match k.role with
    | some (i, file) => (i, true, file)
    | none => (prior.role, prior.roleSet, prior.roleFile)
  model : (s.model, s.modelSet, s.modelFile) =
    match k.model with
    | some (token, file) => (token, true, file)
    | none => (prior.model, prior.modelSet, prior.modelFile)
  ignore : (s.ignore, s.ignoreSet, s.ignoreFile) =
    match k.ignore with
    | some (yes, file) => (yes, true, file)
    | none => (prior.ignore, prior.ignoreSet, prior.ignoreFile)

/-- The entry a name had, an empty one if it had none. -/
def priorEntry (c : Segconf) (name : Text) : SegconfSeg :=
  (reacSegconfFind c name).getD { name := name }

def Segconf.names (c : Segconf) : List Text := c.seg.map (·.name)

/-- What every table the parser leaves keeps: one entry a name, opened in a file it counted. -/
structure Segconf.Sound (c : Segconf) : Prop where
  names : c.names.Nodup
  seen : ∀ s ∈ c.seg, s.seenGen ≤ c.gen

theorem sound_init : Segconf.Sound reacSegconfInit := by
  constructor
  · exact List.nodup_nil
  · intro s hs
    exact absurd hs List.not_mem_nil

/-! ### A refusal changes no key -/

theorem refuse_eq (c : Segconf) (line : Nat) (msg : Text) :
    ∃ refusal, refuse c line msg = { c with refused := c.refused + 1, refusal := refusal } := by
  unfold refuse
  dsimp only
  by_cases hfull : reacSegconfRefusals ≤ c.refusal.length
  · rw [if_pos hfull]
    exact ⟨c.refusal, rfl⟩
  · rw [if_neg hfull]
    generalize (if 0 < line then _ else _ : Text) = head
    by_cases hlong : reacSegconfRefusalLen ≤ head.length
    · rw [if_pos hlong]
      exact ⟨c.refusal, rfl⟩
    · rw [if_neg hlong]
      exact ⟨_, rfl⟩

@[simp] theorem refuse_seg (c : Segconf) (line : Nat) (msg : Text) :
    (refuse c line msg).seg = c.seg := by
  obtain ⟨refusal, h⟩ := refuse_eq c line msg
  rw [h]

@[simp] theorem refuse_refused (c : Segconf) (line : Nat) (msg : Text) :
    (refuse c line msg).refused = c.refused + 1 := by
  obtain ⟨refusal, h⟩ := refuse_eq c line msg
  rw [h]

@[simp] theorem refuse_gen (c : Segconf) (line : Nat) (msg : Text) :
    (refuse c line msg).gen = c.gen := by
  obtain ⟨refusal, h⟩ := refuse_eq c line msg
  rw [h]

@[simp] theorem refuse_reading (c : Segconf) (line : Nat) (msg : Text) :
    (refuse c line msg).reading = c.reading := by
  obtain ⟨refusal, h⟩ := refuse_eq c line msg
  rw [h]

theorem clipped_clipped (n : Nat) (s : Text) : clipped n (clipped n s) = clipped n s := by
  simp [clipped, List.take_take]

/-! ### One line -/

section
variable (W : SegconfWords)

/-- The section a key stands in is no part of its meaning. -/
theorem readKey_cur (cur key val : Text) :
    (readKey W cur key val).toOption = (readKey W [] key val).toOption := by
  unfold readKey
  dsimp only
  split
  · split
    · rfl
    · rfl
  · split
    · split
      · rfl
      · rfl
    · split
      · split
        · rfl
        · rfl
      · split
        · rfl
        · rfl

/-- The tokens read fit the entry's array. -/
def KeyValue.Fits : KeyValue → Prop
  | .model token => clipped reacSegconfModelLen token = token
  | _ => True

theorem readKey_fits {cur key val : Text} {kv : KeyValue} (h : readKey W cur key val = .ok kv) :
    kv.Fits := by
  unfold readKey at h
  dsimp only at h
  split at h
  · split at h
    · obtain rfl := Except.ok.inj h
      exact True.intro
    · exact absurd h (by simp)
  · split at h
    · split at h
      · obtain rfl := Except.ok.inj h
        simp [KeyValue.Fits, folded, clipped, List.take_take]
      · exact absurd h (by simp)
    · split at h
      · split at h
        · obtain rfl := Except.ok.inj h
          exact True.intro
        · exact absurd h (by simp)
      · split at h
        · exact absurd h (by simp)
        · exact absurd h (by simp)

theorem lineMeaning_fits {raw : Text} {kv : KeyValue} (h : lineMeaning W raw = .key kv) :
    kv.Fits := by
  unfold lineMeaning at h
  split at h
  · split at h
    · exact absurd h (by simp)
    · exact absurd h (by simp)
  · dsimp only at h
    split at h
    · exact absurd h (by simp)
    · split at h
      · unfold headerMeaning at h
        split at h
        · exact absurd h (by simp)
        · exact absurd h (by simp)
      · unfold keyMeaning at h
        split at h
        · exact absurd h (by simp)
        · split at h
          · rename_i hread
            obtain rfl := LineMeaning.key.inj h
            exact readKey_fits W hread
          · exact absurd h (by simp)

/-- A key's line: what the section makes of it. -/
theorem parseKey_means (st : ParseState) (line : Text) :
    match keyMeaning W line with
    | .key kv =>
        (st.cur = none → ∃ msg, parseKey W st line = lineRefused st msg) ∧
        ∀ cur, st.cur = some cur → parseKey W st line =
          { st with conf := segSet st.conf cur fun s => keySet st.conf.reading s kv }
    | _ => ∃ msg, parseKey W st line = lineRefused st msg := by
  unfold keyMeaning parseKey
  cases hsplit : line.dropWhile (· ≠ '=') with
  | nil => exact ⟨_, rfl⟩
  | cons eq v =>
      dsimp only
      cases hcur : st.cur with
      | none =>
          cases hread : readKey W [] (trim (line.takeWhile (· ≠ '='))) (unquote (trim v)) with
          | ok kv => exact ⟨fun _ => ⟨_, rfl⟩, by simp⟩
          | error msg => exact ⟨_, rfl⟩
      | some cur =>
          have hsame := readKey_cur W cur (trim (line.takeWhile (· ≠ '='))) (unquote (trim v))
          cases hread : readKey W [] (trim (line.takeWhile (· ≠ '='))) (unquote (trim v)) with
          | ok kv =>
              cases hreadc : readKey W cur (trim (line.takeWhile (· ≠ '='))) (unquote (trim v)) with
              | ok kv' =>
                  rw [hread, hreadc] at hsame
                  obtain rfl : kv' = kv := by simpa [Except.toOption] using hsame
                  refine ⟨by simp, ?_⟩
                  intro cur' hcur'
                  obtain rfl : cur = cur' := by simpa using hcur'
                  simp only [hreadc]
              | error msg =>
                  rw [hread, hreadc] at hsame
                  simp [Except.toOption] at hsame
          | error msg =>
              cases hreadc : readKey W cur (trim (line.takeWhile (· ≠ '='))) (unquote (trim v)) with
              | ok kv' =>
                  rw [hread, hreadc] at hsame
                  simp [Except.toOption] at hsame
              | error msg' =>
                  refine ⟨msg', ?_⟩
                  simp only [hreadc]

/-- **The parser does with a line what the line means.** -/
theorem parseLine_means (st : ParseState) (raw : Text) :
    let next := { st with lineno := st.lineno + 1 }
    match lineMeaning W raw with
    | .nothing => parseLine W st raw = next
    | .header name => parseLine W st raw = sectionOpen next name
    | .badHeader => ∃ msg, parseLine W st raw = { lineRefused next msg with cur := none }
    | .key kv =>
        (st.cur = none → ∃ msg, parseLine W st raw = lineRefused next msg) ∧
        ∀ cur, st.cur = some cur → parseLine W st raw =
          { next with conf := segSet st.conf cur fun s => keySet st.conf.reading s kv }
    | .refused => ∃ msg, parseLine W st raw = lineRefused next msg := by
  dsimp only
  unfold parseLine lineMeaning
  by_cases hlong : 512 ≤ raw.length
  · simp only [hlong, if_true]
    by_cases hopens : ((raw.dropWhile isBlank).head? == some '[') = true
    · simp only [hopens, if_true]
      exact ⟨_, rfl⟩
    · simp only [hopens]
      exact ⟨_, rfl⟩
  · simp only [hlong, if_false]
    cases hhead : (trim (stripComment raw)).head? with
    | none => rfl
    | some c =>
        by_cases hc : c = '['
        · simp only [hc, if_true, headerMeaning, parseHeader]
          cases hread : readHeader (trim (stripComment raw)) with
          | ok name => rfl
          | error msg => exact ⟨msg, rfl⟩
        · simp only [hc, if_false]
          have hkey := parseKey_means W { st with lineno := st.lineno + 1 }
            (trim (stripComment raw))
          cases hm : keyMeaning W (trim (stripComment raw)) with
          | key kv => rw [hm] at hkey; exact hkey
          | refused => rw [hm] at hkey; exact hkey
          | nothing => exact absurd hm (by unfold keyMeaning; split <;> [simp; split <;> simp])
          | header name => exact absurd hm (by unfold keyMeaning; split <;> [simp; split <;> simp])
          | badHeader => exact absurd hm (by unfold keyMeaning; split <;> [simp; split <;> simp])

end

/-! ### Last words -/

/-- Keys said after others. -/
def SegKeys.over (k older : SegKeys) : SegKeys :=
  { role := k.role.or older.role
    model := k.model.or older.model
    ignore := k.ignore.or older.ignore }

/-- One more key said. -/
def SegKeys.said (k : SegKeys) (file : Text) : KeyValue → SegKeys
  | .role i => { k with role := some (i, file) }
  | .model token => { k with model := some (token, file) }
  | .ignore yes => { k with ignore := some (yes, file) }

theorem lastWord_append (name : Text) (as older : List Assignment) :
    lastWord name (as ++ older) = (lastWord name as).over (lastWord name older) := by
  simp [lastWord, SegKeys.over, List.findSome?_append]

theorem lastWord_own (name : Text) (kv : KeyValue) (file : Text) (older : List Assignment) :
    lastWord name ({ name := name, kv := kv, file := file } :: older) =
      (lastWord name older).said file kv := by
  cases kv with
  | role i => simp [lastWord, SegKeys.said, List.findSome?_cons, roleOf, modelOf, ignoreOf]
  | model token => simp [lastWord, SegKeys.said, List.findSome?_cons, roleOf, modelOf, ignoreOf]
  | ignore yes => simp [lastWord, SegKeys.said, List.findSome?_cons, roleOf, modelOf, ignoreOf]

theorem lastWord_other {name : Text} {a : Assignment} (h : a.name ≠ name)
    (older : List Assignment) : lastWord name (a :: older) = lastWord name older := by
  obtain ⟨n, kv, file⟩ := a
  have hne : ¬n = name := h
  cases kv with
  | role i => simp [lastWord, List.findSome?_cons, roleOf, modelOf, ignoreOf, hne]
  | model token => simp [lastWord, List.findSome?_cons, roleOf, modelOf, ignoreOf, hne]
  | ignore yes => simp [lastWord, List.findSome?_cons, roleOf, modelOf, ignoreOf, hne]

/-- Nothing is said of a name no line names. -/
theorem lastWord_unnamed {name : Text} {as : List Assignment} (h : ∀ a ∈ as, a.name ≠ name) :
    lastWord name as = {} := by
  induction as with
  | nil => rfl
  | cons a as ih =>
      rw [lastWord_other (h a (by simp))]
      exact ih fun b hb => h b (by simp [hb])

theorem SaysKeys.refl (s : SegconfSeg) : SaysKeys s s {} := by
  constructor
  · rfl
  · rfl
  · rfl

theorem SaysKeys.over {first prior s : SegconfSeg} {k older : SegKeys}
    (hs : SaysKeys prior s k) (hprior : SaysKeys first prior older) :
    SaysKeys first s (k.over older) := by
  constructor
  · have h := hs.role
    cases hk : k.role with
    | none =>
        rw [hk] at h
        simpa [SegKeys.over, hk] using h.trans hprior.role
    | some said =>
        rw [hk] at h
        simpa [SegKeys.over, hk] using h
  · have h := hs.model
    cases hk : k.model with
    | none =>
        rw [hk] at h
        simpa [SegKeys.over, hk] using h.trans hprior.model
    | some said =>
        rw [hk] at h
        simpa [SegKeys.over, hk] using h
  · have h := hs.ignore
    cases hk : k.ignore with
    | none =>
        rw [hk] at h
        simpa [SegKeys.over, hk] using h.trans hprior.ignore
    | some said =>
        rw [hk] at h
        simpa [SegKeys.over, hk] using h

theorem SaysKeys.keySet {prior s : SegconfSeg} {k : SegKeys} (h : SaysKeys prior s k)
    {file : Text} (hfile : clipped reacSegconfFileLen file = file) {kv : KeyValue}
    (hfits : kv.Fits) : SaysKeys prior (keySet file s kv) (k.said file kv) := by
  cases kv with
  | role i =>
      constructor
      · simp [ReacPw.keySet, SegKeys.said, hfile]
      · exact h.model
      · exact h.ignore
  | model token =>
      constructor
      · exact h.role
      · have htoken : clipped reacSegconfModelLen token = token := hfits
        simp [ReacPw.keySet, SegKeys.said, hfile, htoken]
      · exact h.ignore
  | ignore yes =>
      constructor
      · exact h.role
      · exact h.model
      · simp [ReacPw.keySet, SegKeys.said, hfile]

/-! ### The names of a table -/

/-- The table's names after one line. -/
def lineNames (names : List Text) : LineMeaning → List Text
  | .header name => if name ∈ names then names else names ++ [name]
  | _ => names

theorem fileNames_cons (names : List Text) (m : LineMeaning) (older : List LineMeaning) :
    fileNames names (m :: older) = lineNames (fileNames names older) m := by
  cases m with
  | header name => rfl
  | nothing => rfl
  | badHeader => rfl
  | key kv => rfl
  | refused => rfl

theorem lineNames_old {names : List Text} {name : Text} (h : name ∈ names) :
    lineNames names (.header name) = names := if_pos h

theorem lineNames_new {names : List Text} {name : Text} (h : name ∉ names) :
    lineNames names (.header name) = names ++ [name] := if_neg h

theorem lineNames_cases (names : List Text) (m : LineMeaning) :
    lineNames names m = names ∨
      ∃ name, m = .header name ∧ name ∉ names ∧ lineNames names m = names ++ [name] := by
  cases m with
  | header name =>
      by_cases hmem : name ∈ names
      · exact Or.inl (lineNames_old hmem)
      · exact Or.inr ⟨name, rfl, hmem, lineNames_new hmem⟩
  | nothing => exact Or.inl rfl
  | badHeader => exact Or.inl rfl
  | key kv => exact Or.inl rfl
  | refused => exact Or.inl rfl

theorem lineNames_nodup {names : List Text} (h : names.Nodup) (m : LineMeaning) :
    (lineNames names m).Nodup := by
  obtain hsame | ⟨name, rfl, hnew, hcons⟩ := lineNames_cases names m
  · rw [hsame]
    exact h
  · rw [hcons]
    have hapart : ∀ a ∈ names, ∀ b ∈ [name], a ≠ b := by
      intro a ha b hb hab
      rw [List.mem_singleton.mp hb] at hab
      exact hnew (hab ▸ ha)
    exact List.nodup_append.mpr ⟨h, by simp, hapart⟩

theorem lineNames_le (names : List Text) (m : LineMeaning) :
    names.length ≤ (lineNames names m).length := by
  obtain hsame | ⟨name, rfl, hnew, hcons⟩ := lineNames_cases names m
  · rw [hsame]
  · rw [hcons]
    simp

theorem fileNames_nodup {names : List Text} (h : names.Nodup) (older : List LineMeaning) :
    (fileNames names older).Nodup := by
  induction older with
  | nil => exact h
  | cons m older ih =>
      rw [fileNames_cons]
      exact lineNames_nodup ih m

theorem fileNames_append_le (names : List Text) (newer older : List LineMeaning) :
    (fileNames names older).length ≤ (fileNames names (newer ++ older)).length := by
  induction newer with
  | nil => exact le_refl _
  | cons m newer ih =>
      rw [List.cons_append, fileNames_cons]
      exact le_trans ih (lineNames_le _ m)

theorem mem_lineNames {name : Text} {names : List Text} (m : LineMeaning) :
    name ∈ lineNames names m ↔ name ∈ names ∨ m = .header name := by
  cases m with
  | header n =>
      by_cases hmem : n ∈ names
      · rw [lineNames_old hmem]
        constructor
        · exact Or.inl
        · intro h
          obtain h | h := h
          · exact h
          · obtain rfl := LineMeaning.header.inj h
            exact hmem
      · rw [lineNames_new hmem]
        simp [eq_comm]
  | nothing => simp [lineNames]
  | badHeader => simp [lineNames]
  | key kv => simp [lineNames]
  | refused => simp [lineNames]

theorem mem_fileNames {name : Text} {names : List Text} (older : List LineMeaning) :
    name ∈ fileNames names older ↔ name ∈ names ∨ .header name ∈ older := by
  induction older with
  | nil => simp [fileNames]
  | cons m older ih =>
      rw [fileNames_cons, mem_lineNames, ih]
      simp only [List.mem_cons, eq_comm (a := m)]
      tauto

/-- The open section's header is in the file. -/
theorem header_of_sectionOf {older : List LineMeaning} {name : Text}
    (h : sectionOf older = some name) : .header name ∈ older := by
  induction older with
  | nil => simp [sectionOf] at h
  | cons m older ih =>
      cases m with
      | header n =>
          obtain rfl : n = name := by simpa [sectionOf] using h
          simp
      | badHeader => simp [sectionOf] at h
      | nothing => exact List.mem_cons_of_mem _ (ih h)
      | key kv => exact List.mem_cons_of_mem _ (ih h)
      | refused => exact List.mem_cons_of_mem _ (ih h)

/-- A key belongs to a segment of the file. -/
theorem assigns_named {file : Text} {older : List LineMeaning} {a : Assignment}
    (h : a ∈ fileAssigns file older) : .header a.name ∈ older := by
  induction older with
  | nil => simp [fileAssigns] at h
  | cons m older ih =>
      simp only [fileAssigns, List.mem_append] at h
      obtain h | h := h
      · cases m with
        | key kv =>
            cases hsec : sectionOf older with
            | none => simp [lineAssigns, hsec] at h
            | some name =>
                obtain rfl : a = { name := name, kv := kv, file := file } := by
                  simpa [lineAssigns, hsec] using h
                exact List.mem_cons_of_mem _ (header_of_sectionOf hsec)
        | nothing => simp [lineAssigns] at h
        | header n => simp [lineAssigns] at h
        | badHeader => simp [lineAssigns] at h
        | refused => simp [lineAssigns] at h
      · exact List.mem_cons_of_mem _ (ih h)

/-! ### One line of a file -/

theorem readHeader_short {line name : Text} (h : readHeader line = .ok name) :
    name.length < ifnamsiz := by
  unfold readHeader at h
  split at h
  · exact absurd h (by simp)
  · exact absurd h (by simp)
  · dsimp only at h
    split at h
    · exact absurd h (by simp)
    · split at h
      · exact absurd h (by simp)
      · split at h
        · exact absurd h (by simp)
        · rename_i hshort
          rw [← Except.ok.inj h]
          exact Nat.lt_of_not_le hshort

theorem lineMeaning_short (W : SegconfWords) {raw name : Text}
    (h : lineMeaning W raw = .header name) : name.length < ifnamsiz := by
  unfold lineMeaning at h
  split at h
  · split at h
    · exact absurd h (by simp)
    · exact absurd h (by simp)
  · dsimp only at h
    split at h
    · exact absurd h (by simp)
    · split at h
      · unfold headerMeaning at h
        split at h
        · rename_i hread
          obtain rfl := LineMeaning.header.inj h
          exact readHeader_short hread
        · exact absurd h (by simp)
      · unfold keyMeaning at h
        split at h
        · exact absurd h (by simp)
        · split at h
          · exact absurd h (by simp)
          · exact absurd h (by simp)

theorem clipped_short {n : Nat} {s : Text} (h : s.length < n) : clipped n s = s := by
  unfold clipped
  exact List.take_of_length_le (by omega)

theorem find_mem {c : Segconf} {name : Text} {s : SegconfSeg}
    (h : reacSegconfFind c name = some s) : s ∈ c.seg ∧ s.name = name := by
  unfold reacSegconfFind at h
  exact ⟨List.mem_of_find?_eq_some h, by simpa using List.find?_some h⟩

theorem not_mem_of_find_none {c : Segconf} {name : Text} (h : reacSegconfFind c name = none) :
    name ∉ c.names := by
  intro hmem
  obtain ⟨s, hs, hname⟩ := List.mem_map.mp hmem
  have hno := List.find?_eq_none.mp h s hs
  simp [hname] at hno

theorem find_none_of_not_mem {c : Segconf} {name : Text} (h : name ∉ c.names) :
    reacSegconfFind c name = none := by
  apply List.find?_eq_none.mpr
  intro s hs hname
  have hown : s.name = name := by simpa using hname
  exact h (hown ▸ List.mem_map_of_mem hs)

/-- The entry of a name is the one in the table. -/
theorem priorEntry_self {c : Segconf} (hsound : c.Sound) {s : SegconfSeg} (hs : s ∈ c.seg) :
    priorEntry c s.name = s := by
  cases hfind : reacSegconfFind c s.name with
  | none =>
      exact absurd (List.mem_map_of_mem hs) (not_mem_of_find_none hfind)
  | some s' =>
      obtain ⟨hs', hname⟩ := find_mem hfind
      have hsame : s' = s := List.inj_on_of_nodup_map hsound.names hs' hs hname
      rw [priorEntry, hfind, hsame]
      rfl

/-- A header again in its file: the keys are merged, and the header is counted. -/
theorem sectionOpen_again {st : ParseState} {name : Text} {s : SegconfSeg}
    (hfind : reacSegconfFind st.conf name = some s) (hagain : s.seenGen = st.conf.gen) {n : Nat} :
    sectionOpen { st with lineno := n } name =
      let conf := refuse st.conf n
        (txt "[segment " ++ name ++
          txt "] appears more than once in this file; the keys are merged")
      { conf := segSet conf name fun s => { s with seenGen := conf.gen }, cur := some name,
        lineno := n } := by
  simp [sectionOpen, segGet, hfind, hagain, lineRefused]

/-- The first header of its segment in the file. -/
theorem sectionOpen_first {st : ParseState} {name : Text} {s : SegconfSeg}
    (hfind : reacSegconfFind st.conf name = some s) (hfirst : s.seenGen ≠ st.conf.gen) {n : Nat} :
    sectionOpen { st with lineno := n } name =
      { conf := segSet st.conf name fun s => { s with seenGen := st.conf.gen }, cur := some name,
        lineno := n } := by
  simp [sectionOpen, segGet, hfind, hfirst]

/-- The first header of its segment in any file. -/
theorem sectionOpen_new {st : ParseState} {name : Text}
    (hfind : reacSegconfFind st.conf name = none) (hplace : st.conf.seg.length < reacSegconfMax)
    (hshort : name.length < ifnamsiz) {n : Nat} :
    sectionOpen { st with lineno := n } name =
      let conf := { st.conf with seg := st.conf.seg ++ [{ name := name }] }
      { conf := segSet conf name fun s => { s with seenGen := conf.gen }, cur := some name,
        lineno := n } := by
  have hfull : ¬reacSegconfMax ≤ st.conf.seg.length := Nat.not_le.mpr hplace
  simp [sectionOpen, segGet, hfind, hfull, clipped_short hshort]

/-- What the parser has done with a file's lines so far, on the table `c` the file found. -/
structure FileSound (c : Segconf) (older : List LineMeaning) (st : ParseState) : Prop where
  cur : st.cur = sectionOf older
  gen : st.conf.gen = c.gen
  reading : st.conf.reading = c.reading
  names : st.conf.names = fileNames c.names older
  keys : ∀ s ∈ st.conf.seg,
    SaysKeys (priorEntry c s.name) s (lastWord s.name (fileAssigns c.reading older))
  refused : st.conf.refused = c.refused + fileCounted older
  seen : ∀ s ∈ st.conf.seg, s.seenGen ≤ c.gen ∧ (s.seenGen = c.gen ↔ .header s.name ∈ older)

@[simp] theorem refuse_names (c : Segconf) (line : Nat) (msg : Text) :
    (refuse c line msg).names = c.names := by
  simp [Segconf.names]

section
variable (W : SegconfWords) {c : Segconf} {older : List LineMeaning} {st : ParseState}

/-- A line that says nothing of any segment. -/
theorem FileSound.silent (h : FileSound c older st) {m : LineMeaning} {st' : ParseState}
    (hcur : st'.cur = sectionOf (m :: older)) (hgen : st'.conf.gen = st.conf.gen)
    (hreading : st'.conf.reading = st.conf.reading) (hseg : st'.conf.seg = st.conf.seg)
    (hrefused : st'.conf.refused =
      st.conf.refused + if lineCounted older m then 1 else 0)
    (hassigns : lineAssigns c.reading older m = []) (hheader : ∀ name, m ≠ .header name) :
    FileSound c (m :: older) st' := by
  have hsame : fileAssigns c.reading (m :: older) = fileAssigns c.reading older := by
    simp [fileAssigns, hassigns]
  constructor
  · exact hcur
  · exact hgen.trans h.gen
  · exact hreading.trans h.reading
  · rw [fileNames_cons]
    have hnames : lineNames (fileNames c.names older) m = fileNames c.names older := by
      obtain hsame | ⟨name, hm, _⟩ := lineNames_cases (fileNames c.names older) m
      · exact hsame
      · exact absurd hm (hheader name)
    rw [hnames, ← h.names]
    simp only [Segconf.names, hseg]
  · intro s hs
    rw [hsame]
    exact h.keys s (hseg ▸ hs)
  · rw [hrefused, h.refused, fileCounted]
    omega
  · intro s hs
    obtain ⟨hle, hseen⟩ := h.seen s (hseg ▸ hs)
    refine ⟨hle, hseen.trans ?_⟩
    simp [(hheader s.name).symm]

/-- A line that is counted and changes nothing. -/
theorem FileSound.refusal (h : FileSound c older st) {m : LineMeaning} (n : Nat)
    (cur : Option Text) (msg : Text) (hcur : cur = sectionOf (m :: older))
    (hcounted : lineCounted older m = true)
    (hassigns : lineAssigns c.reading older m = []) (hheader : ∀ name, m ≠ .header name) :
    FileSound c (m :: older) { conf := refuse st.conf n msg, cur := cur, lineno := n } := by
  apply h.silent
  · exact hcur
  · exact refuse_gen _ _ _
  · exact refuse_reading _ _ _
  · exact refuse_seg _ _ _
  · simp [hcounted]
  · exact hassigns
  · exact hheader

/-- A key of the open section. -/
theorem FileSound.keyLine (h : FileSound c older st) {kv : KeyValue} (hfits : kv.Fits)
    (hfile : clipped reacSegconfFileLen c.reading = c.reading) {cur : Text}
    (hcur : st.cur = some cur) (n : Nat) :
    FileSound c (.key kv :: older)
      { conf := segSet st.conf cur fun s => keySet st.conf.reading s kv, cur := st.cur,
        lineno := n } := by
  have hsec : sectionOf older = some cur := h.cur.symm.trans hcur
  have hassigns : fileAssigns c.reading (.key kv :: older) =
      { name := cur, kv := kv, file := c.reading } :: fileAssigns c.reading older := by
    simp [fileAssigns, lineAssigns, hsec]
  have hname : ∀ s : SegconfSeg, (keySet st.conf.reading s kv).name = s.name := by
    intro s
    cases kv with
    | role i => rfl
    | model token => rfl
    | ignore yes => rfl
  have hgen : ∀ s : SegconfSeg, (keySet st.conf.reading s kv).seenGen = s.seenGen := by
    intro s
    cases kv with
    | role i => rfl
    | model token => rfl
    | ignore yes => rfl
  constructor
  · exact h.cur
  · exact h.gen
  · exact h.reading
  · rw [fileNames_cons]
    show (st.conf.seg.map _).map _ = fileNames c.names older
    rw [← h.names, Segconf.names, List.map_map]
    apply List.map_congr_left
    intro s hs
    by_cases hs : s.name = cur
    · simp [hs, hname]
    · simp [hs]
  · intro s' hs'
    obtain ⟨s, hs, rfl⟩ := List.mem_map.mp hs'
    rw [hassigns]
    have hkeys := h.keys s hs
    by_cases hown : s.name = cur
    · simp only [if_pos hown, hname]
      subst hown
      rw [lastWord_own, h.reading]
      exact hkeys.keySet hfile hfits
    · simp only [if_neg hown]
      rw [lastWord_other (fun he => hown he.symm)]
      exact hkeys
  · rw [fileCounted]
    simp only [lineCounted, hsec, Option.isNone_some]
    show st.conf.refused = _
    simpa using h.refused
  · intro s' hs'
    obtain ⟨s, hs, rfl⟩ := List.mem_map.mp hs'
    obtain ⟨hle, hseen⟩ := h.seen s hs
    by_cases hown : s.name = cur
    · simp only [if_pos hown, hname, hgen]
      exact ⟨hle, by simpa using hseen⟩
    · simp only [if_neg hown]
      exact ⟨hle, by simpa using hseen⟩

/-- A header, once its entry is in the table. -/
theorem FileSound.headerLine (h : FileSound c older st) {name : Text} {conf : Segconf} (n : Nat)
    (hgen : conf.gen = c.gen) (hreading : conf.reading = c.reading)
    (hnames : conf.names = fileNames c.names (.header name :: older))
    (hrefused : conf.refused = c.refused + fileCounted (.header name :: older))
    (hseg : ∀ s ∈ conf.seg, s ∈ st.conf.seg ∨ s = { name := name } ∧ name ∉ st.conf.names) :
    FileSound c (.header name :: older)
      { conf := segSet conf name fun s => { s with seenGen := conf.gen }, cur := some name,
        lineno := n } := by
  have hassigns : fileAssigns c.reading (.header name :: older) = fileAssigns c.reading older := by
    simp [fileAssigns, lineAssigns]
  constructor
  · rfl
  · exact hgen
  · exact hreading
  · rw [← hnames]
    show (conf.seg.map _).map _ = conf.seg.map _
    rw [List.map_map]
    apply List.map_congr_left
    intro s hs
    by_cases hown : s.name = name
    · simp [hown]
    · simp [hown]
  · intro s' hs'
    obtain ⟨s, hs, rfl⟩ := List.mem_map.mp hs'
    rw [hassigns]
    have hkeys : SaysKeys (priorEntry c s.name) s
        (lastWord s.name (fileAssigns c.reading older)) := by
      obtain hold | ⟨rfl, hnew⟩ := hseg s hs
      · exact h.keys s hold
      · rw [h.names, mem_fileNames, not_or] at hnew
        have hprior : priorEntry c name = { name := name } := by
          rw [priorEntry, find_none_of_not_mem hnew.1]
          rfl
        have hunsaid : lastWord name (fileAssigns c.reading older) = {} := by
          apply lastWord_unnamed
          intro a ha hname
          exact hnew.2 (hname ▸ assigns_named ha)
        show SaysKeys (priorEntry c name) _ (lastWord name _)
        rw [hprior, hunsaid]
        exact SaysKeys.refl _
    by_cases hown : s.name = name
    · simp only [if_pos hown]
      exact ⟨hkeys.role, hkeys.model, hkeys.ignore⟩
    · simp only [if_neg hown]
      exact hkeys
  · exact hrefused
  · intro s' hs'
    obtain ⟨s, hs, rfl⟩ := List.mem_map.mp hs'
    by_cases hown : s.name = name
    · simp only [if_pos hown]
      simp [hgen, hown]
    · simp only [if_neg hown]
      obtain hold | ⟨rfl, hnew⟩ := hseg s hs
      · obtain ⟨hle, hseen⟩ := h.seen s hold
        refine ⟨hle, hseen.trans ?_⟩
        simp [hown]
      · exact absurd rfl hown

/-- **An accepted header opens its section, new or not.** -/
theorem FileSound.sectionOpen (h : FileSound c older st) {name : Text}
    (hshort : name.length < ifnamsiz) (n : Nat)
    (hroom : (fileNames c.names (.header name :: older)).length ≤ reacSegconfMax) :
    FileSound c (.header name :: older) (sectionOpen { st with lineno := n } name) := by
  rw [fileNames_cons] at hroom
  cases hfind : reacSegconfFind st.conf name with
  | some s =>
      obtain ⟨hs, hname⟩ := find_mem hfind
      have hold : name ∈ fileNames c.names older := by
        rw [← h.names, ← hname]
        exact List.mem_map_of_mem hs
      have hseen := (h.seen s hs).2
      have hnames : st.conf.names = fileNames c.names (.header name :: older) := by
        rw [fileNames_cons, lineNames_old hold]
        exact h.names
      by_cases hagain : s.seenGen = st.conf.gen
      · have hheader : .header name ∈ older := by
          rw [← hname]
          exact hseen.mp (hagain.trans h.gen)
        rw [sectionOpen_again hfind hagain]
        apply h.headerLine
        · rw [refuse_gen]
          exact h.gen
        · rw [refuse_reading]
          exact h.reading
        · rw [refuse_names]
          exact hnames
        · rw [refuse_refused, h.refused]
          simp only [fileCounted, lineCounted, List.contains_iff_mem.mpr hheader, if_true]
          omega
        · intro s' hs'
          exact Or.inl (by simpa using hs')
      · have hheader : .header name ∉ older := by
          intro hmem
          rw [← hname] at hmem
          exact hagain ((hseen.mpr hmem).trans h.gen.symm)
        rw [sectionOpen_first hfind hagain]
        apply h.headerLine
        · exact h.gen
        · exact h.reading
        · exact hnames
        · rw [h.refused]
          simp [fileCounted, lineCounted, hheader]
        · intro s' hs'
          exact Or.inl hs'
  | none =>
      have hnew : name ∉ st.conf.names := not_mem_of_find_none hfind
      have hnew' : name ∉ fileNames c.names older := h.names ▸ hnew
      have hheader : .header name ∉ older := by
        intro hmem
        exact hnew' ((mem_fileNames older).mpr (Or.inr hmem))
      have hplace : st.conf.seg.length < reacSegconfMax := by
        rw [lineNames_new hnew', ← h.names] at hroom
        simp only [List.length_append, List.length_singleton] at hroom
        simp only [Segconf.names, List.length_map] at hroom
        omega
      rw [sectionOpen_new hfind hplace hshort]
      apply h.headerLine
      · exact h.gen
      · exact h.reading
      · rw [fileNames_cons, lineNames_new hnew', ← h.names]
        simp [Segconf.names]
      · show st.conf.refused = _
        rw [h.refused]
        simp [fileCounted, lineCounted, hheader]
      · intro s hs
        obtain hold | hlast := List.mem_append.mp hs
        · exact Or.inl hold
        · exact Or.inr ⟨List.mem_singleton.mp hlast, hnew⟩

/-- **One line keeps the file's history.** -/
theorem FileSound.step (h : FileSound c older st)
    (hfile : clipped reacSegconfFileLen c.reading = c.reading) (raw : Text)
    (hroom : (fileNames c.names (lineMeaning W raw :: older)).length ≤ reacSegconfMax) :
    FileSound c (lineMeaning W raw :: older) (parseLine W st raw) := by
  have hmeans := parseLine_means W st raw
  dsimp only at hmeans
  cases hm : lineMeaning W raw with
  | nothing =>
      rw [hm] at hmeans
      rw [hmeans]
      apply h.silent
      · exact h.cur
      · rfl
      · rfl
      · rfl
      · simp [lineCounted]
      · rfl
      · simp
  | header name =>
      rw [hm] at hmeans hroom
      rw [hmeans]
      exact h.sectionOpen (lineMeaning_short W hm) _ hroom
  | badHeader =>
      rw [hm] at hmeans
      obtain ⟨msg, hmsg⟩ := hmeans
      rw [hmsg]
      apply h.refusal
      · rfl
      · rfl
      · rfl
      · simp
  | key kv =>
      rw [hm] at hmeans
      obtain ⟨houtside, hinside⟩ := hmeans
      cases hcur : st.cur with
      | none =>
          have hsec : sectionOf older = none := h.cur.symm.trans hcur
          obtain ⟨msg, hmsg⟩ := houtside hcur
          rw [hmsg]
          apply h.refusal
          · exact h.cur
          · simp [lineCounted, hsec]
          · simp [lineAssigns, hsec]
          · simp
      | some cur =>
          rw [hinside cur hcur]
          exact h.keyLine (lineMeaning_fits W hm) hfile hcur _
  | refused =>
      rw [hm] at hmeans
      obtain ⟨msg, hmsg⟩ := hmeans
      rw [hmsg]
      apply h.refusal
      · exact h.cur
      · rfl
      · rfl
      · simp

/-- **A file's lines keep it.** -/
theorem FileSound.lines (hfile : clipped reacSegconfFileLen c.reading = c.reading)
    (lines : List Text) (older : List LineMeaning) (st : ParseState) (h : FileSound c older st)
    (hroom : (fileNames c.names ((lines.map (lineMeaning W)).reverse ++ older)).length ≤
      reacSegconfMax) :
    FileSound c ((lines.map (lineMeaning W)).reverse ++ older) (lines.foldl (parseLine W) st) := by
  induction lines generalizing older st with
  | nil => exact h
  | cons raw lines ih =>
      have hsplit : ((raw :: lines).map (lineMeaning W)).reverse ++ older =
          (lines.map (lineMeaning W)).reverse ++ (lineMeaning W raw :: older) := by
        simp
      rw [hsplit] at hroom ⊢
      rw [List.foldl_cons]
      apply ih
      · apply h.step W hfile
        exact le_trans (fileNames_append_le _ _ _) hroom
      · exact hroom

end

/-! ### One file, and the files -/

section
variable (W : SegconfWords)

/-- What files leave of a table. -/
structure FilesMean (c c' : Segconf) (as : List Assignment) (table : List Text) (n : Nat) :
    Prop where
  names : c'.names = table
  kept : ∀ name ∈ c.names, name ∈ table
  said : ∀ a ∈ as, a.name ∈ table
  keys : ∀ s ∈ c'.seg, SaysKeys (priorEntry c s.name) s (lastWord s.name as)
  refused : c'.refused = c.refused + n
  sound : c'.Sound

theorem fileSound_start {c : Segconf} (hsound : c.Sound) (label : Text) :
    FileSound { c with reading := label, gen := c.gen + 1 } []
      { conf := { c with reading := label, gen := c.gen + 1 } } := by
  constructor
  · rfl
  · rfl
  · rfl
  · rfl
  · intro s hs
    have hprior : priorEntry { c with reading := label, gen := c.gen + 1 } s.name = s :=
      priorEntry_self hsound hs
    rw [hprior]
    exact SaysKeys.refl s
  · rfl
  · intro s hs
    have hle : s.seenGen ≤ c.gen := hsound.seen s hs
    constructor
    · exact Nat.le_succ_of_le hle
    · constructor
      · intro heq
        have hnew : s.seenGen = c.gen + 1 := heq
        omega
      · intro hmem
        exact absurd hmem List.not_mem_nil

/-- **What one file means.** -/
theorem parseFile_means {c : Segconf} (hsound : c.Sound) (f : ConfFile)
    (hroom : (fileNames c.names (fileMeaning W f.1)).length ≤ reacSegconfMax) :
    FilesMean c (reacSegconfParseFile W c f.1 f.2) (fileAssigns f.label (fileMeaning W f.1))
      (fileNames c.names (fileMeaning W f.1)) (fileCounted (fileMeaning W f.1)) := by
  obtain ⟨text, label⟩ := f
  have hstart := fileSound_start hsound (ConfFile.label (text, label))
  have hfile : clipped reacSegconfFileLen (ConfFile.label (text, label)) =
      ConfFile.label (text, label) := clipped_clipped _ _
  have hend : FileSound { c with reading := ConfFile.label (text, label), gen := c.gen + 1 }
      (fileMeaning W text)
      { conf := reacSegconfParseFile W c text label
        cur := sectionOf (fileMeaning W text) } := by
    cases text with
    | none => exact hstart
    | some t =>
        have hlines := FileSound.lines W hfile (textLines (t.takeWhile (· ≠ Char.ofNat 0))) []
          _ hstart (by rw [List.append_nil]; exact hroom)
        rw [List.append_nil] at hlines
        exact ⟨rfl, hlines.gen, hlines.reading, hlines.names, hlines.keys, hlines.refused,
          hlines.seen⟩
  constructor
  · exact hend.names
  · intro name hname
    exact (mem_fileNames _).mpr (Or.inl hname)
  · intro a ha
    exact (mem_fileNames _).mpr (Or.inr (assigns_named ha))
  · exact hend.keys
  · exact hend.refused
  · constructor
    · rw [hend.names]
      exact fileNames_nodup hsound.names _
    · intro s hs
      rw [hend.gen]
      exact (hend.seen s hs).1

theorem FilesMean.refl {c : Segconf} (hsound : c.Sound) : FilesMean c c [] c.names 0 := by
  constructor
  · rfl
  · intro name hname
    exact hname
  · intro a ha
    exact absurd ha List.not_mem_nil
  · intro s hs
    rw [priorEntry_self hsound hs]
    exact SaysKeys.refl s
  · rfl
  · exact hsound

/-- Files after files. -/
theorem FilesMean.trans {c c' c'' : Segconf} {as as' : List Assignment}
    {names names' : List Text} {n n' : Nat} (h : FilesMean c c' as names n)
    (h' : FilesMean c' c'' as' names' n') :
    FilesMean c c'' (as' ++ as) names' (n + n') := by
  have hkept : ∀ name ∈ names, name ∈ names' := by
    intro name hname
    exact h'.kept name (h.names ▸ hname)
  constructor
  · exact h'.names
  · intro name hname
    exact hkept name (h.kept name hname)
  · intro a ha
    obtain hnew | hold := List.mem_append.mp ha
    · exact h'.said a hnew
    · exact hkept a.name (h.said a hold)
  · intro s hs
    rw [lastWord_append]
    apply (h'.keys s hs).over
    -- the entry the first files left, or none at all
    cases hfind : reacSegconfFind c' s.name with
    | some old =>
        obtain ⟨hold, hname⟩ := find_mem hfind
        have hkeys := h.keys old hold
        rw [hname] at hkeys
        simpa [priorEntry, hfind] using hkeys
    | none =>
        have hnew : s.name ∉ names := h.names ▸ not_mem_of_find_none hfind
        have hfirst : reacSegconfFind c s.name = none := by
          apply find_none_of_not_mem
          intro hmem
          exact hnew (h.kept _ hmem)
        have hunsaid : lastWord s.name as = {} := by
          apply lastWord_unnamed
          intro a ha hname
          exact hnew (hname ▸ h.said a ha)
        rw [hunsaid, priorEntry, priorEntry, hfind, hfirst]
        exact SaysKeys.refl _
  · rw [h'.refused, h.refused]
    omega
  · exact h'.sound

/-- The files one after the other, as the loader reads them. -/
def filesParsed (c : Segconf) (files : List ConfFile) : Segconf :=
  files.foldl (fun c f => reacSegconfParseFile W c f.1 f.2) c

theorem named_le (names : List Text) (files : List ConfFile) (f : ConfFile) :
    (named W names files).length ≤ (named W names (files ++ [f])).length := by
  have hsplit : named W names (files ++ [f]) =
      fileNames (named W names files) (fileMeaning W f.1) := by
    simp [named]
  rw [hsplit]
  simpa [fileNames] using fileNames_append_le (named W names files) (fileMeaning W f.1) []

/-- **What the files mean.** -/
theorem filesParsed_mean {c : Segconf} (hsound : c.Sound) (files : List ConfFile)
    (hroom : (named W c.names files).length ≤ reacSegconfMax) :
    FilesMean c (filesParsed W c files) (assigned W files) (named W c.names files)
      (counted W files) := by
  induction files using List.reverseRecOn with
  | nil => exact FilesMean.refl hsound
  | append_singleton files f ih =>
      have hbefore := ih (le_trans (named_le W c.names files f) hroom)
      have hnames : named W c.names (files ++ [f]) =
          fileNames (filesParsed W c files).names (fileMeaning W f.1) := by
        rw [hbefore.names]
        simp [named]
      rw [hnames] at hroom ⊢
      have hfile := parseFile_means W hbefore.sound f hroom
      have hboth := hbefore.trans hfile
      simpa [filesParsed, assigned, counted] using hboth

end

/-! ### Across the keys -/

/-- A role of box. -/
def SegconfSeg.isBox (s : SegconfSeg) : Bool := s.roleSet && s.role == .box

/-- Whether a segment's model and its role do not go together. -/
def SegconfSeg.misfit (s : SegconfSeg) : Bool := s.modelSet != s.isBox

/-- The entry `t` that the rule across the keys leaves of `s`. -/
structure KeysJudged (s t : SegconfSeg) : Prop where
  name : t.name = s.name
  ignore : (t.ignore, t.ignoreSet, t.ignoreFile) = (s.ignore, s.ignoreSet, s.ignoreFile)
  files : (t.roleFile, t.modelFile) = (s.roleFile, s.modelFile)
  modelIffBox : t.modelSet = true ↔ t.roleSet = true ∧ t.role = .box
  fits : s.misfit = false → t = s
  modelDropped : s.modelSet = true → s.isBox = false →
    (t.role, t.roleSet) = (s.role, s.roleSet) ∧ (t.model, t.modelSet) = ([], false)
  boxDropped : s.isBox = true → s.modelSet = false →
    (t.role, t.roleSet) = (.auto, false) ∧ (t.model, t.modelSet) = (s.model, false)

theorem crossed_judged (s : SegconfSeg) : KeysJudged s (crossed s) := by
  cases hmodel : s.modelSet with
  | true =>
      cases hbox : s.isBox with
      | true =>
          have hbox' : (s.roleSet && s.role == .box) = true := hbox
          have hsame : crossed s = s := by simp [crossed, hmodel, hbox']
          rw [hsame]
          have hrole : s.roleSet = true ∧ s.role = .box := by simpa using hbox'
          exact ⟨rfl, rfl, rfl, by simp [hmodel, hrole], fun _ => rfl, by simp [hbox],
            by simp [hmodel]⟩
      | false =>
          have hbox' : (s.roleSet && s.role == .box) = false := hbox
          have hdropped : crossed s = { s with modelSet := false, model := [] } := by
            simp [crossed, hmodel, hbox']
          rw [hdropped]
          have hrole : ¬(s.roleSet = true ∧ s.role = .box) := by simpa using hbox'
          exact ⟨rfl, rfl, rfl, by simpa using hrole,
            by simp [SegconfSeg.misfit, hmodel, hbox], fun _ _ => ⟨rfl, rfl⟩, by simp [hbox]⟩
  | false =>
      cases hbox : s.isBox with
      | true =>
          have hbox' : (s.roleSet && s.role == .box) = true := hbox
          have hdropped : crossed s = { s with roleSet := false, role := .auto } := by
            simp [crossed, hmodel, hbox']
          rw [hdropped]
          exact ⟨rfl, rfl, rfl, by simp [hmodel], by simp [SegconfSeg.misfit, hmodel, hbox],
            by simp [hmodel], fun _ _ => ⟨rfl, by rw [hmodel]⟩⟩
      | false =>
          have hbox' : (s.roleSet && s.role == .box) = false := hbox
          have hsame : crossed s = s := by simp [crossed, hmodel, hbox']
          rw [hsame]
          have hrole : ¬(s.roleSet = true ∧ s.role = .box) := by simpa using hbox'
          exact ⟨rfl, rfl, rfl, by simpa [hmodel] using hrole, fun _ => rfl, by simp [hmodel],
            by simp [hbox]⟩

theorem crossRefusal_iff (s : SegconfSeg) : (crossRefusal s).isSome = s.misfit := by
  unfold crossRefusal SegconfSeg.misfit SegconfSeg.isBox
  cases s.modelSet with
  | true =>
      cases (s.roleSet && s.role == .box) with
      | true => rfl
      | false => rfl
  | false =>
      cases (s.roleSet && s.role == .box) with
      | true => rfl
      | false => rfl

theorem crossRefusals_counted (segs : List SegconfSeg) (c : Segconf) :
    (segs.foldl (fun c s => ((crossRefusal s).map (refuse c 0)).getD c) c).refused =
      c.refused + segs.countP SegconfSeg.misfit := by
  induction segs generalizing c with
  | nil => rfl
  | cons s segs ih =>
      rw [List.foldl_cons, ih, List.countP_cons]
      have hone := crossRefusal_iff s
      cases hmsg : crossRefusal s with
      | none =>
          rw [hmsg] at hone
          simp [← hone]
      | some msg =>
          rw [hmsg] at hone
          simp [← hone]
          omega

/-- What `crossCheck` leaves of a table. -/
structure CrossJudged (c c' : Segconf) : Prop where
  seg : c'.seg = c.seg.map crossed
  judged : ∀ s ∈ c.seg, KeysJudged s (crossed s)
  refused : c'.refused = c.refused + c.seg.countP SegconfSeg.misfit
  sound : c.Sound → c'.Sound

theorem crossRefusals_gen (segs : List SegconfSeg) (c : Segconf) :
    (segs.foldl (fun c s => ((crossRefusal s).map (refuse c 0)).getD c) c).gen = c.gen := by
  induction segs generalizing c with
  | nil => rfl
  | cons s segs ih =>
      rw [List.foldl_cons, ih]
      cases crossRefusal s with
      | none => rfl
      | some msg => exact refuse_gen c 0 msg

theorem crossed_seenGen (s : SegconfSeg) : (crossed s).seenGen = s.seenGen := by
  unfold crossed
  dsimp only
  split
  · rfl
  · split
    · rfl
    · rfl

theorem crossCheck_judged (c : Segconf) : CrossJudged c (crossCheck c) := by
  constructor
  · rfl
  · intro s _
    exact crossed_judged s
  · exact crossRefusals_counted c.seg c
  · intro hsound
    constructor
    · have hnames : (crossCheck c).names = c.names := by
        show (c.seg.map crossed).map _ = c.seg.map _
        rw [List.map_map]
        apply List.map_congr_left
        intro s _
        exact (crossed_judged s).name
      rw [hnames]
      exact hsound.names
    · intro t ht
      obtain ⟨s, hs, rfl⟩ := List.mem_map.mp ht
      rw [crossed_seenGen]
      have hgen : (crossCheck c).gen = c.gen := crossRefusals_gen c.seg c
      rw [hgen]
      exact hsound.seen s hs

/-! ### The files, and the rule across the keys -/

/-- **What the configuration files mean**: the table they leave says the last word on every
key, names every segment with a header, and counts every other line; then a model that has no
box, and a box that has no model, are dropped. -/
theorem segconf_files_mean (W : SegconfWords) (c : Segconf) (files : List ConfFile)
    (hsound : c.Sound) (hroom : (named W c.names files).length ≤ reacSegconfMax) :
    FilesMean c (filesParsed W c files) (assigned W files) (named W c.names files)
      (counted W files) ∧
    CrossJudged (filesParsed W c files) (crossCheck (filesParsed W c files)) := by
  constructor
  · exact filesParsed_mean W hsound files hroom
  · exact crossCheck_judged _

/-- The role words, and one model. -/
def deskWords : SegconfWords where
  roleIntent v :=
    if v = txt "auto" then some .auto
    else if v = txt "master" then some .master
    else if v = txt "slave" then some .slave
    else if v = txt "tap" then some .tap
    else if v = txt "box" then some .box
    else none
  boxTokens := [txt "s1608"]

/-- A hand-written file, and a drop-in that gives its box a model. -/
def boxInTwoFiles : List ConfFile :=
  [(some (txt "[segment e0]\nrole = box\nrole = none\n"), some reacSegconfFile),
   (some (txt "[Segment e0] ; the desk's\nmodel = \"S1608\"\n"), some (txt "50-desk.conf"))]

theorem segconf_files_mean_desk :
    (named deskWords reacSegconfInit.names boxInTwoFiles).length ≤ reacSegconfMax ∧
    lastWord (txt "e0") (assigned deskWords boxInTwoFiles) =
      { role := some (.box, reacSegconfFile), model := some (txt "s1608", txt "50-desk.conf") } ∧
    counted deskWords boxInTwoFiles = 1 ∧
    FilesMean reacSegconfInit (filesParsed deskWords reacSegconfInit boxInTwoFiles)
      (assigned deskWords boxInTwoFiles) (named deskWords reacSegconfInit.names boxInTwoFiles)
      (counted deskWords boxInTwoFiles) ∧
    CrossJudged (filesParsed deskWords reacSegconfInit boxInTwoFiles)
      (crossCheck (filesParsed deskWords reacSegconfInit boxInTwoFiles)) := by
  have hroom : (named deskWords reacSegconfInit.names boxInTwoFiles).length ≤ reacSegconfMax := by
    decide
  have hmeans := segconf_files_mean deskWords reacSegconfInit boxInTwoFiles sound_init hroom
  exact ⟨hroom, by decide, by decide, hmeans.1, hmeans.2⟩

/-- A box without a model. -/
def boxAlone : List ConfFile := [(some (txt "[segment e0]\nrole = box\n"), some reacSegconfFile)]

/-- The last accepted role line is not the final table's answer. -/
theorem segconf_box_without_model :
    ¬∀ (W : SegconfWords) (files : List ConfFile),
      (named W reacSegconfInit.names files).length ≤ reacSegconfMax →
        ∀ s ∈ (crossCheck (filesParsed W reacSegconfInit files)).seg,
          SaysKeys (priorEntry reacSegconfInit s.name) s (lastWord s.name (assigned W files)) := by
  intro hclaim
  have hentry : { name := txt "e0", roleFile := reacSegconfFile, seenGen := 1 } ∈
      (crossCheck (filesParsed deskWords reacSegconfInit boxAlone)).seg := by decide
  have hword : lastWord (txt "e0") (assigned deskWords boxAlone) =
      { role := some (.box, reacSegconfFile) } := by decide
  have hsays := hclaim deskWords boxAlone (by decide) _ hentry
  rw [hword] at hsays
  exact absurd hsays.role (by decide)

end ReacPw
