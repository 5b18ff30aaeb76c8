/-
When a refresh of the configuration is idempotent and complete.

A refresh looks at what the loader wrote of the disk: where the files are, which were
opened, and the stamps.  `Disk` is that part of the struct, and `load_disk` says what it is
after a load, the parser and its refusals having no part in it.  Every drop-in that was
opened stands beside its own stamp, and so does the directory.  The hand-written file
has the first slot; if it could not be opened the slot is free, and the drop-ins write
theirs into it until one opens (`slotZero`).  That is the one way a refresh goes wrong.
-/
import ReacPw.SegconfFiles
import ReacPw.Proofs.Segconf

namespace ReacPw

/-! ### What the loader keeps of the disk -/

structure Disk where
  base : Text
  home : Text
  file : List Text
  stamp : List SegconfStamp
  stampDir : SegconfStamp
  deriving DecidableEq, Repr

def Segconf.disk (c : Segconf) : Disk :=
  { base := c.base, home := c.home, file := c.file, stamp := c.stamp, stampDir := c.stampDir }

@[simp] theorem refuse_disk (c : Segconf) (line : Nat) (msg : Text) :
    (refuse c line msg).disk = c.disk := by
  obtain ⟨refusal, h⟩ := refuse_eq c line msg
  rw [h]
  rfl

@[simp] theorem segSet_disk (c : Segconf) (name : Text) (f : SegconfSeg → SegconfSeg) :
    (segSet c name f).disk = c.disk := rfl

theorem segGet_disk (c : Segconf) (name : Text) : (segGet c name).1.disk = c.disk := by
  unfold segGet
  split
  · rfl
  · split
    · rfl
    · rfl

theorem sectionOpen_disk (st : ParseState) (name : Text) :
    (sectionOpen st name).conf.disk = st.conf.disk := by
  have hget := segGet_disk st.conf name
  unfold sectionOpen
  split
  · rename_i c hc
    rw [hc] at hget
    simpa [lineRefused] using hget
  · rename_i c isNew hc
    rw [hc] at hget
    dsimp only
    rw [segSet_disk]
    split
    · simpa [lineRefused] using hget
    · exact hget

section
variable (W : SegconfWords) (fs : FileSystem)

theorem parseLine_disk (st : ParseState) (raw : Text) :
    (parseLine W st raw).conf.disk = st.conf.disk := by
  have hmeans := parseLine_means W st raw
  dsimp only at hmeans
  cases hm : lineMeaning W raw with
  | nothing =>
      rw [hm] at hmeans
      rw [hmeans]
  | header name =>
      rw [hm] at hmeans
      rw [hmeans, sectionOpen_disk]
  | badHeader =>
      rw [hm] at hmeans
      obtain ⟨msg, hmsg⟩ := hmeans
      rw [hmsg]
      exact refuse_disk _ _ _
  | key kv =>
      rw [hm] at hmeans
      cases hcur : st.cur with
      | none =>
          obtain ⟨msg, hmsg⟩ := hmeans.1 hcur
          rw [hmsg]
          exact refuse_disk _ _ _
      | some cur =>
          rw [hmeans.2 cur hcur]
          rfl
  | refused =>
      rw [hm] at hmeans
      obtain ⟨msg, hmsg⟩ := hmeans
      rw [hmsg]
      exact refuse_disk _ _ _

theorem parseLines_disk (lines : List Text) (st : ParseState) :
    (lines.foldl (parseLine W) st).conf.disk = st.conf.disk := by
  induction lines generalizing st with
  | nil => rfl
  | cons raw lines ih => rw [List.foldl_cons, ih, parseLine_disk]

/-- The parser has no part in it. -/
@[simp] theorem parseFile_disk (c : Segconf) (text label : Option Text) :
    (reacSegconfParseFile W c text label).disk = c.disk := by
  cases text with
  | none => rfl
  | some t => exact parseLines_disk W _ _

@[simp] theorem crossCheck_disk (c : Segconf) : (crossCheck c).disk = c.disk := by
  have hfold : ∀ (segs : List SegconfSeg) (c : Segconf),
      (segs.foldl (fun c s => ((crossRefusal s).map (refuse c 0)).getD c) c).disk = c.disk := by
    intro segs
    induction segs with
    | nil =>
        intro c
        rfl
    | cons s segs ih =>
        intro c
        rw [List.foldl_cons, ih]
        cases crossRefusal s with
        | none => rfl
        | some msg => exact refuse_disk c 0 msg
  exact hfold c.seg c

/-! ### One file's part -/

/-- Whether a path opens. -/
def FileSystem.opens (path : Text) : Bool := (fs.opened path).isSome

/-- A file is stamped in a slot, and named if it opens. -/
def Disk.read (d : Disk) (label : Text) (slot : Nat) : Disk :=
  { d with
    stamp := d.stamp.set slot (fs.stamp (below d.base label))
    file := if fs.opens (below d.base label) then d.file ++ [label] else d.file }

theorem readOne_disk (c : Segconf) {label : Text} (slot : Nat)
    (hlabel : clipped reacSegconfFileLen label = label) (hroom : c.file.length < reacSegconfFiles) :
    (readOne W fs c label slot).1.disk = c.disk.read fs label slot := by
  unfold readOne
  dsimp only
  cases hopen : fs.opened (below c.base label) with
  | none => simp [Disk.read, FileSystem.opens, hopen, Segconf.disk]
  | some buffer =>
      have hopens : fs.opens (below c.disk.base label) = true := by
        show (fs.opened (below c.base label)).isSome = true
        rw [hopen]
        rfl
      have hread : c.disk.read fs label slot =
          { c.disk with
            stamp := c.disk.stamp.set slot (fs.stamp (below c.disk.base label))
            file := c.disk.file ++ [label] } := by
        rw [Disk.read, if_pos hopens]
      rw [hread]
      dsimp only
      rw [if_pos hroom, hlabel]
      cases buffer with
      | none => exact refuse_disk _ _ _
      | some text =>
          dsimp only
          rw [parseFile_disk]
          split
          · rw [refuse_disk]
            rfl
          · rfl

/-- A drop-in's part. -/
def Disk.dropin (d : Disk) (nm : Text) : Disk :=
  if reacSegconfFiles ≤ d.file.length then d else d.read fs (dropinLabel nm) d.file.length

theorem dropinLabel_clipped (nm : Text) :
    clipped reacSegconfFileLen (dropinLabel nm) = dropinLabel nm := clipped_clipped _ _

theorem loadDropin_disk (c : Segconf) (nm : Text) :
    (loadDropin W fs c nm).disk = c.disk.dropin fs nm := by
  unfold loadDropin Disk.dropin
  dsimp only
  by_cases hfull : reacSegconfFiles ≤ c.file.length
  · rw [if_pos hfull]
    exact (if_pos hfull).symm
  · rw [if_neg hfull]
    have hone := readOne_disk W fs c c.file.length (dropinLabel_clipped nm) (Nat.lt_of_not_le hfull)
    have hdisk : (if reacSegconfFiles ≤ c.disk.file.length then c.disk
        else c.disk.read fs (dropinLabel nm) c.disk.file.length) =
        c.disk.read fs (dropinLabel nm) c.file.length := if_neg hfull
    rw [hdisk, ← hone]
    split
    · rename_i c' hc
      rw [hc]
    · rename_i c' r hnot hc
      rw [hc, refuse_disk]
      rfl

theorem loadDropins_fold_disk (names : List Text) (c : Segconf) :
    (names.foldl (loadDropin W fs) c).disk = names.foldl (Disk.dropin fs) c.disk := by
  induction names generalizing c with
  | nil => rfl
  | cons nm names ih => rw [List.foldl_cons, ih, loadDropin_disk, List.foldl_cons]

/-- The drop-ins the directory of `base` gives, in the order they are read. -/
def FileSystem.dropins (base : Text) : List Text :=
  ((fs.listing (below base reacSegconfDird)).map ReacPw.dropins).getD []

theorem loadDropins_disk (c : Segconf) :
    (loadDropins W fs c).disk =
      (fs.dropins c.base).foldl (Disk.dropin fs)
        { c.disk with stampDir := fs.stamp (below c.base reacSegconfDird) } := by
  unfold loadDropins FileSystem.dropins
  dsimp only
  cases hlist : fs.listing (below c.base reacSegconfDird) with
  | none => rfl
  | some listing =>
      dsimp only
      have hfold := loadDropins_fold_disk W fs (dropins listing)
        { c with
          stampDir := fs.stamp (below c.base reacSegconfDird)
          filesOverflow := c.filesOverflow + (listing.foldl dropinTake ([], 0)).2 }
      split
      · rw [refuse_disk, hfold]
        rfl
      · rw [hfold]
        rfl

/-- What a load leaves of the disk at `base`. -/
def loadedDisk (base home : Text) : Disk :=
  let d : Disk :=
    { base := base, home := home, file := [], stamp := List.replicate reacSegconfFiles {},
      stampDir := {} }
  (fs.dropins base).foldl (Disk.dropin fs)
    { d.read fs reacSegconfFile 0 with stampDir := fs.stamp (below base reacSegconfDird) }

/-- **What a load keeps of the disk.** -/
theorem load_disk (home : Option Text) :
    (reacSegconfLoad W fs home).disk =
      loadedDisk fs (segconfBase fs home) (clipped 256 (home.getD [])) := by
  obtain ⟨c, hc⟩ : ∃ c : Segconf, c =
      { reacSegconfInit with
        home := clipped 256 (home.getD [])
        base := segconfBase fs home
        path := clipped 512 (below (segconfBase fs home) reacSegconfFile) } := ⟨_, rfl⟩
  have hstart : c.disk =
      { base := segconfBase fs home, home := clipped 256 (home.getD []), file := [],
        stamp := List.replicate reacSegconfFiles {}, stampDir := {} } := by
    rw [hc]
    rfl
  have hone : (readOne W fs c reacSegconfFile 0).1.disk = c.disk.read fs reacSegconfFile 0 := by
    apply readOne_disk
    · decide
    · rw [hc]
      show ([] : List Text).length < reacSegconfFiles
      decide
  have hread : ∀ c' : Segconf,
      c'.disk = c.disk.read fs reacSegconfFile 0 →
        (crossCheck (loadDropins W fs c')).disk =
          loadedDisk fs (segconfBase fs home) (clipped 256 (home.getD [])) := by
    intro c' hc'
    have hbase : c'.base = segconfBase fs home := by
      show c'.disk.base = _
      rw [hc', hstart]
      rfl
    rw [crossCheck_disk, loadDropins_disk, hbase, hc', hstart]
    rfl
  unfold reacSegconfLoad
  dsimp only
  rw [← hc]
  apply hread
  split
  · rename_i c' hc'
    rw [hc'] at hone
    exact hone
  · rename_i c' r hnot hc'
    rw [hc'] at hone
    exact hone

/-! ### The slot of the hand-written file -/

/-- The stamp left in the slot of a hand-written file that did not open: the drop-ins write
theirs into it until one of them opens. -/
def FileSystem.slotZero (fs : FileSystem) (base : Text) (st : SegconfStamp) :
    List Text → SegconfStamp
  | [] => st
  | nm :: names =>
      if fs.opens (below base (dropinLabel nm)) then fs.stamp (below base (dropinLabel nm))
      else fs.slotZero base (fs.stamp (below base (dropinLabel nm))) names

/-- What a load has kept of the disk at `dir`, after some drop-ins. -/
structure DiskKept (dir : Text) (d : Disk) : Prop where
  base : d.base = dir
  slots : d.stamp.length = reacSegconfFiles
  file : d.file.length ≤ reacSegconfFiles
  stampDir : d.stampDir = fs.stamp (below dir reacSegconfDird)
  /-- Every drop-in that was opened stands beside its own stamp. -/
  beside : ∀ f ∈ d.file.zip d.stamp, f.1 ≠ reacSegconfFile → f.2 = fs.stamp (below dir f.1)

theorem zip_set_length {α β : Type*} (xs : List α) (ys : List β) (y : β) :
    xs.zip (ys.set xs.length y) = xs.zip ys := by
  induction xs generalizing ys with
  | nil => rfl
  | cons x xs ih =>
      cases ys with
      | nil => rfl
      | cons y' ys => simp [ih]

theorem zip_concat_set {α β : Type*} (xs : List α) (x : α) (ys : List β) (y : β)
    (h : xs.length < ys.length) :
    (xs ++ [x]).zip (ys.set xs.length y) = xs.zip ys ++ [(x, y)] := by
  induction xs generalizing ys with
  | nil =>
      cases ys with
      | nil => simp at h
      | cons y' ys => rfl
  | cons x' xs ih =>
      cases ys with
      | nil => simp at h
      | cons y' ys => simpa using ih ys (by simpa using h)

end

section
variable {fs : FileSystem} {dir : Text} {d : Disk}

/-- A drop-in read into the next slot. -/
theorem DiskKept.dropin (h : DiskKept fs dir d) (nm : Text) : DiskKept fs dir (d.dropin fs nm) := by
  unfold Disk.dropin
  by_cases hfull : reacSegconfFiles ≤ d.file.length
  · rw [if_pos hfull]
    exact h
  · rw [if_neg hfull]
    have hroom : d.file.length < reacSegconfFiles := Nat.lt_of_not_le hfull
    constructor
    · exact h.base
    · simpa [Disk.read] using h.slots
    · unfold Disk.read
      split
      · rw [List.length_append]
        exact hroom
      · exact h.file
    · exact h.stampDir
    · intro f hf
      unfold Disk.read at hf
      by_cases hopen : fs.opens (below d.base (dropinLabel nm))
      · simp only [if_pos hopen] at hf
        rw [zip_concat_set _ _ _ _ (h.slots ▸ hroom)] at hf
        obtain hold | hnew := List.mem_append.mp hf
        · exact h.beside f hold
        · intro hname
          obtain rfl := List.mem_singleton.mp hnew
          exact congrArg (fun b => fs.stamp (below b (dropinLabel nm))) h.base
      · simp only [if_neg hopen] at hf
        rw [zip_set_length] at hf
        exact h.beside f hf

theorem DiskKept.dropins (names : List Text) (h : DiskKept fs dir d) :
    DiskKept fs dir (names.foldl (Disk.dropin fs) d) := by
  induction names generalizing d with
  | nil => exact h
  | cons nm names ih => exact ih (h.dropin nm)

/-- A first slot that is taken keeps its stamp. -/
theorem dropin_taken (hfile : d.file ≠ []) (nm : Text) :
    (d.dropin fs nm).stamp.headD {} = d.stamp.headD {} ∧ (d.dropin fs nm).file ≠ [] := by
  unfold Disk.dropin
  by_cases hfull : reacSegconfFiles ≤ d.file.length
  · rw [if_pos hfull]
    exact ⟨rfl, hfile⟩
  · rw [if_neg hfull]
    have hslot : d.file.length ≠ 0 := by simpa using hfile
    constructor
    · cases hstamp : d.stamp with
      | nil => simp [Disk.read, hstamp]
      | cons st stamps =>
          obtain ⟨n, hn⟩ := Nat.exists_eq_succ_of_ne_zero hslot
          simp [Disk.read, hstamp, hn]
    · unfold Disk.read
      split
      · simp
      · exact hfile

theorem dropins_taken (names : List Text) (hfile : d.file ≠ []) :
    (names.foldl (Disk.dropin fs) d).stamp.headD {} = d.stamp.headD {} := by
  induction names generalizing d with
  | nil => rfl
  | cons nm names ih =>
      obtain ⟨hhead, hnext⟩ : (d.dropin fs nm).stamp.headD {} = d.stamp.headD {} ∧
          (d.dropin fs nm).file ≠ [] := dropin_taken hfile nm
      rw [List.foldl_cons, ih hnext, hhead]

/-- A first slot that is free takes the next drop-in's stamp. -/
theorem dropin_free (h : DiskKept fs dir d) (hfile : d.file = []) (nm : Text) :
    (d.dropin fs nm).stamp.headD {} = fs.stamp (below dir (dropinLabel nm)) ∧
      (d.dropin fs nm).file =
        if fs.opens (below dir (dropinLabel nm)) then [dropinLabel nm] else [] := by
  have hroom : ¬reacSegconfFiles ≤ d.file.length := by
    rw [hfile]
    decide
  unfold Disk.dropin
  rw [if_neg hroom]
  constructor
  · cases hstamp : d.stamp with
    | nil =>
        have hslots := h.slots
        rw [hstamp] at hslots
        exact absurd hslots (by decide)
    | cons st stamps => simp [Disk.read, hstamp, hfile, h.base]
  · simp [Disk.read, hfile, h.base]

/-- **The stamp a free first slot ends with.** -/
theorem dropins_free (names : List Text) (h : DiskKept fs dir d) (hfile : d.file = []) :
    (names.foldl (Disk.dropin fs) d).stamp.headD {} =
      fs.slotZero dir (d.stamp.headD {}) names := by
  induction names generalizing d with
  | nil => rfl
  | cons nm names ih =>
      obtain ⟨hhead, hnext⟩ := dropin_free h hfile nm
      rw [List.foldl_cons, FileSystem.slotZero]
      by_cases hopen : fs.opens (below dir (dropinLabel nm))
      · rw [if_pos hopen] at hnext ⊢
        rw [dropins_taken names (by rw [hnext]; simp), hhead]
      · rw [if_neg hopen] at hnext ⊢
        rw [ih (h.dropin nm) hnext, hhead]

end

section
variable (W : SegconfWords) (fs : FileSystem)

/-- The stamp a load leaves for the hand-written file. -/
def FileSystem.confSlot (dir : Text) : SegconfStamp :=
  let conf := below dir reacSegconfFile
  if fs.opens conf then fs.stamp conf else fs.slotZero dir (fs.stamp conf) (fs.dropins dir)

/-- **What a load leaves**: every stamp where a refresh looks for it, but the first one. -/
theorem loadedDisk_kept (dir home : Text) :
    DiskKept fs dir (loadedDisk fs dir home) ∧
      (loadedDisk fs dir home).stamp.headD {} = fs.confSlot dir := by
  unfold loadedDisk
  dsimp only
  have hstart : DiskKept fs dir
      { (Disk.read fs
          { base := dir, home := home, file := [], stamp := List.replicate reacSegconfFiles {},
            stampDir := {} } reacSegconfFile 0) with
        stampDir := fs.stamp (below dir reacSegconfDird) } := by
    constructor
    · rfl
    · simp [Disk.read]
    · unfold Disk.read
      split
      · show 1 ≤ reacSegconfFiles
        decide
      · show 0 ≤ reacSegconfFiles
        decide
    · rfl
    · intro f hf hname
      unfold Disk.read at hf
      split at hf
      · obtain rfl : f = (reacSegconfFile, fs.stamp (below dir reacSegconfFile)) := by
          simpa [reacSegconfFiles, List.replicate_succ] using hf
        exact absurd rfl hname
      · exact absurd hf (by simp)
  refine ⟨hstart.dropins _, ?_⟩
  unfold FileSystem.confSlot
  dsimp only
  by_cases hopen : fs.opens (below dir reacSegconfFile)
  · rw [if_pos hopen, dropins_taken]
    · simp [Disk.read, reacSegconfFiles, List.replicate_succ]
    · simp [Disk.read, hopen]
  · rw [if_neg hopen, dropins_free _ hstart]
    · simp [Disk.read, reacSegconfFiles, List.replicate_succ]
    · simp [Disk.read, hopen]

/-! ### What a refresh sees -/

/-- A file moved when it looks otherwise than its stamp. -/
theorem moved_iff (fs' : FileSystem) (c : Segconf) (label path : Text) :
    moved fs' c label (fs.stamp path) = true ↔ fs'.stamp (below c.base label) ≠ fs.stamp path := by
  unfold moved FileSystem.stamp
  cases fs'.entry (below c.base label) with
  | none =>
      cases fs.entry path with
      | none => simp
      | some e => simp
  | some e' =>
      cases fs.entry path with
      | none => simp
      | some e =>
          simp only [Bool.not_true, Bool.false_or, Bool.or_eq_true, bne_iff_ne, ne_eq,
            SegconfStamp.mk.injEq, and_true]
          tauto

/-- The stamps a slot can hold. -/
theorem slotZero_stamp (dir : Text) (names : List Text) (path : Text) :
    ∃ path', fs.slotZero dir (fs.stamp path) names = fs.stamp path' := by
  induction names generalizing path with
  | nil => exact ⟨path, rfl⟩
  | cons nm names ih =>
      unfold FileSystem.slotZero
      split
      · exact ⟨_, rfl⟩
      · exact ih _

theorem confSlot_stamp (dir : Text) : ∃ path, fs.confSlot dir = fs.stamp path := by
  unfold FileSystem.confSlot
  dsimp only
  split
  · exact ⟨_, rfl⟩
  · exact slotZero_stamp fs dir _ _

theorem segconfBase_ne_nil (home : Option Text) : segconfBase fs home ≠ [] := by
  unfold segconfBase
  dsimp only
  split
  · decide
  · rename_i hhome
    cases hh : (home.or fs.home).getD [] with
    | nil => exact absurd hh hhome
    | cons c rest => simp [below, clipped]

/-! ### Idempotent and complete -/

/-- The structs a load or a refresh that loaded leaves, and the same once a segment has been
said to be ignored; `dir` is where the files were looked for. -/
inductive Loaded : Text → Segconf → Prop
  | load (home : Option Text) : Loaded (segconfBase fs home) (reacSegconfLoad W fs home)
  | refresh (c c' : Segconf) (h : reacSegconfRefresh W fs c = (c', true)) :
      Loaded (segconfBase fs (refreshHome c)) c'
  | said {dir : Text} {c : Segconf} (h : Loaded dir c) (name : Text) :
      Loaded dir (saidIgnored c name)

/-- Something a load read looks otherwise now. -/
def LoadedMoved (fs' : FileSystem) (dir : Text) (c : Segconf) : Prop :=
  fs'.stamp (below dir reacSegconfFile) ≠ fs.stamp (below dir reacSegconfFile) ∨
  fs'.stamp (below dir reacSegconfDird) ≠ fs.stamp (below dir reacSegconfDird) ∨
  ∃ label ∈ c.file, label ≠ reacSegconfFile ∧
    fs'.stamp (below dir label) ≠ fs.stamp (below dir label)

/-- A refresh leaves the struct as it is while nothing moves, and loads again when something
did. -/
structure RefreshComplete (dir : Text) (c : Segconf) : Prop where
  idempotent : reacSegconfRefresh W fs c = (c, false)
  complete : ∀ fs' : FileSystem, LoadedMoved fs fs' dir c → (reacSegconfRefresh W fs' c).2 = true

/-- The hand-written file opens, or no drop-in leaves another stamp than its own in its slot. -/
def ConfSlotKept (dir : Text) : Prop :=
  fs.opens (below dir reacSegconfFile) = true ∨
    fs.slotZero dir (fs.stamp (below dir reacSegconfFile)) (fs.dropins dir) =
      fs.stamp (below dir reacSegconfFile)

theorem confSlotKept_iff (dir : Text) :
    ConfSlotKept fs dir ↔ fs.confSlot dir = fs.stamp (below dir reacSegconfFile) := by
  unfold ConfSlotKept FileSystem.confSlot
  dsimp only
  by_cases hopen : fs.opens (below dir reacSegconfFile) = true
  · rw [if_pos hopen]
    simp [hopen]
  · rw [if_neg hopen]
    simp [hopen]

variable {W fs}

theorem refresh_loads {c c' : Segconf} (h : reacSegconfRefresh W fs c = (c', true)) :
    c' = reacSegconfLoad W fs (refreshHome c) := by
  unfold reacSegconfRefresh at h
  dsimp only at h
  split at h
  · exact absurd (congrArg Prod.snd h) (by simp)
  · split at h
    · exact (congrArg Prod.fst h).symm
    · exact absurd (congrArg Prod.snd h) (by simp)

theorem loaded_disk {dir : Text} {c : Segconf} (h : Loaded W fs dir c) :
    dir ≠ [] ∧ ∃ home, c.disk = loadedDisk fs dir home := by
  induction h with
  | load home => exact ⟨segconfBase_ne_nil fs home, _, load_disk W fs home⟩
  | refresh c c' h =>
      rw [refresh_loads h]
      exact ⟨segconfBase_ne_nil fs _, _, load_disk W fs _⟩
  | said h name ih => exact ih

/-- What a refresh of a loaded struct compares. -/
theorem loaded_refresh_iff {dir : Text} {c : Segconf} (h : Loaded W fs dir c) (fs' : FileSystem) :
    (reacSegconfRefresh W fs' c).2 = true ↔
      fs'.stamp (below dir reacSegconfFile) ≠ fs.confSlot dir ∨
      fs'.stamp (below dir reacSegconfDird) ≠ fs.stamp (below dir reacSegconfDird) ∨
      ∃ label ∈ c.file, label ≠ reacSegconfFile ∧
        fs'.stamp (below dir label) ≠ fs.stamp (below dir label) := by
  obtain ⟨hdir, home, hdisk⟩ := loaded_disk h
  obtain ⟨hkept, hfirst⟩ := loadedDisk_kept fs dir home
  rw [← hdisk] at hkept hfirst
  have hbase : c.base = dir := hkept.base
  have hstampDir : c.stampDir = fs.stamp (below dir reacSegconfDird) := hkept.stampDir
  have hhead : c.stamp.headD {} = fs.confSlot dir := hfirst
  have hconf : moved fs' c reacSegconfFile (c.stamp.headD {}) = true ↔
      fs'.stamp (below dir reacSegconfFile) ≠ fs.confSlot dir := by
    obtain ⟨path, hpath⟩ := confSlot_stamp fs dir
    rw [hhead, hpath, moved_iff fs fs', hbase]
  have hdird : moved fs' c reacSegconfDird c.stampDir = true ↔
      fs'.stamp (below dir reacSegconfDird) ≠ fs.stamp (below dir reacSegconfDird) := by
    rw [hstampDir, moved_iff fs fs', hbase]
  have hfiles : ((c.file.zip c.stamp).any fun f => f.1 != reacSegconfFile && moved fs' c f.1 f.2) =
        true ↔
      ∃ label ∈ c.file, label ≠ reacSegconfFile ∧
        fs'.stamp (below dir label) ≠ fs.stamp (below dir label) := by
    rw [List.any_eq_true]
    constructor
    · rintro ⟨⟨label, st⟩, hmem, hmoved⟩
      simp only [Bool.and_eq_true, bne_iff_ne, ne_eq] at hmoved
      obtain ⟨hname, hmoved⟩ := hmoved
      have hst : st = fs.stamp (below dir label) := hkept.beside _ hmem hname
      rw [hst, moved_iff fs fs', hbase] at hmoved
      exact ⟨label, (List.of_mem_zip hmem).1, hname, hmoved⟩
    · rintro ⟨label, hmem, hname, hmoved⟩
      have hlen : c.file.length ≤ c.stamp.length := by
        have hslots : c.stamp.length = reacSegconfFiles := hkept.slots
        rw [hslots]
        exact hkept.file
      obtain ⟨i, hi, rfl⟩ := List.getElem_of_mem hmem
      have hpair : (c.file[i], c.stamp[i]) ∈ c.file.zip c.stamp := by
        rw [← List.getElem_zip (h := by simp; omega)]
        exact List.getElem_mem _
      have hst : c.stamp[i] = fs.stamp (below dir c.file[i]) := hkept.beside _ hpair hname
      refine ⟨(c.file[i], c.stamp[i]), hpair, ?_⟩
      simp only [Bool.and_eq_true, bne_iff_ne, ne_eq]
      refine ⟨hname, ?_⟩
      rw [hst, moved_iff fs fs', hbase]
      exact hmoved
  rw [← hconf, ← hdird, ← hfiles, ← or_assoc, ← Bool.or_eq_true, ← Bool.or_eq_true]
  unfold reacSegconfRefresh
  dsimp only
  rw [if_neg (hbase ▸ hdir)]
  split
  · rename_i hmove
    exact iff_of_true rfl hmove
  · rename_i hmove
    exact iff_of_false (by simp) hmove

/-- Nothing that was read looks otherwise to a refresh, but perhaps the hand-written file. -/
theorem loaded_still_iff {dir : Text} {c : Segconf} (h : Loaded W fs dir c) :
    reacSegconfRefresh W fs c = (c, false) ↔
      fs.stamp (below dir reacSegconfFile) = fs.confSlot dir := by
  have hsees := loaded_refresh_iff h fs
  constructor
  · intro hstill
    by_contra hmoved
    have htrue := hsees.mpr (Or.inl hmoved)
    rw [hstill] at htrue
    exact absurd htrue (by simp)
  · intro hslot
    have hfalse : (reacSegconfRefresh W fs c).2 = false := by
      rw [← Bool.not_eq_true, hsees]
      simp [hslot]
    unfold reacSegconfRefresh at hfalse ⊢
    dsimp only at hfalse ⊢
    split
    · rfl
    · rename_i hbase
      rw [if_neg hbase] at hfalse
      split
      · rename_i hmove
        rw [if_pos hmove] at hfalse
        exact absurd hfalse (by simp)
      · rfl

/-- **A refresh is idempotent and complete exactly when the slot of the hand-written file
holds that file's stamp.** -/
theorem segconf_refresh_iff {dir : Text} {c : Segconf} (h : Loaded W fs dir c) :
    RefreshComplete W fs dir c ↔ ConfSlotKept fs dir := by
  rw [confSlotKept_iff]
  constructor
  · intro hcomplete
    exact ((loaded_still_iff h).mp hcomplete.idempotent).symm
  · intro hslot
    constructor
    · exact (loaded_still_iff h).mpr hslot.symm
    · intro fs' hmoved
      rw [loaded_refresh_iff h, hslot]
      exact hmoved

end

/-! ### One drop-in -/

/-- A home with one drop-in, and a hand-written file or none. -/
def deskHome (conf : Option FileEntry) : FileSystem where
  entry path :=
    if path = txt "/h/.config/reac-pw/reac-pw.conf" then conf
    else if path = txt "/h/.config/reac-pw/reac-pw.conf.d" then
      some { mtimeNs := 20, size := 60, ino := 3, content := .text [] }
    else if path = txt "/h/.config/reac-pw/reac-pw.conf.d/50-desk.conf" then
      some { mtimeNs := 30, size := 24, ino := 4, content := .text (txt "[segment e0]\nignore=yes\n") }
    else none
  listing path :=
    if path = txt "/h/.config/reac-pw/reac-pw.conf.d" then some [txt ".", txt "..", txt "50-desk.conf"]
    else none
  strerror _ := txt "No such file or directory"
  home := some (txt "/h")

/-- A hand-written file that says nothing. -/
def quietConf : FileEntry := { mtimeNs := 10, size := 1, ino := 2, content := .text (txt "\n") }

theorem segconf_refresh_desk :
    ConfSlotKept (deskHome (some quietConf)) (segconfBase (deskHome (some quietConf)) none) ∧
    RefreshComplete deskWords (deskHome (some quietConf))
      (segconfBase (deskHome (some quietConf)) none)
      (saidIgnored (reacSegconfLoad deskWords (deskHome (some quietConf)) none) (txt "e0")) := by
  have hkept : ConfSlotKept (deskHome (some quietConf))
      (segconfBase (deskHome (some quietConf)) none) := Or.inl (by decide)
  have hloaded : Loaded deskWords (deskHome (some quietConf))
      (segconfBase (deskHome (some quietConf)) none)
      (saidIgnored (reacSegconfLoad deskWords (deskHome (some quietConf)) none) (txt "e0")) :=
    (Loaded.load none).said (txt "e0")
  exact ⟨hkept, (segconf_refresh_iff hloaded).mpr hkept⟩

/-- Without a hand-written file, the drop-in alone is read again and again. -/
theorem segconf_refresh_unsettled :
    ¬∀ (W : SegconfWords) (fs : FileSystem) (dir : Text) (c : Segconf),
      Loaded W fs dir c → RefreshComplete W fs dir c := by
  intro hclaim
  have hcomplete := hclaim deskWords (deskHome none) _ _ (Loaded.load none)
  have hreload : (reacSegconfRefresh deskWords (deskHome none)
      (reacSegconfLoad deskWords (deskHome none) none)).2 = true := by
    decide
  rw [hcomplete.idempotent] at hreload
  exact absurd hreload (by simp)

end ReacPw
