/-
The readback text says what the table holds.

The loops over the channels and parameters leave, in whatever buffer, what fits of the
marked cells' texts joined by commas (`render_holds`); splitting at the commas, the colon and
the equals sign gives the cells back (`decodeAsserted_cellsText`); and after any run of
writes the marked cells are those accepted, each with its last value (`assertedRun_kept`).
-/
import ReacPw.HeadampState

namespace ReacPw

/-! ### The writes -/

theorem reacHeadampAssertedSet_eq {limits : HeadampLimits} {t t' : HeadampAsserted}
    {w : AssertedWrite} (h : reacHeadampAssertedSet limits t w = some t') :
    (w.ch.toNat < limits.maxCh ∧ w.param.toNat < headampNparams ∧
        assertedValueInRange w.param w.value = true) ∧
      (∀ ch p, t'.set ch p = if w.ch.toNat = ch ∧ w.param.toNat = p then true else t.set ch p) ∧
      ∀ ch p, t'.value ch p =
        if w.ch.toNat = ch ∧ w.param.toNat = p then w.value else t.value ch p := by
  rw [reacHeadampAssertedSet] at h
  split at h
  · cases h
  · rename_i hbounds
    split at h
    · cases h
    · rename_i hrange
      cases h
      refine ⟨⟨by omega, by omega, by simpa using hrange⟩, ?_, ?_⟩
      · intro ch p
        by_cases hch : ch = w.ch.toNat
        · subst hch
          by_cases hp : p = w.param.toNat
          · simp [hp]
          · simp [hp, Ne.symm hp]
        · simp [hch, Ne.symm hch]
      · intro ch p
        by_cases hch : ch = w.ch.toNat
        · subst hch
          by_cases hp : p = w.param.toNat
          · simp [hp]
          · simp [hp, Ne.symm hp]
        · simp [hch, Ne.symm hch]

/-- The value a cell of the table holds. -/
def HeadampAsserted.held (t : HeadampAsserted) (ch p : Nat) : Option Nat :=
  if t.set ch p then some (t.value ch p).toNat else none

theorem reacHeadampAssertedSet_held {limits : HeadampLimits} {t t' : HeadampAsserted}
    {w : AssertedWrite} (h : reacHeadampAssertedSet limits t w = some t') (ch p : Nat) :
    t'.held ch p =
      if w.ch.toNat = ch ∧ w.param.toNat = p then some w.value.toNat else t.held ch p := by
  obtain ⟨-, hset, hvalue⟩ := reacHeadampAssertedSet_eq h
  rw [HeadampAsserted.held, hset, hvalue]
  split
  · simp
  · rfl

theorem lastAccepted_concat (accepted : List AssertedWrite) (w : AssertedWrite) (ch p : Nat) :
    lastAccepted (accepted ++ [w]) ch p =
      if w.ch.toNat = ch ∧ w.param.toNat = p then some w.value.toNat
      else lastAccepted accepted ch p := by
  rw [lastAccepted, lastAccepted, List.filter_append]
  split
  · rename_i hw
    simp [hw]
  · rename_i hw
    rw [List.filter_singleton, decide_eq_false hw]
    simp

/-- What the table keeps of the writes it accepted. -/
structure AssertedKept (limits : HeadampLimits) (accepted : List AssertedWrite)
    (t : HeadampAsserted) : Prop where
  last : ∀ ch p, t.held ch p = lastAccepted accepted ch p
  addressed : ∀ ch p, t.set ch p = true → ch < limits.maxCh ∧ p < headampNparams
  clean : ∀ ch p, t.set ch p = false → t.value ch p = 0

theorem assertedKept_init (limits : HeadampLimits) :
    AssertedKept limits [] reacHeadampAssertedInit where
  last := fun _ _ => rfl
  addressed := fun _ _ h => absurd h Bool.false_ne_true
  clean := fun _ _ _ => rfl

theorem AssertedKept.set {limits : HeadampLimits} {accepted : List AssertedWrite}
    {t t' : HeadampAsserted} {w : AssertedWrite} (hkept : AssertedKept limits accepted t)
    (h : reacHeadampAssertedSet limits t w = some t') :
    AssertedKept limits (accepted ++ [w]) t' := by
  obtain ⟨⟨hch, hp, -⟩, hset, hvalue⟩ := reacHeadampAssertedSet_eq h
  refine ⟨?_, ?_, ?_⟩
  · intro ch p
    rw [reacHeadampAssertedSet_held h, lastAccepted_concat, hkept.last]
  · intro ch p hmark
    rw [hset] at hmark
    split at hmark
    · rename_i hat
      rw [← hat.1, ← hat.2]
      exact ⟨hch, hp⟩
    · exact hkept.addressed ch p hmark
  · intro ch p hmark
    rw [hset] at hmark
    rw [hvalue]
    split at hmark
    · cases hmark
    · rename_i hat
      rw [if_neg hat]
      exact hkept.clean ch p hmark

/-- **A run of writes keeps what it accepted.** -/
theorem assertedRun_kept {limits : HeadampLimits} {before : List AssertedWrite}
    {t : HeadampAsserted} (hkept : AssertedKept limits before t) (ws : List AssertedWrite) :
    AssertedKept limits (before ++ (assertedRun limits t ws).2) (assertedRun limits t ws).1 := by
  induction ws generalizing before t with
  | nil =>
      rw [assertedRun, List.append_nil]
      exact hkept
  | cons w ws ih =>
      rw [assertedRun]
      split
      · exact ih hkept
      · rename_i t' hset
        have hrun := ih (hkept.set hset)
        rwa [List.append_assoc] at hrun

/-- Two tables that hold the same of the same cells are one. -/
theorem AssertedKept.ext {limits : HeadampLimits} {accepted others : List AssertedWrite}
    {t u : HeadampAsserted} (ht : AssertedKept limits accepted t)
    (hu : AssertedKept limits others u) (hheld : ∀ ch p, t.held ch p = u.held ch p) : t = u := by
  have hcell : ∀ ch p, t.set ch p = u.set ch p ∧ t.value ch p = u.value ch p := by
    intro ch p
    have hsame := hheld ch p
    rw [HeadampAsserted.held, HeadampAsserted.held] at hsame
    cases hmark : t.set ch p with
    | false =>
        cases hother : u.set ch p with
        | false => exact ⟨rfl, by rw [ht.clean ch p hmark, hu.clean ch p hother]⟩
        | true => simp [hmark, hother] at hsame
    | true =>
        cases hother : u.set ch p with
        | false => simp [hmark, hother] at hsame
        | true =>
            simp only [hmark, hother, if_true, Option.some.injEq] at hsame
            exact ⟨rfl, UInt8.toNat.inj hsame⟩
  obtain ⟨value, set⟩ := t
  obtain ⟨value', set'⟩ := u
  congr
  · funext ch p
    exact (hcell ch p).2
  · funext ch p
    exact (hcell ch p).1

/-! ### The table of the door -/

/-- The table as the door's model has it, by parameter. -/
def HeadampAsserted.table (t : HeadampAsserted) : HeadampTable := fun c =>
  t.held c.1 c.2.number

theorem HeadampParam.ofNumber_eq_some {n : Nat} {p : HeadampParam} :
    HeadampParam.ofNumber n = some p ↔ n = p.number := by
  constructor
  · intro h
    unfold HeadampParam.ofNumber at h
    split at h <;> cases h <;> rfl
  · rintro rfl
    cases p <;> rfl

theorem HeadampParam.number_inj {p q : HeadampParam} (h : p.number = q.number) : p = q := by
  cases p <;> cases q <;> first | rfl | cases h

/-- **A write here is a set of the door's table.** -/
theorem reacHeadampAssertedSet_table (limits : HeadampLimits) (t : HeadampAsserted)
    (w : AssertedWrite) {p : HeadampParam} (hp : w.param.toNat = p.number) :
    ((reacHeadampAssertedSet limits t w).getD t).table =
      headampSet limits t.table ⟨(w.ch.toNat, p), w.value.toNat⟩ := by
  have hrange : assertedValueInRange w.param w.value = valueInRange p w.value.toNat := by
    rw [assertedValueInRange, HeadampParam.ofNumber_eq_some.mpr hp]
  have hnum : w.param.toNat < headampNparams := by
    rw [hp]
    cases p <;> decide
  cases hset : reacHeadampAssertedSet limits t w with
  | none =>
      have hrefused : HeadampSetting.inRange limits ⟨(w.ch.toNat, p), w.value.toNat⟩ = false := by
        by_contra hin
        rw [HeadampSetting.inRange, Bool.not_eq_false, Bool.and_eq_true, decide_eq_true_iff] at hin
        obtain ⟨hch, hin⟩ := hin
        have hch : w.ch.toNat < limits.maxCh := hch
        rw [reacHeadampAssertedSet, if_neg (by omega), hrange, hin] at hset
        cases hset
      rw [headampSet, hrefused]
      rfl
  | some t' =>
      obtain ⟨⟨hch, -, hin⟩, -, -⟩ := reacHeadampAssertedSet_eq hset
      have hstands : HeadampSetting.inRange limits ⟨(w.ch.toNat, p), w.value.toNat⟩ = true := by
        rw [HeadampSetting.inRange, Bool.and_eq_true, decide_eq_true_iff, ← hrange]
        exact ⟨hch, hin⟩
      rw [headampSet, if_pos hstands]
      funext c
      obtain ⟨ch, q⟩ := c
      rw [HeadampAsserted.table, Option.getD_some, reacHeadampAssertedSet_held hset]
      by_cases hat : (ch, q) = (w.ch.toNat, p)
      · cases hat
        rw [if_pos ⟨rfl, hp⟩, Function.update_self]
      · rw [Function.update_of_ne hat, if_neg]
        · rfl
        · rintro ⟨hsame, hpar⟩
          refine hat (Prod.ext hsame.symm (HeadampParam.number_inj ?_))
          rw [← hp, hpar]

/-! ### The text of a list of cells -/

/-- The cells that are marked, in the order of the readback. -/
def assertedCells (limits : HeadampLimits) (t : HeadampAsserted) : List AssertedCell :=
  ((assertedAddresses limits).filter fun a => t.set a.1 a.2).map fun a => t.cell a.1 a.2

def cellsText (cells : List AssertedCell) : List Char :=
  [','].intercalate (cells.map AssertedCell.text)

theorem AssertedCell.text_ne_nil (c : AssertedCell) : c.text ≠ [] := by
  simp [AssertedCell.text]

theorem intercalate_concat (sep : List Char) {parts : List (List Char)} (hne : parts ≠ [])
    (last : List Char) :
    sep.intercalate (parts ++ [last]) = sep.intercalate parts ++ (sep ++ last) := by
  induction parts with
  | nil => exact absurd rfl hne
  | cons first rest ih =>
      cases rest with
      | nil => simp [List.intercalate_cons_cons]
      | cons second rest =>
          rw [List.cons_append, List.cons_append, List.intercalate_cons_cons, ← List.cons_append,
            ih (by simp), List.intercalate_cons_cons]
          simp only [List.append_assoc]

/-- The piece that is appended for a cell: what is there already says if it is the first. -/
theorem cellsText_concat (cells : List AssertedCell) (c : AssertedCell) :
    cellsText (cells ++ [c]) =
      cellsText cells ++ ((if (cellsText cells).length = 0 then [] else [',']) ++ c.text) := by
  by_cases hnil : cells = []
  · subst hnil
    simp [cellsText]
  · have hlong : (cellsText cells).length ≠ 0 := by
      obtain ⟨first, rest, rfl⟩ := List.exists_cons_of_ne_nil hnil
      have hfirst := first.text_ne_nil
      cases rest with
      | nil => simpa [cellsText] using hfirst
      | cons second rest => simp [cellsText, List.intercalate_cons_cons]
    rw [if_neg hlong, cellsText, List.map_append]
    exact intercalate_concat _ (by simpa using hnil) _

theorem renderCells_holds {t : HeadampAsserted} {buflen : Nat} {start : Nat → Char}
    (as : List (Nat × Nat)) {b : TextBuffer Char} {cells : List AssertedCell}
    (h : TextBuffer.Holds '\x00' buflen start b (cellsText cells)) :
    TextBuffer.Holds '\x00' buflen start (as.foldl (assertedRenderCell t buflen) b)
      (cellsText (cells ++ (as.filter fun a => t.set a.1 a.2).map fun a => t.cell a.1 a.2)) := by
  induction as generalizing b cells with
  | nil => simpa using h
  | cons a as ih =>
      rw [List.foldl_cons, assertedRenderCell]
      by_cases hmark : t.set a.1 a.2 = true
      · rw [if_pos hmark, List.filter_cons_of_pos (p := fun a : Nat × Nat => t.set a.1 a.2) hmark,
          List.map_cons, List.append_cons]
        refine ih ?_
        rw [cellsText_concat, ← h.counted]
        exact h.append _
      · rw [if_neg hmark, List.filter_cons_of_neg (p := fun a : Nat × Nat => t.set a.1 a.2) hmark]
        exact ih h

/-- **The readback leaves what fits of the cells' text**, in any buffer. -/
theorem render_holds (limits : HeadampLimits) (t : HeadampAsserted) (start : Nat → Char)
    (buflen : Nat) :
    TextBuffer.Holds '\x00' buflen start (reacHeadampAssertedRender limits t start buflen)
      (cellsText (assertedCells limits t)) := by
  have hclear : TextBuffer.Holds '\x00' buflen start (TextBuffer.clear '\x00' buflen start)
      (cellsText []) := TextBuffer.holds_clear '\x00' buflen start
  exact renderCells_holds _ hclear

theorem not_mem_numeral {c : Char} (hc : c.isDigit = false) (n : Nat) :
    c ∉ Decimal.numeral n := by
  intro hmem
  rw [Decimal.isDigit_of_mem_numeral hmem] at hc
  cases hc

theorem AssertedCell.not_mem_text {c : Char} (hdigit : c.isDigit = false) (hcolon : c ≠ ':')
    (hequals : c ≠ '=') (cell : AssertedCell) : c ∉ cell.text := by
  simp [AssertedCell.text, not_mem_numeral hdigit, hcolon, hequals]

theorem nul_not_mem_cellsText (cells : List AssertedCell) : '\x00' ∉ cellsText cells := by
  induction cells using List.reverseRecOn with
  | nil => exact List.not_mem_nil
  | append_singleton cells c ih =>
      have hcell : '\x00' ∉ c.text := c.not_mem_text (by decide) (by decide) (by decide)
      rw [cellsText_concat]
      split <;> simp [ih, hcell]

/-- The whole text is the cells'. -/
theorem assertedText_eq (limits : HeadampLimits) (t : HeadampAsserted) :
    assertedText limits t = cellsText (assertedCells limits t) := by
  have hlen := (render_holds limits t (fun _ => '\x00') 0).counted
  rw [assertedText, hlen,
    (render_holds limits t _ _).reads (nul_not_mem_cellsText _)]
  exact List.take_of_length_le (Nat.le_refl _)

/-! ### Reading the text back -/

theorem decodeAssertedCell_text (c : AssertedCell) : decodeAssertedCell c.text = some c := by
  have hcolon : c.text.splitOn ':' =
      [Decimal.numeral c.ch, Decimal.numeral c.param ++ '=' :: Decimal.numeral c.value] := by
    have hsplit : ([':'].intercalate [Decimal.numeral c.ch,
        Decimal.numeral c.param ++ '=' :: Decimal.numeral c.value]).splitOn ':' = _ :=
      List.splitOn_intercalate ':' (by simp [not_mem_numeral]) (by simp)
    simpa [AssertedCell.text, List.intercalate_cons_cons] using hsplit
  have hequals : (Decimal.numeral c.param ++ '=' :: Decimal.numeral c.value).splitOn '=' =
      [Decimal.numeral c.param, Decimal.numeral c.value] := by
    have hsplit : (['='].intercalate
        [Decimal.numeral c.param, Decimal.numeral c.value]).splitOn '=' = _ :=
      List.splitOn_intercalate '=' (by simp [not_mem_numeral]) (by simp)
    simpa [List.intercalate_cons_cons] using hsplit
  rw [decodeAssertedCell, hcolon]
  simp only [hequals, Decimal.read_numeral]
  rfl

theorem mapM_decode_text (cells : List AssertedCell) :
    (cells.map AssertedCell.text).mapM decodeAssertedCell = some cells := by
  induction cells with
  | nil => rfl
  | cons c cells ih => simp [decodeAssertedCell_text, ih]

/-- **The text reads back as the cells it was written from.** -/
theorem decodeAsserted_cellsText (cells : List AssertedCell) :
    decodeAsserted (cellsText cells) = some cells := by
  by_cases hnil : cells = []
  · subst hnil
    rfl
  · have hne : cellsText cells ≠ [] := by
      obtain ⟨last, hlast⟩ : ∃ init last, cells = init ++ [last] :=
        ⟨_, _, (List.dropLast_append_getLast hnil).symm⟩
      obtain ⟨c, rfl⟩ := hlast
      rw [cellsText_concat]
      simp [AssertedCell.text_ne_nil]
    rw [decodeAsserted, if_neg hne, cellsText, List.splitOn_intercalate]
    · exact mapM_decode_text cells
    · intro part hpart
      obtain ⟨c, -, rfl⟩ := List.mem_map.mp hpart
      exact c.not_mem_text (by decide) (by decide) (by decide)
    · simpa using hnil

/-! ### The cells of the text -/

theorem mem_assertedAddresses {limits : HeadampLimits} {a : Nat × Nat} :
    a ∈ assertedAddresses limits ↔ a.1 < limits.maxCh ∧ a.2 < headampNparams := by
  obtain ⟨ch, p⟩ := a
  simp [assertedAddresses, and_comm]

/-- By channel, then by parameter. -/
def AssertedCell.Before (c d : AssertedCell) : Prop :=
  c.ch < d.ch ∨ c.ch = d.ch ∧ c.param < d.param

theorem assertedCells_sorted (limits : HeadampLimits) (t : HeadampAsserted) :
    (assertedCells limits t).Pairwise AssertedCell.Before := by
  refine List.pairwise_map.mpr (List.Pairwise.filter _ (List.pairwise_flatMap.mpr ⟨?_, ?_⟩))
  · intro ch _
    rw [List.pairwise_map]
    exact List.pairwise_lt_range.imp fun h => Or.inr ⟨rfl, h⟩
  · refine List.pairwise_lt_range.imp fun {ch ch'} hlt a ha b hb => Or.inl ?_
    obtain ⟨p, -, rfl⟩ := List.mem_map.mp ha
    obtain ⟨q, -, rfl⟩ := List.mem_map.mp hb
    exact hlt

theorem mem_assertedCells {limits : HeadampLimits} {accepted : List AssertedWrite}
    {t : HeadampAsserted} (hkept : AssertedKept limits accepted t) {c : AssertedCell} :
    c ∈ assertedCells limits t ↔ lastAccepted accepted c.ch c.param = some c.value := by
  rw [← hkept.last, HeadampAsserted.held, assertedCells, List.mem_map]
  constructor
  · rintro ⟨a, hmem, rfl⟩
    exact if_pos (List.mem_filter.mp hmem).2
  · intro hheld
    split at hheld
    · rename_i hmark
      refine ⟨(c.ch, c.param), List.mem_filter.mpr
        ⟨mem_assertedAddresses.mpr (hkept.addressed _ _ hmark), hmark⟩, ?_⟩
      rw [HeadampAsserted.cell, Option.some.inj hheld]
    · cases hheld

/-- The texts of two tables of accepted writes are equal only where the tables are. -/
theorem assertedText_injective {limits : HeadampLimits} {accepted others : List AssertedWrite}
    {t u : HeadampAsserted} (ht : AssertedKept limits accepted t)
    (hu : AssertedKept limits others u) (htext : assertedText limits t = assertedText limits u) :
    t = u := by
  have hcells : assertedCells limits t = assertedCells limits u := by
    have hread := decodeAsserted_cellsText (assertedCells limits t)
    rw [← assertedText_eq, htext, assertedText_eq, decodeAsserted_cellsText] at hread
    exact (Option.some.inj hread).symm
  refine ht.ext hu fun ch p => Option.ext fun v => ?_
  rw [ht.last, hu.last]
  have hmem := mem_assertedCells ht (c := ⟨ch, p, v⟩)
  rw [hcells, mem_assertedCells hu] at hmem
  exact hmem.symm

/-- **The readback of any run of writes.**  Its text reads back as the accepted cells, each
once with its last value, by channel and parameter; it is another run's text only where the
tables are equal; and a buffer of any length holds what fits of it, ended, with nothing
written past the end. -/
theorem asserted_text_faithful (limits : HeadampLimits) (ws : List AssertedWrite) :
    let run := assertedRun limits reacHeadampAssertedInit ws
    let text := assertedText limits run.1
    (∃ cells, decodeAsserted text = some cells ∧ cells.Pairwise AssertedCell.Before ∧
        ∀ c, c ∈ cells ↔ lastAccepted run.2 c.ch c.param = some c.value) ∧
      (∀ others : List AssertedWrite,
        let other := assertedRun limits reacHeadampAssertedInit others
        text = assertedText limits other.1 ↔ run.1 = other.1) ∧
      ∀ (start : Nat → Char) (buflen : Nat),
        let b := reacHeadampAssertedRender limits run.1 start buflen
        b.used = text.length ∧
          TextBuffer.readText '\x00' buflen b.buf = text.take (buflen - 1) ∧
          (0 < buflen → b.buf (min text.length (buflen - 1)) = '\x00') ∧
          ∀ i, buflen ≤ i → b.buf i = start i := by
  intro run text
  have hkept : AssertedKept limits run.2 run.1 := assertedRun_kept (assertedKept_init limits) ws
  have htext : text = cellsText (assertedCells limits run.1) := assertedText_eq limits run.1
  refine ⟨⟨assertedCells limits run.1, ?_, assertedCells_sorted limits run.1, fun c =>
    mem_assertedCells hkept⟩, ?_, ?_⟩
  · rw [htext]
    exact decodeAsserted_cellsText _
  · intro others other
    have hother : AssertedKept limits other.2 other.1 :=
      assertedRun_kept (assertedKept_init limits) others
    refine ⟨assertedText_injective hkept hother, ?_⟩
    intro hsame
    exact congrArg (assertedText limits) hsame
  · intro start buflen b
    have hholds := render_holds limits run.1 start buflen
    rw [htext]
    refine ⟨hholds.counted, hholds.reads (nul_not_mem_cellsText _), hholds.ended, ?_⟩
    intro i hi
    refine hholds.frame i ?_
    omega

end ReacPw
