/-
What the head-amp list of a configuration arms.

A cell is exact when its channel and its value are digits and nothing else, and both are in
range.  The scan takes more (`parseHeadamp_iff`): blanks and a sign before a number, a number
past 32 bits that wraps into the range, and anything behind the value (`CellScanned`).  Exact
cells that fit the buffer are read as what they say (`parseHeadamp_exact`).
-/
import ReacPw.HeadampConf
import ReacPw.Proofs.HeadampProp

namespace ReacPw

/-! ### Exact cells -/

/-- `CH:PARAM:VALUE`, in digits and in range. -/
def exactCell (limits : HeadampLimits) (cell : List Char) : Option HeadampSetting :=
  match cell.splitOn ':' with
  | [ch, name, value] =>
      match Decimal.read ch, paramNameToId name, Decimal.read value with
      | some ch, some p, some v =>
          if ch < limits.maxCh ∧ v ≤ p.top then some ⟨(ch, p), v⟩ else none
      | _, _, _ => none
  | _ => none

/-- A cell spells a setting. -/
structure CellSpelled (limits : HeadampLimits) (cell ch value : List Char)
    (s : HeadampSetting) : Prop where
  text : cell = ch ++ ':' :: (s.cell.2.keyName ++ ':' :: value)
  channel : Decimal.Plain ch ∧ Decimal.value ch = s.cell.1
  number : Decimal.Plain value ∧ Decimal.value value = s.value
  inRange : s.cell.1 < limits.maxCh ∧ s.value ≤ s.cell.2.top

theorem read_eq_some {ds : List Char} {n : Nat} :
    Decimal.read ds = some n ↔ Decimal.Plain ds ∧ Decimal.value ds = n := by
  rw [Decimal.read]
  split_ifs with hplain <;> simp [hplain]

theorem colon_not_mem_plain {ds : List Char} (h : Decimal.Plain ds) : ':' ∉ ds :=
  fun hcolon => absurd (h.2 ':' hcolon) (by decide)

theorem colon_not_mem_keyName (p : HeadampParam) : ':' ∉ p.keyName := by
  cases p <;> decide

theorem exactCell_iff {limits : HeadampLimits} {cell : List Char} {s : HeadampSetting} :
    exactCell limits cell = some s ↔ ∃ ch value, CellSpelled limits cell ch value s := by
  constructor
  · intro h
    rw [exactCell] at h
    split at h
    · rename_i ch name value hsplit
      split at h
      · rename_i n p v hch hname hvalue
        split_ifs at h with hin
        cases h
        refine ⟨ch, value, ⟨?_, read_eq_some.mp hch, read_eq_some.mp hvalue, hin⟩⟩
        have hjoin : [':'].intercalate (cell.splitOn ':') = cell := List.intercalate_splitOn ':'
        rw [hsplit, List.intercalate_cons_cons, List.intercalate_cons_cons,
          List.intercalate_singleton, paramNameToId_iff.mp hname] at hjoin
        rw [← hjoin]
        simp
      · cases h
    · cases h
  · rintro ⟨ch, value, ⟨rfl, hch, hvalue, hin⟩⟩
    have hsplit : (ch ++ ':' :: (s.cell.2.keyName ++ ':' :: value)).splitOn ':' =
        [ch, s.cell.2.keyName, value] := by
      rw [List.splitOn_append_cons_self_of_not_mem (colon_not_mem_plain hch.1),
        List.splitOn_append_cons_self_of_not_mem (colon_not_mem_keyName _),
        List.splitOn_eq_singleton (colon_not_mem_plain hvalue.1)]
    rw [exactCell, hsplit]
    simp only [read_eq_some.mpr hch, paramNameToId_iff.mpr rfl, read_eq_some.mpr hvalue, if_pos hin]

/-! ### What the scan takes -/

/-- Stored in an `unsigned`, a number of this sign and worth is `n`. -/
def WrapsTo (sign : Decimal.Sign) (worth n : Nat) : Prop :=
  worth ≤ ulongMax ∧ sign.apply worth % 0x100000000 = n

/-- A cell is led by a setting: `CH:PARAM:VALUE`, where blanks and a sign may stand before a
number, anything behind the value, and a number counts modulo 2^32. -/
structure CellScanned (limits : HeadampLimits) (cell : List Char) (s : HeadampSetting)
    (chSign valSign : Decimal.Sign) (ch value val junk : List Char) : Prop where
  text : Decimal.Led isSpace cell chSign ch (':' :: (s.cell.2.keyName ++ ':' :: value))
  channel : WrapsTo chSign (Decimal.value ch) s.cell.1
  valueText : Decimal.Led isSpace value valSign val junk
  number : WrapsTo valSign (Decimal.value val) s.value
  inRange : s.cell.1 < limits.maxCh ∧ s.value ≤ s.cell.2.top

/-- The cell is one of those the scan takes, for this setting. -/
def CellTaken (limits : HeadampLimits) (cell : List Char) (s : HeadampSetting) : Prop :=
  ∃ chSign valSign ch value val junk, CellScanned limits cell s chSign valSign ch value val junk

theorem scanUnsigned_eq (s : List Char) :
    scanUnsigned s = (Decimal.scan isSpace s).map fun r =>
      (strtoulValue (decide (r.1 = .minus)) (Decimal.value r.2.1) % 0x100000000, r.2.2) := by
  rw [scanUnsigned, Decimal.scan]
  simp only
  rw [← Decimal.splitSign_rest]
  simp only [← Decimal.splitSign_minus]
  split_ifs <;> rfl

/-- What is stored, where it is not what a number past `ULONG_MAX` leaves. -/
theorem strtoulValue_iff {sign : Decimal.Sign} {worth n : Nat} (hsmall : n < 0xffffffff) :
    strtoulValue (decide (sign = .minus)) worth % 0x100000000 = n ↔ WrapsTo sign worth n := by
  rw [WrapsTo, Decimal.Sign.apply_eq, strtoulValue]
  by_cases hover : ulongMax < worth
  · rw [if_pos hover]
    refine iff_of_false ?_ fun h => absurd h.1 (Nat.not_le.mpr hover)
    rw [ulongMax]
    omega
  · have hmost : worth ≤ ulongMax := Nat.not_lt.mp hover
    rw [if_neg hover, and_iff_right hmost]
    rw [ulongMax] at hmost
    by_cases hminus : sign = .minus
    · simp only [hminus, decide_true, if_true, ulongMax]
      omega
    · simp only [hminus, decide_false, if_false, Bool.false_eq_true]
      omega

/-- **What `%u` takes**, where it stores a small number. -/
theorem scanUnsigned_iff {s rest : List Char} {n : Nat} (hsmall : n < 0xffffffff) :
    scanUnsigned s = some (n, rest) ↔
      ∃ sign ds, Decimal.Led isSpace s sign ds rest ∧ WrapsTo sign (Decimal.value ds) n := by
  rw [scanUnsigned_eq, Option.map_eq_some_iff]
  constructor
  · rintro ⟨⟨sign, ds, tail⟩, hscan, hpair⟩
    obtain ⟨hstored, rfl⟩ := Prod.mk.inj hpair
    exact ⟨sign, ds, (Decimal.scan_iff isSpace_blanks).mp hscan,
      (strtoulValue_iff hsmall).mp hstored⟩
  · rintro ⟨sign, ds, hled, hwraps⟩
    exact ⟨(sign, ds, rest), (Decimal.scan_iff isSpace_blanks).mpr hled,
      Prod.ext ((strtoulValue_iff hsmall).mpr hwraps) rfl⟩

theorem scanField_name (p : HeadampParam) (rest : List Char) :
    scanField (p.keyName ++ ':' :: rest) = some (p.keyName, ':' :: rest) := by
  cases p <;> rfl

/-- A field is what stands before what follows it. -/
theorem scanField_text {s field rest : List Char} (h : scanField s = some (field, rest)) :
    s = field ++ rest := by
  rw [scanField] at h
  split_ifs at h
  cases h
  have hfield : (s.takeWhile (· ≠ ':')).take 15 <+: s :=
    (List.take_prefix 15 _).trans (List.takeWhile_prefix _)
  exact List.prefix_iff_eq_append.mp hfield |>.symm

theorem scanHeadamp_eq_some {cell name : List Char} {ch val : Nat} :
    scanHeadamp cell = some (ch, name, val) ↔
      ∃ rest value junk, scanUnsigned cell = some (ch, ':' :: rest) ∧
        scanField rest = some (name, ':' :: value) ∧ scanUnsigned value = some (val, junk) := by
  constructor
  · intro h
    rw [scanHeadamp] at h
    split at h
    · rename_i rest hch
      split at h
      · rename_i value hname
        obtain ⟨⟨n, junk⟩, hval, hpair⟩ := Option.map_eq_some_iff.mp h
        cases hpair
        exact ⟨rest, value, junk, hch, hname, hval⟩
      · cases h
    · cases h
  · rintro ⟨rest, value, junk, hch, hname, hval⟩
    simp only [scanHeadamp, hch, hname, hval, Option.map_some]

/-- **What the code takes for a cell.** -/
theorem parseHeadamp_iff {limits : HeadampLimits} (hbyte : limits.maxCh ≤ 256)
    {cell : List Char} {s : HeadampSetting} :
    parseHeadamp limits cell = some s ↔ CellTaken limits cell s := by
  have htop := s.cell.2.top_le
  constructor
  · intro h
    rw [parseHeadamp] at h
    split at h
    · cases h
    · rename_i ch name val hscan
      split at h
      · cases h
      · rename_i p hname
        split_ifs at h with hroom hrange
        cases h
        have hval := valueInRange_iff.mp hrange
        simp only at htop
        obtain ⟨rest, value, junk, hch, hfield, hlast⟩ := scanHeadamp_eq_some.mp hscan
        rw [scanField_text hfield, paramNameToId_iff.mp hname] at hch
        obtain ⟨chSign, ds, htext, hchannel⟩ := (scanUnsigned_iff (by omega)).mp hch
        obtain ⟨valSign, es, hvalue, hnumber⟩ := (scanUnsigned_iff (by omega)).mp hlast
        have hchbyte : ch % 256 = ch := Nat.mod_eq_of_lt (by omega)
        have hvalbyte : val % 256 = val := Nat.mod_eq_of_lt (by omega)
        rw [hchbyte, hvalbyte]
        exact ⟨chSign, valSign, ds, value, es, junk,
          ⟨htext, hchannel, hvalue, hnumber, Nat.not_le.mp hroom, hval⟩⟩
  · rintro ⟨chSign, valSign, ch, value, val, junk, ⟨htext, hchannel, hvalue, hnumber, hin⟩⟩
    obtain ⟨⟨n, p⟩, v⟩ := s
    simp only at htop htext hchannel hnumber hin
    have hch := (scanUnsigned_iff (by omega)).mpr ⟨chSign, ch, htext, hchannel⟩
    have hval := (scanUnsigned_iff (by omega)).mpr ⟨valSign, val, hvalue, hnumber⟩
    have hscan := scanHeadamp_eq_some.mpr ⟨_, _, _, hch, scanField_name p value, hval⟩
    have hname : paramNameToId p.keyName = some p := paramNameToId_iff.mpr rfl
    rw [parseHeadamp, hscan]
    simp only [hname]
    rw [if_neg (by omega), if_pos (valueInRange_iff.mpr hin.2), Nat.mod_eq_of_lt (by omega),
      Nat.mod_eq_of_lt (by omega)]

theorem wrapsTo_bare {n : Nat} (hsmall : n < 0x100000000) : WrapsTo .bare n n := by
  refine ⟨by rw [ulongMax]; omega, ?_⟩
  change (n : Int) % 0x100000000 = n
  omega

/-- An exact cell is one the scan takes. -/
theorem cellTaken_of_exact {limits : HeadampLimits} (hbyte : limits.maxCh ≤ 256)
    {cell : List Char} {s : HeadampSetting} (h : exactCell limits cell = some s) :
    CellTaken limits cell s := by
  obtain ⟨ch, value, ⟨rfl, hch, hvalue, hin⟩⟩ := exactCell_iff.mp h
  have htop := s.cell.2.top_le
  refine ⟨.bare, .bare, ch, value, value, [], ⟨⟨⟨[], by simp, rfl⟩, hch.1, ?_⟩, ?_,
    ⟨⟨[], by simp, by simp [Decimal.Sign.text]⟩, hvalue.1, by simp⟩, ?_, hin⟩⟩
  · intro c hc
    cases hc
    decide
  · rw [hch.2]
    exact wrapsTo_bare (by omega)
  · rw [hvalue.2]
    exact wrapsTo_bare (by omega)

/-- **An exact cell is read as what it says.** -/
theorem parseHeadamp_exact {limits : HeadampLimits} (hbyte : limits.maxCh ≤ 256)
    {cell : List Char} {s : HeadampSetting} (h : exactCell limits cell = some s) :
    parseHeadamp limits cell = some s :=
  (parseHeadamp_iff hbyte).mpr (cellTaken_of_exact hbyte h)

/-! ### The list -/

/-- How the loop reads a cell. -/
def cellRead (limits : HeadampLimits) (cell : List Char) : Option HeadampSetting :=
  if headampCellSize ≤ cell.length then none else parseHeadamp limits cell

/-- The end of the loop. -/
theorem parseHeadampCells_done {limits : HeadampLimits} {max : Nat} {s : List Char}
    (hskip : s.dropWhile isCellSep = []) (out : List HeadampSetting) :
    parseHeadampCells limits max s out = some out := by
  rw [parseHeadampCells]
  split
  · rfl
  · rename_i hcell
    rw [hskip] at hcell
    cases hcell

/-- One turn of the loop. -/
theorem parseHeadampCells_cell {limits : HeadampLimits} {max : Nat} {s rest : List Char} {c : Char}
    (hskip : s.dropWhile isCellSep = c :: rest) (out : List HeadampSetting) :
    parseHeadampCells limits max s out =
      if max ≤ out.length then none
      else
        match cellRead limits ((c :: rest).takeWhile fun x => !isCellSep x) with
        | none => none
        | some setting =>
            parseHeadampCells limits max ((c :: rest).dropWhile fun x => !isCellSep x)
              (out ++ [setting]) := by
  rw [parseHeadampCells]
  split
  · rename_i hnone
    rw [hskip] at hnone
    cases hnone
  · rename_i d rest' hcell
    rw [hskip] at hcell
    cases hcell
    rw [cellRead]
    by_cases hfull : max ≤ out.length
    · rw [if_pos (Or.inr hfull), if_pos hfull]
    · rw [if_neg hfull]
      by_cases hlong : headampCellSize ≤ ((c :: rest).takeWhile fun x => !isCellSep x).length
      · rw [if_pos (Or.inl hlong), if_pos hlong]
      · cases hread : parseHeadamp limits ((c :: rest).takeWhile fun x => !isCellSep x) <;>
          simp only [hread, hlong, hfull, or_self, if_false]

/-- **The loop reads the cells one by one**, as far as there is room for them. -/
theorem parseHeadampCells_eq (limits : HeadampLimits) (max : Nat) (s : List Char)
    (out : List HeadampSetting) (hout : out.length ≤ max) :
    parseHeadampCells limits max s out =
      if out.length + (Tokens.cut isCellSep s).length ≤ max then
        ((Tokens.cut isCellSep s).mapM (cellRead limits)).map (out ++ ·)
      else none := by
  induction hlen : (Tokens.cut isCellSep s).length generalizing s out with
  | zero =>
      have hnone : s.dropWhile isCellSep = [] := by
        cases hskip : s.dropWhile isCellSep with
        | nil => rfl
        | cons c rest =>
            rw [Tokens.cut_step hskip] at hlen
            cases hlen
      rw [parseHeadampCells_done hnone, Nat.add_zero, if_pos hout, Tokens.cut_done hnone]
      simp
  | succ k ih =>
      cases hskip : s.dropWhile isCellSep with
      | nil =>
          rw [Tokens.cut_done hskip] at hlen
          cases hlen
      | cons c rest =>
          rw [parseHeadampCells_cell hskip]
          rw [Tokens.cut_step hskip] at hlen ⊢
          have hrest := Nat.succ.inj hlen
          by_cases hfull : max ≤ out.length
          · rw [if_pos hfull, if_neg (by omega)]
          · rw [if_neg hfull]
            cases hread : cellRead limits ((c :: rest).takeWhile fun x => !isCellSep x) with
            | none => simp [Tokens.mapM_cons_none hread]
            | some setting =>
                have hmore : (out ++ [setting]).length ≤ max := by
                  rw [List.length_append, List.length_singleton]
                  omega
                simp only
                rw [ih _ _ hmore hrest, Tokens.mapM_cons_some hread, List.length_append,
                  List.length_singleton, Nat.add_assoc, Nat.add_comm 1 k, Option.map_map]
                congr 1
                simp [Function.comp_def]

/-- The list as it is meant: exact cells, no more than there is room for, or none at all. -/
def exactList (limits : HeadampLimits) (max : Nat) (s : List Char) :
    Option (List HeadampSetting) :=
  let cells := Tokens.cut isCellSep s
  if cells.length ≤ max then cells.mapM (exactCell limits) else none

/-- **When a list is taken exactly.**  Its cells are exact and fit the buffer; or it is refused
as it should be: there are too many of them, or one is not exact and one does not fit the
buffer or is led by no setting. -/
theorem headamp_list_exact_iff {limits : HeadampLimits} (hbyte : limits.maxCh ≤ 256) (max : Nat)
    (s : List Char) :
    parseHeadampList limits max s = exactList limits max s ↔
      max < (Tokens.cut isCellSep s).length ∨
        (∀ cell ∈ Tokens.cut isCellSep s,
          cell.length < headampCellSize ∧ (exactCell limits cell).isSome = true) ∨
        ((∃ cell ∈ Tokens.cut isCellSep s, headampCellSize ≤ cell.length ∨
            ∀ setting, ¬ CellTaken limits cell setting) ∧
          ∃ cell ∈ Tokens.cut isCellSep s, exactCell limits cell = none) := by
  have hunread : ∀ cell, cellRead limits cell = none ↔
      headampCellSize ≤ cell.length ∨ ∀ setting, ¬ CellTaken limits cell setting := by
    intro cell
    simp only [← parseHeadamp_iff hbyte]
    rw [← Option.eq_none_iff_forall_ne_some, cellRead]
    by_cases hlong : headampCellSize ≤ cell.length
    · simp [hlong]
    · simp [hlong]
  have hboth : ∀ cell, (∃ setting, cellRead limits cell = some setting ∧
      exactCell limits cell = some setting) ↔
      cell.length < headampCellSize ∧ (exactCell limits cell).isSome = true := by
    intro cell
    rw [cellRead]
    constructor
    · rintro ⟨setting, hread, hexact⟩
      split_ifs at hread with hlong
      exact ⟨Nat.not_le.mp hlong, by rw [hexact]; rfl⟩
    · rintro ⟨hshort, hsome⟩
      obtain ⟨setting, hexact⟩ := Option.isSome_iff_exists.mp hsome
      exact ⟨setting, by rw [if_neg (Nat.not_le.mpr hshort), parseHeadamp_exact hbyte hexact],
        hexact⟩
  rw [parseHeadampList, parseHeadampCells_eq limits max s [] (Nat.zero_le _), exactList]
  simp only [List.length_nil, Nat.zero_add]
  by_cases hroom : (Tokens.cut isCellSep s).length ≤ max
  · have hid : ((Tokens.cut isCellSep s).mapM (cellRead limits)).map ([] ++ ·) =
        (Tokens.cut isCellSep s).mapM (cellRead limits) := by simp
    rw [if_pos hroom, if_pos hroom, hid, Tokens.mapM_eq_mapM_iff,
      or_iff_right (Nat.not_lt.mpr hroom)]
    simp only [hunread, hboth]
  · rw [if_neg hroom, if_neg hroom]
    exact iff_of_true rfl (Or.inl (Nat.not_le.mp hroom))

theorem headamp_list_exact_one :
    parseHeadampList ⟨48, 64⟩ 4 "3:sens:5".toList = exactList ⟨48, 64⟩ 4 "3:sens:5".toList := by
  have hbyte : (⟨48, 64⟩ : HeadampLimits).maxCh ≤ 256 := by decide
  refine (headamp_list_exact_iff hbyte 4 _).mpr (Or.inr (Or.inl ?_))
  decide

/-- What stands behind the value is not looked at, a number wraps round, and a cell that is
padded with zeros past the buffer is refused. -/
theorem headamp_list_slips :
    let limits : HeadampLimits := ⟨48, 64⟩
    let junk := "3:phantom:1x".toList
    let wrapped := "3:phantom:-4294967295".toList
    let padded := "3:phantom:00000000000000000000001".toList
    parseHeadampList limits 4 junk = some [⟨(3, .phantom), 1⟩] ∧ exactList limits 4 junk = none ∧
      parseHeadampList limits 4 wrapped = some [⟨(3, .phantom), 1⟩] ∧
      exactList limits 4 wrapped = none ∧ parseHeadampList limits 4 padded = none ∧
      exactList limits 4 padded = some [⟨(3, .phantom), 1⟩] := by
  have hlist : ∀ s, parseHeadampList ⟨48, 64⟩ 4 s =
      if (Tokens.cut isCellSep s).length ≤ 4 then
        ((Tokens.cut isCellSep s).mapM (cellRead ⟨48, 64⟩)).map ([] ++ ·)
      else none := by
    intro s
    rw [parseHeadampList, parseHeadampCells_eq _ _ _ _ (Nat.zero_le 4), List.length_nil,
      Nat.zero_add]
  simp only [hlist]
  decide

end ReacPw
