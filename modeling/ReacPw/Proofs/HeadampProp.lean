/-
What the head-amp parse makes of a Props object.

The grammar of a cell's key is digits, a dot and a parameter's name (`cellKey_iff`).  The code
reads the digits with `strtol`, so a key with blanks or a sign before them (`LooseKey`) is an
address to it too: `signedKey_iff` is the grammar of the keys it reads, and `pairTaken_eq` says
that the code reads a pair by that grammar.  The walk stops when a cell stands and there is no
room for it (`pairsWalk_walked`), and what comes behind is neither counted nor refused.
-/
import Mathlib.Data.List.TakeWhile
import ReacPw.HeadampDoor
import ReacPw.Lib.Decimal
import ReacPw.Lib.Reading

namespace ReacPw

/-! ### The grammar -/

/-- `<digits>.<parameter>`. -/
def cellKey (rest : List Char) : Option HeadampCell :=
  let ds := rest.takeWhile Char.isDigit
  match rest.dropWhile Char.isDigit with
  | '.' :: name =>
      if ds = [] then none
      else (paramNameToId name).map fun p => (Decimal.value ds, p)
  | _ => none

def HeadampParam.keyName : HeadampParam → List Char
  | .phantom => "phantom".toList
  | .pad => "pad".toList
  | .sens => "sens".toList

theorem paramNameToId_iff {name : List Char} {p : HeadampParam} :
    paramNameToId name = some p ↔ name = p.keyName := by
  constructor
  · intro h
    unfold paramNameToId at h
    split_ifs at h with hphantom hpad hsens <;> cases h
    · exact hphantom
    · exact hpad
    · exact hsens
  · rintro rfl
    cases p <;> decide

/-- The key's shape, as the grammar says it. -/
theorem cellKey_iff {rest : List Char} {ch : Nat} {p : HeadampParam} :
    cellKey rest = some (ch, p) ↔
      ∃ ds, Decimal.Plain ds ∧ Decimal.value ds = ch ∧ rest = ds ++ '.' :: p.keyName := by
  constructor
  · intro h
    rw [cellKey] at h
    split at h
    · rename_i name hdrop
      split_ifs at h with hnil
      obtain ⟨q, hq, hpair⟩ := Option.map_eq_some_iff.mp h
      cases hpair
      refine ⟨rest.takeWhile Char.isDigit, ⟨hnil, fun c hc => List.mem_takeWhile_imp hc⟩, rfl, ?_⟩
      rw [← paramNameToId_iff.mp hq, ← hdrop, List.takeWhile_append_dropWhile]
    · cases h
  · rintro ⟨ds, hplain, rfl, rfl⟩
    have htake : (ds ++ '.' :: p.keyName).takeWhile Char.isDigit = ds := by
      rw [List.takeWhile_append_of_pos hplain.2, List.takeWhile_cons_of_neg (by decide),
        List.append_nil]
    have hdrop : (ds ++ '.' :: p.keyName).dropWhile Char.isDigit = '.' :: p.keyName := by
      rw [List.dropWhile_append_of_pos hplain.2, List.dropWhile_cons_of_neg (by decide)]
    rw [cellKey, htake, hdrop]
    simp only [if_neg hplain.1, paramNameToId_iff.mpr rfl, Option.map_some]

/-- The number a value carries. -/
def ParamPod.number : ParamPod → Option Int
  | .bool b => some b.toNat
  | .int i => some i
  | .float near => near
  | _ => none

/-- The largest value of a parameter. -/
def HeadampParam.top : HeadampParam → Nat
  | .sens => headampSensMax
  | _ => 1

theorem HeadampParam.top_le (p : HeadampParam) : p.top ≤ 255 := by
  cases p <;> decide

theorem valueInRange_iff {p : HeadampParam} {v : Nat} :
    valueInRange p v = true ↔ v ≤ p.top := by
  cases p <;> simp [valueInRange, HeadampParam.top]

/-- A key of the prefix, without it, and its value. -/
abbrev HeadampPair := List Char × ParamPod

/-- A cell's address with a value: it stands where the channel and the value are in range. -/
def settingRule (limits : HeadampLimits) (ch : Int) (p : HeadampParam) (value : ParamPod) :
    Except HeadampRefuse HeadampSetting :=
  match value.number with
  | none => .error .outOfRange
  | some v =>
      if 0 ≤ ch ∧ ch < limits.maxCh ∧ 0 ≤ v ∧ v ≤ p.top then .ok ⟨(ch.toNat, p), v.toNat⟩
      else .error .outOfRange

/-- An address that does not stand with its value is out of range, or its value is. -/
theorem settingRule_error {limits : HeadampLimits} {ch : Int} {p : HeadampParam}
    {value : ParamPod} {refusal : HeadampRefuse}
    (h : settingRule limits ch p value = .error refusal) : refusal = .outOfRange := by
  rw [settingRule] at h
  split at h
  · cases h
    rfl
  · split_ifs at h
    cases h
    rfl

/-- What the header promises of a pair: it stands, or it has no cell's key, or it addresses a
cell but the channel or the value is out of range. -/
def pairRule (limits : HeadampLimits) (pair : HeadampPair) :
    Except HeadampRefuse HeadampSetting :=
  match cellKey pair.1 with
  | none => .error .badKey
  | some (ch, p) => settingRule limits ch p pair.2

/-! ### Keys with blanks and a sign -/

/-- The key of a cell, with blanks or a sign before its digits. -/
def LooseKey (pair : HeadampPair) : Prop :=
  (pair.1.head?.any Char.isDigit) = false ∧
    ∃ sign ds p, Decimal.Led isSpace pair.1 sign ds ('.' :: HeadampParam.keyName p)

/-- `<blanks><sign><digits>.<parameter>`. -/
def signedKey (rest : List Char) : Option (Int × HeadampParam) :=
  match Decimal.scan isSpace rest with
  | some (sign, ds, '.' :: name) =>
      (paramNameToId name).map fun p => (sign.apply (Decimal.value ds), p)
  | _ => none

/-- A pair, where a key with blanks and a sign before its digits is a cell's too. -/
def pairTaken (limits : HeadampLimits) (pair : HeadampPair) :
    Except HeadampRefuse HeadampSetting :=
  match signedKey pair.1 with
  | none => .error .badKey
  | some (ch, p) => settingRule limits ch p pair.2

/-- No blank is a digit or a sign. -/
theorem isSpace_blanks : Decimal.Blanks isSpace := by
  intro c hc
  rw [isSpace, decide_eq_true_iff] at hc
  simp only [List.mem_cons, List.not_mem_nil, or_false] at hc
  rcases hc with rfl | rfl | rfl | rfl | rfl | rfl <;> decide

/-- The key's shape, with blanks and a sign. -/
theorem signedKey_iff {rest : List Char} {ch : Int} {p : HeadampParam} :
    signedKey rest = some (ch, p) ↔
      ∃ sign ds, Decimal.Led isSpace rest sign ds ('.' :: p.keyName) ∧
        sign.apply (Decimal.value ds) = ch := by
  constructor
  · intro h
    rw [signedKey] at h
    split at h
    · rename_i sign ds name hscan
      obtain ⟨q, hname, hpair⟩ := Option.map_eq_some_iff.mp h
      cases hpair
      rw [paramNameToId_iff.mp hname] at hscan
      exact ⟨sign, ds, (Decimal.scan_iff isSpace_blanks).mp hscan, rfl⟩
    · cases h
  · rintro ⟨sign, ds, hled, rfl⟩
    simp only [signedKey, (Decimal.scan_iff isSpace_blanks).mpr hled, paramNameToId_iff.mpr rfl,
      Option.map_some]

theorem looseKey_iff {pair : HeadampPair} :
    LooseKey pair ↔
      (pair.1.head?.any Char.isDigit) = false ∧ (signedKey pair.1).isSome = true := by
  refine and_congr_right fun _ => ?_
  constructor
  · rintro ⟨sign, ds, p, hled⟩
    rw [signedKey_iff.mpr ⟨sign, ds, hled, rfl⟩]
    rfl
  · intro hsome
    obtain ⟨⟨ch, p⟩, hkey⟩ := Option.isSome_iff_exists.mp hsome
    obtain ⟨sign, ds, hled, -⟩ := signedKey_iff.mp hkey
    exact ⟨sign, ds, p, hled⟩

instance : DecidablePred LooseKey := fun _ => decidable_of_iff _ looseKey_iff.symm

/-- A key that is led by a digit has neither blanks nor a sign. -/
theorem signedKey_digits {rest : List Char} (hdigit : (rest.head?.any Char.isDigit) = true) :
    signedKey rest = (cellKey rest).map fun cell => ((cell.1 : Int), cell.2) := by
  cases rest with
  | nil => cases hdigit
  | cons c rest =>
      have hc : c.isDigit = true := hdigit
      have hskip : (c :: rest).dropWhile isSpace = c :: rest := by
        refine List.dropWhile_cons_of_neg fun hspace => ?_
        rw [(isSpace_blanks c hspace).1] at hc
        cases hc
      have hne : (c :: rest).takeWhile Char.isDigit ≠ [] := by
        simp [List.takeWhile_cons_of_pos hc]
      rw [signedKey, Decimal.scan, hskip, Decimal.splitSign_digit hc, cellKey]
      simp only [if_neg hne]
      cases hdrop : (c :: rest).dropWhile Char.isDigit with
      | nil => rfl
      | cons d name =>
          by_cases hd : d = '.'
          · subst hd
            cases hname : paramNameToId name <;> simp [hname, Decimal.Sign.apply]
          · simp [hd]

/-- No cell's key is led by anything else. -/
theorem cellKey_none {rest : List Char} (hdigit : (rest.head?.any Char.isDigit) = false) :
    cellKey rest = none := by
  cases hkey : cellKey rest with
  | none => rfl
  | some cell =>
      obtain ⟨ds, ⟨hne, hall⟩, -, rfl⟩ := cellKey_iff.mp hkey
      obtain ⟨c, ds, rfl⟩ := List.exists_cons_of_ne_nil hne
      have hc : c.isDigit = false := hdigit
      rw [hall c List.mem_cons_self] at hc
      cases hc

/-- **The two grammars part at loose keys alone.** -/
theorem pairRule_eq (limits : HeadampLimits) :
    pairRule limits = Reading.strict (pairTaken limits) LooseKey .badKey := by
  funext pair
  obtain ⟨rest, value⟩ := pair
  cases hdigit : rest.head?.any Char.isDigit with
  | false =>
      rw [pairRule, cellKey_none hdigit]
      by_cases hloose : LooseKey (rest, value)
      · rw [Reading.strict_loose hloose]
      · rw [Reading.strict_other hloose, pairTaken]
        cases hkey : signedKey rest with
        | none => rfl
        | some key => exact absurd (looseKey_iff.mpr ⟨hdigit, by rw [hkey]; rfl⟩) hloose
  | true =>
      have hother : ¬ LooseKey (rest, value) := by
        rintro ⟨hloose, -⟩
        rw [hdigit] at hloose
        cases hloose
      rw [Reading.strict_other hother, pairRule, pairTaken, signedKey_digits hdigit]
      cases cellKey rest <;> rfl

/-! ### The code's reading of a pair -/

/-- How the code reads a pair. -/
def pairRead (limits : HeadampLimits) (pair : HeadampPair) : Except HeadampRefuse HeadampSetting :=
  parseCell limits pair.1 pair.2

/-- `strtol` takes a sign and digits behind blanks, and leaves the rest. -/
theorem strtol_eq (s : List Char) :
    strtol s =
      (Decimal.scan isSpace s).map fun r => (r.1.apply (Decimal.value r.2.1), r.2.2) := by
  rw [strtol, Decimal.scan]
  simp only
  rw [← Decimal.splitSign_rest]
  simp only [← Decimal.splitSign_minus]
  split_ifs with hnil hminus
  · rfl
  · simp [Decimal.Sign.apply_eq, hminus]
  · simp [Decimal.Sign.apply_eq, hminus]

theorem byteOfInt_iff {i : Int} {v top : Nat} (htop : top ≤ 255) :
    (if 0 ≤ i ∧ i ≤ 255 then some i.toNat else none) = some v ∧ v ≤ top ↔
      some i = some (v : Int) ∧ v ≤ top := by
  simp only [Option.some.injEq]
  split_ifs with hbyte
  · simp only [Option.some.injEq]
    omega
  · simp only [false_and, false_iff]
    omega

/-- The byte a value is read as, where its parameter takes it, is the number it carries. -/
theorem valuePodToByte_number {value : ParamPod} {p : HeadampParam} {v : Nat} :
    valuePodToByte value = some v ∧ valueInRange p v = true ↔
      value.number = some (v : Int) ∧ v ≤ p.top := by
  have htop := p.top_le
  rw [valueInRange_iff]
  cases value with
  | bool b =>
      simp only [valuePodToByte, ParamPod.number, Option.some.injEq]
      omega
  | int i => exact byteOfInt_iff htop
  | float near =>
      cases near with
      | none => simp [valuePodToByte, ParamPod.number]
      | some i => exact byteOfInt_iff htop
  | str s => simp [valuePodToByte, ParamPod.number]
  | other => simp [valuePodToByte, ParamPod.number]

/-- **The code reads a key by the grammar with blanks and a sign.** -/
theorem headampParseKey_eq (limits : HeadampLimits) (rest : List Char) :
    headampParseKey limits rest =
      match signedKey rest with
      | none => .error .badKey
      | some (ch, p) =>
          if 0 ≤ ch ∧ ch < limits.maxCh then .ok (ch.toNat, p) else .error .outOfRange := by
  rw [headampParseKey, strtol_eq, signedKey]
  cases hscan : Decimal.scan isSpace rest with
  | none => rfl
  | some r =>
      obtain ⟨sign, ds, tail⟩ := r
      cases tail with
      | nil => rfl
      | cons d name =>
          by_cases hd : d = '.'
          · subst hd
            simp only [Option.map_some]
            cases hname : paramNameToId name with
            | none => rfl
            | some p =>
                simp only [Option.map_some]
                split_ifs <;> first | rfl | omega
          · simp [hd]

/-- What the code makes of a value is what the rule makes of it. -/
theorem settingRule_eq {limits : HeadampLimits} {ch : Int} (hch : 0 ≤ ch ∧ ch < limits.maxCh)
    (p : HeadampParam) (value : ParamPod) :
    settingRule limits ch p value =
      match valuePodToByte value with
      | none => .error .outOfRange
      | some v => if valueInRange p v then .ok ⟨(ch.toNat, p), v⟩ else .error .outOfRange := by
  by_cases hstands : ∃ v : Nat, valuePodToByte value = some v ∧ valueInRange p v = true
  · obtain ⟨v, hv⟩ := hstands
    obtain ⟨hnumber, htop⟩ := valuePodToByte_number.mp hv
    simp only [settingRule, hv.1, hv.2, hnumber, if_true, Int.toNat_natCast]
    rw [if_pos ⟨hch.1, hch.2, Int.natCast_nonneg v, Int.ofNat_le.mpr htop⟩]
  · have hcode : ∀ v, valuePodToByte value = some v → valueInRange p v = false := by
      intro v hv
      by_contra hin
      exact hstands ⟨v, hv, by simpa using hin⟩
    have hrule : ∀ v, value.number = some v → ¬ (0 ≤ v ∧ v ≤ (p.top : Int)) := by
      rintro v hv ⟨hlo, hhi⟩
      refine hstands ⟨v.toNat, valuePodToByte_number.mpr ⟨?_, ?_⟩⟩
      · rw [hv, Int.toNat_of_nonneg hlo]
      · omega
    have hrefused : settingRule limits ch p value = .error .outOfRange := by
      rw [settingRule]
      cases hnumber : value.number with
      | none => rfl
      | some v => exact if_neg fun hin => hrule v hnumber hin.2.2
    rw [hrefused]
    cases hbyte : valuePodToByte value with
    | none => rfl
    | some b => simp [hcode b hbyte]

/-- **The code reads a pair by the grammar with blanks and a sign.** -/
theorem pairTaken_eq (limits : HeadampLimits) : pairTaken limits = pairRead limits := by
  funext pair
  obtain ⟨rest, value⟩ := pair
  rw [pairTaken, pairRead, parseCell, headampParseKey_eq]
  cases signedKey rest with
  | none => rfl
  | some key =>
      obtain ⟨ch, p⟩ := key
      by_cases hch : 0 ≤ ch ∧ ch < limits.maxCh
      · simp only [if_pos hch]
        exact settingRule_eq hch p value
      · simp only [if_neg hch, settingRule]
        cases value.number with
        | none => rfl
        | some v => exact if_neg fun hin => hch ⟨hin.1, hin.2.1⟩

/-! ### The walk -/

/-- The pairing of a flat list of pods: what is no string in a key's place is skipped, and a
string takes the next pod for its value. -/
def propPairs : Option String → List ParamPod → List (String × ParamPod)
  | _, [] => []
  | none, .str s :: rest => propPairs (some s) rest
  | none, _ :: rest => propPairs none rest
  | some k, value :: rest => (k, value) :: propPairs none rest

/-- The pairs whose key has the prefix. -/
def headampPairs (pairs : List (String × ParamPod)) : List HeadampPair :=
  pairs.filterMap fun pair =>
    if headampPrefix.isPrefixOf pair.1.toList then
      some (pair.1.toList.drop headampPrefix.length, pair.2)
    else none

/-- The walk of the code, over its pairs. -/
def pairsWalk (limits : HeadampLimits) (max : Nat) : List HeadampPair → HeadampParse → HeadampParse
  | [], r => r
  | pair :: rest, r =>
      let r := { r with keys := r.keys + 1 }
      match pairRead limits pair with
      | .error refusal =>
          pairsWalk limits max rest
            { r with refusal := if r.refusal = .accepted then refusal else r.refusal }
      | .ok s =>
          if r.cells.length < max then
            pairsWalk limits max rest { r with cells := r.cells ++ [s] }
          else r

theorem headampPairs_under {k : String} (hunder : headampPrefix.isPrefixOf k.toList = true)
    (value : ParamPod) (pairs : List (String × ParamPod)) :
    headampPairs ((k, value) :: pairs) =
      (k.toList.drop headampPrefix.length, value) :: headampPairs pairs :=
  List.filterMap_cons_some (if_pos hunder)

theorem headampPairs_other {k : String} (hother : ¬ headampPrefix.isPrefixOf k.toList = true)
    (value : ParamPod) (pairs : List (String × ParamPod)) :
    headampPairs ((k, value) :: pairs) = headampPairs pairs :=
  List.filterMap_cons_none (if_neg hother)

/-- The walk over the pods is the walk over the pairs of the prefix. -/
theorem headampWalk_pairs (limits : HeadampLimits) (max : Nat) (key : Option String)
    (pods : List ParamPod) (r : HeadampParse) :
    headampWalk limits max key pods r =
      pairsWalk limits max (headampPairs (propPairs key pods)) r := by
  induction key, pods, r using headampWalk.induct limits max with
  | case1 key r => cases key <;> rfl
  | case2 s rest r ih => exact ih
  | case3 pod rest r hstr ih =>
      cases pod with
      | str s => exact absurd rfl (hstr s)
      | _ => exact ih
  | case4 r k value rest hunder _ refusal hcell ih =>
      rw [headampWalk, if_pos hunder, propPairs, headampPairs_under hunder, pairsWalk, pairRead]
      simp only [hcell]
      exact ih
  | case5 r k value rest hunder _ s hcell hroom ih =>
      rw [headampWalk, if_pos hunder, propPairs, headampPairs_under hunder, pairsWalk, pairRead]
      simp only [hcell]
      rw [if_pos hroom, if_pos hroom]
      exact ih
  | case6 r k value rest hunder _ s hcell hroom =>
      rw [headampWalk, if_pos hunder, propPairs, headampPairs_under hunder, pairsWalk, pairRead]
      simp only [hcell]
      rw [if_neg hroom, if_neg hroom]
  | case7 r k value rest hother ih =>
      rw [headampWalk, if_neg hother, propPairs, headampPairs_other hother, ih]

/-- A refusal is one of a write's. -/
theorem pairRead_error {limits : HeadampLimits} {pair : HeadampPair} {refusal : HeadampRefuse}
    (h : pairRead limits pair = .error refusal) : refusal = .badKey ∨ refusal = .outOfRange := by
  rw [← pairTaken_eq, pairTaken] at h
  split at h
  · cases h
    exact Or.inl rfl
  · exact Or.inr (settingRule_error h)

/-- What a walk adds to a parse: the cells there is room for, and, where it hears every pair,
their number and the first refusal. -/
structure Walked (limits : HeadampLimits) (room : Nat) (pairs : List HeadampPair)
    (r r' : HeadampParse) : Prop where
  cells : r'.cells = r.cells ++ (Reading.taken (pairRead limits) pairs).take room
  heard : Reading.Heard (pairRead limits) room pairs →
    r'.keys = r.keys + pairs.length ∧
      r'.refusal = if r.refusal = .accepted then
        Reading.firstRefused (pairRead limits) .accepted pairs else r.refusal
  unheard : ¬ Reading.Heard (pairRead limits) room pairs → r'.keys < r.keys + pairs.length

/-- A pair that is refused. -/
theorem Walked.refused {limits : HeadampLimits} {room : Nat} {pair : HeadampPair}
    {pairs : List HeadampPair} {refusal : HeadampRefuse} {r r' : HeadampParse}
    (hread : pairRead limits pair = .error refusal)
    (h : Walked limits room pairs
      { r with
        keys := r.keys + 1
        refusal := if r.refusal = .accepted then refusal else r.refusal } r') :
    Walked limits room (pair :: pairs) r r' := by
  refine ⟨?_, fun hall => ?_, fun hpart => ?_⟩
  · rw [h.cells, Reading.taken_cons_error hread]
  · obtain ⟨hkeys, hrefusal⟩ := h.heard ((Reading.heard_cons_error hread).mp hall)
    refine ⟨by rw [hkeys, List.length_cons, Nat.add_comm pairs.length, ← Nat.add_assoc], ?_⟩
    rw [hrefusal, Reading.firstRefused_cons_error hread]
    have hne : refusal ≠ .accepted := by
      rcases pairRead_error hread with rfl | rfl <;> decide
    by_cases hclean : r.refusal = .accepted
    · simp only [hclean, if_true, if_neg hne]
    · simp only [if_neg hclean]
  · have hless := h.unheard fun hrest => hpart ((Reading.heard_cons_error hread).mpr hrest)
    rw [List.length_cons]
    simp only at hless
    omega

/-- A cell that finds the room used up: the walk stops behind it. -/
theorem Walked.stopped {limits : HeadampLimits} {pair : HeadampPair} {pairs : List HeadampPair}
    {s : HeadampSetting} {r : HeadampParse} (hread : pairRead limits pair = .ok s) :
    Walked limits 0 (pair :: pairs) r { r with keys := r.keys + 1 } := by
  refine ⟨by simp, fun hall => ?_, fun hpart => ?_⟩
  · have hlast := (Reading.heard_cons_full hread).mp hall
    subst hlast
    refine ⟨rfl, ?_⟩
    rw [Reading.firstRefused_cons_ok hread, Reading.firstRefused]
    split_ifs with hclean
    · exact hclean
    · rfl
  · have hmore : pairs ≠ [] := fun hnil => hpart ((Reading.heard_cons_full hread).mpr hnil)
    have hpos := List.length_pos_iff.mpr hmore
    rw [List.length_cons]
    simp only
    omega

/-- A cell there is room for. -/
theorem Walked.stood {limits : HeadampLimits} {room : Nat} {pair : HeadampPair}
    {pairs : List HeadampPair} {s : HeadampSetting} {r r' : HeadampParse}
    (hread : pairRead limits pair = .ok s)
    (h : Walked limits room pairs { r with keys := r.keys + 1, cells := r.cells ++ [s] } r') :
    Walked limits (room + 1) (pair :: pairs) r r' := by
  refine ⟨?_, fun hall => ?_, fun hpart => ?_⟩
  · rw [h.cells, Reading.taken_cons_ok hread, List.take_succ_cons, List.append_assoc]
    rfl
  · obtain ⟨hkeys, hrefusal⟩ := h.heard ((Reading.heard_cons_ok hread).mp hall)
    refine ⟨?_, by rw [hrefusal, Reading.firstRefused_cons_ok hread]⟩
    rw [hkeys, List.length_cons, Nat.add_comm pairs.length, ← Nat.add_assoc]
  · have hless := h.unheard fun hrest => hpart ((Reading.heard_cons_ok hread).mpr hrest)
    rw [List.length_cons]
    simp only at hless
    omega

theorem pairsWalk_walked {limits : HeadampLimits} {max room : Nat} (pairs : List HeadampPair)
    {r : HeadampParse} (hroom : r.cells.length + room = max) :
    Walked limits room pairs r (pairsWalk limits max pairs r) := by
  induction pairs generalizing r room with
  | nil =>
      refine ⟨by simp [pairsWalk, Reading.taken], fun _ => ⟨rfl, ?_⟩, fun h => ?_⟩
      · rw [Reading.firstRefused, pairsWalk]
        split_ifs with hclean
        · exact hclean
        · rfl
      · exact absurd (Reading.heard_nil room) h
  | cons pair pairs ih =>
      rw [pairsWalk]
      cases hread : pairRead limits pair with
      | error refusal => exact .refused hread (ih hroom)
      | ok s =>
          simp only
          cases room with
          | zero =>
              rw [if_neg (by omega)]
              exact .stopped hread
          | succ room =>
              rw [if_pos (by omega)]
              refine .stood hread (ih ?_)
              rw [List.length_append, List.length_singleton]
              omega

/-! ### The parse -/

/-- The parse reports the pairs as the rule reads them: the cells that stand, as far as there
is room, the number of the pairs, and why the first that does not stand was refused; there is
no refusal just where every pair stands. -/
structure ParseExact (limits : HeadampLimits) (max : Nat) (pairs : List HeadampPair)
    (r : HeadampParse) : Prop where
  cells : r.cells = (Reading.taken (pairRule limits) pairs).take max
  keys : r.keys = pairs.length
  refusal : r.refusal = Reading.firstRefused (pairRule limits) .accepted pairs
  clean : r.refusal = .accepted ↔ ∀ pair ∈ pairs, ∃ s, pairRule limits pair = .ok s

theorem pairRule_error_ne {limits : HeadampLimits} {pair : HeadampPair} {refusal : HeadampRefuse}
    (h : pairRule limits pair = .error refusal) : refusal ≠ .accepted := by
  rw [pairRule] at h
  split at h
  · cases h
    decide
  · rw [settingRule_error h]
    decide

/-- **When the parse says what it saw.**  With the pairs read by the grammar that lets blanks
and a sign stand before a channel: nothing of the prefix comes behind the pair that finds the
room used up; a loose key stands only to no effect; and one that comes before every refusal
stands, and what is refused behind it is a bad key. -/
theorem headamp_parse_exact_iff (limits : HeadampLimits) (max : Nat) (pods : List ParamPod) :
    let pairs := headampPairs (propPairs none pods)
    ParseExact limits max pairs (reacHeadampPropParseResult limits max (.params pods)) ↔
      Reading.Heard (pairTaken limits) max pairs ∧
        Reading.LooseSpare (pairTaken limits) LooseKey max pairs ∧
        Reading.LooseUnsaid (pairTaken limits) LooseKey .badKey .accepted pairs := by
  intro pairs
  have hwalk : reacHeadampPropParseResult limits max (.params pods) =
      pairsWalk limits max pairs {} := headampWalk_pairs limits max none pods {}
  obtain ⟨hcells, hheard, hunheard⟩ :
      Walked limits max pairs {} (pairsWalk limits max pairs {}) :=
    pairsWalk_walked pairs (Nat.zero_add max)
  rw [hwalk, pairTaken_eq]
  have hrule : pairRule limits = Reading.strict (pairRead limits) LooseKey .badKey := by
    rw [pairRule_eq, pairTaken_eq]
  by_cases hall : Reading.Heard (pairRead limits) max pairs
  · obtain ⟨hkeys, hrefusal⟩ := hheard hall
    rw [if_pos rfl] at hrefusal
    rw [← Reading.take_taken_strict_iff .badKey hall, ← Reading.firstRefused_strict_iff, ← hrule]
    constructor
    · rintro ⟨hexact, -, hfirst, -⟩
      exact ⟨hall, by rw [← hexact, hcells]; rfl, by rw [← hfirst, hrefusal]⟩
    · rintro ⟨-, hsame, hfirst⟩
      have hreported := hrefusal.trans hfirst
      refine ⟨?_, ?_, hreported, ?_⟩
      · rw [hcells, hsame]
        rfl
      · rw [hkeys]
        exact Nat.zero_add _
      · rw [hreported]
        exact Reading.firstRefused_eq_clean fun _ _ => pairRule_error_ne
  · refine iff_of_false ?_ fun h => hall h.1
    rintro ⟨-, hkeys, -, -⟩
    have hless := hunheard hall
    rw [hkeys] at hless
    simp at hless

/-- With room for one cell, the third key of the prefix, which addresses no cell, is neither
counted nor refused; and a key with a blank or a sign before its channel is taken for an
address. -/
theorem headamp_parse_slips :
    let limits : HeadampLimits := ⟨48, 64⟩
    let full : List ParamPod := [.str "reac.headamp.1.phantom", .int 1,
      .str "reac.headamp.2.phantom", .int 1, .str "reac.headamp.x.phantom", .int 1]
    let blank : List ParamPod := [.str "reac.headamp. 3.phantom", .int 1]
    let signed : List ParamPod := [.str "reac.headamp.-1.phantom", .int 1]
    (∀ pods ∈ [full, blank, signed], ¬ ParseExact limits 1 (headampPairs (propPairs none pods))
        (reacHeadampPropParseResult limits 1 (.params pods))) ∧
      reacHeadampPropParseResult limits 1 (.params full) = ⟨[⟨(1, .phantom), 1⟩], 2, .accepted⟩ ∧
      reacHeadampPropParseResult limits 1 (.params blank) = ⟨[⟨(3, .phantom), 1⟩], 1, .accepted⟩ ∧
      reacHeadampPropParseResult limits 1 (.params signed) = ⟨[], 1, .outOfRange⟩ := by
  intro limits full blank signed
  refine ⟨?_, by decide, by decide, by decide⟩
  intro pods hpods
  simp only [List.mem_cons, List.not_mem_nil, or_false] at hpods
  rcases hpods with rfl | rfl | rfl
  · rintro ⟨-, hkeys, -, -⟩
    exact absurd hkeys (by decide)
  · rintro ⟨hcells, -, -, -⟩
    exact absurd hcells (by decide)
  · rintro ⟨-, -, hrefusal, -⟩
    exact absurd hrefusal (by decide)

end ReacPw
