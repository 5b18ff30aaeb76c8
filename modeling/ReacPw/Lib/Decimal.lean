/-
Decimal numerals as lists of characters.

`numeral` writes a number and `read` takes one back, from digits only.  Reading what was
written gives the number; writing what was read gives the digits back just when they have
no leading zero.

The C library's conversions take more: blanks and a sign before the digits, and whatever may
stand behind them.  `scan` is what they take, `Led` is its grammar (`scan_iff`).
-/
import Mathlib.Algebra.Group.Nat.Defs
import Mathlib.Data.List.Basic
import Mathlib.Data.List.Induction
import Mathlib.Data.List.TakeWhile
import Mathlib.Tactic.Common

namespace Decimal

def numeral (n : Nat) : List Char := Nat.toDigits 10 n

/-- The value of a list of digits. -/
def value (ds : List Char) : Nat := Nat.ofDigitChars 10 ds 0

/-- Digits and nothing else, one at least. -/
def Plain (ds : List Char) : Prop := ds ≠ [] ∧ ∀ c ∈ ds, c.isDigit = true

instance (ds : List Char) : Decidable (Plain ds) :=
  @instDecidableAnd _ _ inferInstance (List.decidableBAll _ ds)

def read (ds : List Char) : Option Nat := if Plain ds then some (value ds) else none

theorem isDigit_of_mem_numeral {n : Nat} {c : Char} (h : c ∈ numeral n) : c.isDigit = true :=
  Nat.isDigit_of_mem_toDigits (by decide) (by decide) h

@[simp] theorem numeral_ne_nil (n : Nat) : numeral n ≠ [] := Nat.toDigits_ne_nil

theorem plain_numeral (n : Nat) : Plain (numeral n) :=
  ⟨numeral_ne_nil n, fun _ => isDigit_of_mem_numeral⟩

@[simp] theorem value_numeral (n : Nat) : value (numeral n) = n := Nat.ofDigitChars_ten_toDigits

@[simp] theorem read_numeral (n : Nat) : read (numeral n) = some n := by
  rw [read, if_pos (plain_numeral n), value_numeral]

theorem numeral_injective {m n : Nat} (h : numeral m = numeral n) : m = n := by
  rw [← value_numeral m, h, value_numeral]

/-- As the numeral is printed. -/
theorem toList_toString (n : Nat) : (toString n).toList = numeral n := by
  simp [numeral, Nat.repr_eq_ofList_toDigits]

theorem value_concat (ds : List Char) (d : Char) :
    value (ds ++ [d]) = 10 * value ds + (d.toNat - '0'.toNat) := by
  rw [value, Nat.ofDigitChars_append, Nat.ofDigitChars_cons, Nat.ofDigitChars_nil]
  rfl

/-- A digit is the numeral of what it is worth. -/
theorem numeral_digit {d : Char} (h : d.isDigit = true) :
    d.toNat - '0'.toNat < 10 ∧ numeral (d.toNat - '0'.toNat) = [d] := by
  obtain ⟨hlo, hhi⟩ := Char.isDigit_iff_toNat.mp h
  have hlo : 48 ≤ d.toNat := hlo
  have hhi : d.toNat ≤ 57 := hhi
  have hten : d.toNat - '0'.toNat < 10 := by
    change d.toNat - 48 < 10
    omega
  refine ⟨hten, ?_⟩
  rw [numeral, Nat.toDigits_of_lt_base hten]
  have hback := Nat.toNat_digitChar_sub_48_of_lt_ten hten
  have hdigit : 48 ≤ (d.toNat - '0'.toNat).digitChar.toNat :=
    (Char.isDigit_iff_toNat.mp (Nat.isDigit_of_mem_toDigits (n := d.toNat - '0'.toNat)
      (b := 10) (by decide) (by decide)
      (by rw [Nat.toDigits_of_lt_base hten]; exact List.mem_singleton_self _))).1
  refine congrArg (fun c => [c]) (Char.toNat_inj.mp ?_)
  change d.toNat - 48 < 10 at hten
  change (d.toNat - 48).digitChar.toNat - 48 = d.toNat - 48 at hback
  change 48 ≤ (d.toNat - 48).digitChar.toNat at hdigit
  change (d.toNat - 48).digitChar.toNat = d.toNat
  omega

/-- The numeral of a positive number has no leading zero. -/
theorem head_numeral {n : Nat} (hn : 0 < n) : (numeral n).head? ≠ some '0' := by
  induction n using Nat.strongRecOn with
  | _ n ih =>
      by_cases hone : n < 10
      · rw [numeral, Nat.toDigits_of_lt_base hone, List.head?_cons]
        intro hzero
        have hback := Nat.toNat_digitChar_sub_48_of_lt_ten hone
        rw [Option.some.inj hzero] at hback
        exact Nat.ne_of_gt hn hback.symm
      · rw [numeral, Nat.toDigits_of_base_le (by decide) (by omega),
          List.head?_append_of_ne_nil _ Nat.toDigits_ne_nil]
        exact ih (n / 10) (by omega) (by omega)

/-- **Digits without a leading zero are the numeral of their value.** -/
theorem numeral_value {ds : List Char} (hplain : Plain ds) (hlead : ds.head? ≠ some '0') :
    numeral (value ds) = ds ∧ 0 < value ds := by
  induction ds using List.reverseRecOn with
  | nil => exact absurd rfl hplain.1
  | append_singleton ds d ih =>
      have hd := hplain.2 d (by simp)
      obtain ⟨hten, hdigit⟩ := numeral_digit hd
      rw [value_concat]
      by_cases hnil : ds = []
      · subst hnil
        refine ⟨by simpa [value] using hdigit, ?_⟩
        by_contra hzero
        have hempty : value [] = 0 := rfl
        have hzero : d.toNat - '0'.toNat = 0 := by omega
        rw [hzero] at hdigit
        refine hlead ?_
        rw [List.nil_append, ← hdigit]
        rfl
      · rw [List.head?_append_of_ne_nil _ hnil] at hlead
        obtain ⟨hds, hpos⟩ := ih ⟨hnil, fun c hc => hplain.2 c (by simp [hc])⟩ hlead
        refine ⟨?_, by omega⟩
        rw [numeral, ← Nat.toDigits_append_toDigits (by decide) hpos hten]
        exact congrArg₂ (· ++ ·) hds hdigit

/-! ### Blanks and a sign before the digits -/

/-- What stands before the digits of a number. -/
inductive Sign where
  | bare
  | plus
  | minus
  deriving DecidableEq, Repr

def Sign.text : Sign → List Char
  | .bare => []
  | .plus => ['+']
  | .minus => ['-']

/-- The number, under its sign. -/
def Sign.apply : Sign → Nat → Int
  | .minus, n => -(n : Int)
  | _, n => n

/-- The sign, and what follows it. -/
def splitSign : List Char → Sign × List Char
  | '-' :: s => (.minus, s)
  | '+' :: s => (.plus, s)
  | s => (.bare, s)

/-- The number a text is led by: its sign, its digits and what follows them. -/
def scan (blank : Char → Bool) (s : List Char) : Option (Sign × List Char × List Char) :=
  let (sign, s) := splitSign (s.dropWhile blank)
  if s.takeWhile Char.isDigit = [] then none
  else some (sign, s.takeWhile Char.isDigit, s.dropWhile Char.isDigit)

/-- A text is led by a number: blanks, its sign, its digits to the last, and the rest. -/
structure Led (blank : Char → Bool) (s : List Char) (sign : Sign) (ds rest : List Char) :
    Prop where
  text : ∃ blanks, (∀ c ∈ blanks, blank c = true) ∧ s = blanks ++ (sign.text ++ (ds ++ rest))
  digits : Plain ds
  stop : ∀ c ∈ rest.head?, c.isDigit = false

/-- No blank is a digit or a sign. -/
def Blanks (blank : Char → Bool) : Prop :=
  ∀ c, blank c = true → c.isDigit = false ∧ c ≠ '-' ∧ c ≠ '+'

theorem splitSign_text (s : List Char) : (splitSign s).1.text ++ (splitSign s).2 = s := by
  unfold splitSign
  split <;> rfl

theorem splitSign_digit {c : Char} (hc : c.isDigit = true) (s : List Char) :
    splitSign (c :: s) = (.bare, c :: s) := by
  unfold splitSign
  split
  · rename_i h
    cases h
    cases hc
  · rename_i h
    cases h
    cases hc
  · rfl

theorem splitSign_minus {s : List Char} :
    (splitSign s).1 = .minus ↔ s.head? = some '-' := by
  unfold splitSign
  split
  · simp
  · simp
  · rename_i hminus _
    refine iff_of_false (by simp) fun hhead => ?_
    obtain ⟨tail, rfl⟩ := List.head?_eq_some_iff.mp hhead
    exact hminus tail rfl

theorem splitSign_rest (s : List Char) :
    (splitSign s).2 = if s.head? = some '-' ∨ s.head? = some '+' then s.tail else s := by
  unfold splitSign
  split
  · simp
  · simp
  · rename_i hminus hplus
    rw [if_neg]
    rintro (hhead | hhead)
    · obtain ⟨tail, rfl⟩ := List.head?_eq_some_iff.mp hhead
      exact hminus tail rfl
    · obtain ⟨tail, rfl⟩ := List.head?_eq_some_iff.mp hhead
      exact hplus tail rfl

theorem Sign.apply_eq (sign : Sign) (n : Nat) :
    sign.apply n = if sign = .minus then -(n : Int) else n := by
  cases sign <;> rfl

/-- A sign before digits is split off. -/
theorem splitSign_append (sign : Sign) {ds : List Char} (hds : Plain ds) (rest : List Char) :
    splitSign (sign.text ++ (ds ++ rest)) = (sign, ds ++ rest) := by
  cases sign with
  | bare =>
      obtain ⟨c, tail, rfl⟩ := List.exists_cons_of_ne_nil hds.1
      exact splitSign_digit (hds.2 c List.mem_cons_self) _
  | plus => rfl
  | minus => rfl

/-- The digits to the last, and the rest. -/
theorem takeWhile_digits {ds rest : List Char} (hds : ∀ c ∈ ds, c.isDigit = true)
    (hstop : ∀ c ∈ rest.head?, c.isDigit = false) :
    (ds ++ rest).takeWhile Char.isDigit = ds ∧ (ds ++ rest).dropWhile Char.isDigit = rest := by
  have hrest : rest.takeWhile Char.isDigit = [] ∧ rest.dropWhile Char.isDigit = rest := by
    cases rest with
    | nil => exact ⟨rfl, rfl⟩
    | cons c rest =>
        have hc : ¬ c.isDigit = true := by
          rw [hstop c rfl]
          exact Bool.false_ne_true
        exact ⟨List.takeWhile_cons_of_neg hc, List.dropWhile_cons_of_neg hc⟩
  rw [List.takeWhile_append_of_pos hds, List.dropWhile_append_of_pos hds, hrest.1, hrest.2,
    List.append_nil]
  exact ⟨rfl, rfl⟩

/-- The blanks are skipped, and nothing behind them. -/
theorem dropWhile_blanks {blank : Char → Bool} (hblank : Blanks blank) {blanks : List Char}
    (hall : ∀ c ∈ blanks, blank c = true) (sign : Sign) {ds : List Char} (hds : Plain ds)
    (rest : List Char) :
    (blanks ++ (sign.text ++ (ds ++ rest))).dropWhile blank = sign.text ++ (ds ++ rest) := by
  rw [List.dropWhile_append_of_pos hall]
  cases sign with
  | bare =>
      obtain ⟨c, tail, rfl⟩ := List.exists_cons_of_ne_nil hds.1
      refine List.dropWhile_cons_of_neg fun hc => ?_
      have hdigit := hds.2 c List.mem_cons_self
      rw [(hblank c hc).1] at hdigit
      cases hdigit
  | plus => exact List.dropWhile_cons_of_neg fun hc => (hblank _ hc).2.2 rfl
  | minus => exact List.dropWhile_cons_of_neg fun hc => (hblank _ hc).2.1 rfl

theorem Led.scan {blank : Char → Bool} (hblank : Blanks blank) {s : List Char} {sign : Sign}
    {ds rest : List Char} (h : Led blank s sign ds rest) :
    scan blank s = some (sign, ds, rest) := by
  obtain ⟨⟨blanks, hall, rfl⟩, hds, hstop⟩ := h
  obtain ⟨htake, hdrop⟩ := takeWhile_digits hds.2 hstop
  rw [Decimal.scan, dropWhile_blanks hblank hall sign hds, splitSign_append sign hds]
  simp only [htake, hdrop, if_neg hds.1]

theorem led_of_scan {blank : Char → Bool} {s : List Char} {sign : Sign} {ds rest : List Char}
    (h : scan blank s = some (sign, ds, rest)) : Led blank s sign ds rest := by
  rw [scan] at h
  simp only at h
  split_ifs at h with hnil
  simp only [Option.some.injEq, Prod.mk.injEq] at h
  obtain ⟨rfl, rfl, rfl⟩ := h
  refine ⟨⟨s.takeWhile blank, fun c hc => List.mem_takeWhile_imp hc, ?_⟩,
    ⟨hnil, fun c hc => List.mem_takeWhile_imp hc⟩, fun c hc => ?_⟩
  · rw [List.takeWhile_append_dropWhile, splitSign_text, List.takeWhile_append_dropWhile]
  · have hstop := List.head?_dropWhile_not Char.isDigit (splitSign (s.dropWhile blank)).2
    rw [Option.mem_def.mp hc] at hstop
    exact hstop

/-- **What is scanned is what the grammar leads a text by.** -/
theorem scan_iff {blank : Char → Bool} (hblank : Blanks blank) {s : List Char} {sign : Sign}
    {ds rest : List Char} :
    scan blank s = some (sign, ds, rest) ↔ Led blank s sign ds rest :=
  ⟨led_of_scan, Led.scan hblank⟩

end Decimal
