/-
Records behind one another in a memory, each headed by its own length.

A reader has a place and a count of bytes left.  While the count admits a header, and the
length in that header is at least a header and at most what is left, there is a record;
the next begins at the next multiple of the alignment.  Such a reader is safe when it
reads off its place only what the count covers, and it is right when it finds, of the
records written there, each one and nothing else.

The count is signed: a last record that is not padded leaves it below zero.  The test at
the top of the loop sees it through `room`, so that a test on another type of number is
one more instance.
-/
import Mathlib.Algebra.GroupWithZero.Nat
import Mathlib.Algebra.Ring.Int.Defs
import Mathlib.Data.List.Basic
import Mathlib.Data.List.Forall2
import Mathlib.Tactic.Common

namespace Records

/-! ### Bytes in a memory -/

/-- So many bytes from this place on. -/
def slice (mem : Nat → UInt8) : Nat → Nat → List UInt8
  | _, 0 => []
  | off, len + 1 => mem off :: slice mem (off + 1) len

/-- These bytes are what the memory holds from this place on. -/
def Lies (mem : Nat → UInt8) (off : Nat) (bytes : List UInt8) : Prop :=
  slice mem off bytes.length = bytes

/-- The number at this place, its low byte first. -/
def leAt (mem : Nat → UInt8) : Nat → Nat → Nat
  | _, 0 => 0
  | off, wide + 1 => (mem off).toNat + 256 * leAt mem (off + 1) wide

/-- A number as so many bytes, its low byte first. -/
def leBytes : Nat → Nat → List UInt8
  | 0, _ => []
  | wide + 1, n => UInt8.ofNat (n % 256) :: leBytes wide (n / 256)

/-- The number these bytes are, the low one first. -/
def leOf : List UInt8 → Nat
  | [] => 0
  | b :: bs => b.toNat + 256 * leOf bs

/-- A memory that begins with these bytes. -/
def memOf (bytes : List UInt8) : Nat → UInt8 := fun i => bytes.getD i 0

/-- Two memories hold the same from here to there. -/
def Same (mem mem' : Nat → UInt8) (lo hi : Nat) : Prop :=
  ∀ i, lo ≤ i → i < hi → mem i = mem' i

section
variable {mem mem' : Nat → UInt8}

@[simp] theorem slice_length (off len : Nat) : (slice mem off len).length = len := by
  induction len generalizing off with
  | zero => rfl
  | succ len ih => rw [slice, List.length_cons, ih]

theorem slice_add (off a b : Nat) :
    slice mem off (a + b) = slice mem off a ++ slice mem (off + a) b := by
  induction a generalizing off with
  | zero => simp [slice]
  | succ a ih =>
      rw [Nat.succ_add, slice, ih, slice, List.cons_append,
        show off + (a + 1) = off + 1 + a by omega]

theorem Same.sub {lo hi lo' hi' : Nat} (h : Same mem mem' lo hi) (hlo : lo ≤ lo')
    (hhi : hi' ≤ hi) : Same mem mem' lo' hi' := fun i h₁ h₂ => h i (by omega) (by omega)

theorem slice_congr {off len : Nat} (h : Same mem mem' off (off + len)) :
    slice mem off len = slice mem' off len := by
  induction len generalizing off with
  | zero => rfl
  | succ len ih =>
      rw [slice, slice, h off (Nat.le_refl _) (by omega), ih (h.sub (by omega) (by omega))]

theorem leAt_eq (off wide : Nat) : leAt mem off wide = leOf (slice mem off wide) := by
  induction wide generalizing off with
  | zero => rfl
  | succ wide ih => rw [leAt, slice, leOf, ih]

theorem leAt_congr {off wide : Nat} (h : Same mem mem' off (off + wide)) :
    leAt mem off wide = leAt mem' off wide := by
  rw [leAt_eq, leAt_eq, slice_congr h]

@[simp] theorem leBytes_length (wide n : Nat) : (leBytes wide n).length = wide := by
  induction wide generalizing n with
  | zero => rfl
  | succ wide ih => rw [leBytes, List.length_cons, ih]

theorem leOf_leBytes {wide n : Nat} (h : n < 256 ^ wide) : leOf (leBytes wide n) = n := by
  induction wide generalizing n with
  | zero =>
      have hzero : n = 0 := by simpa using h
      rw [leBytes, leOf, hzero]
  | succ wide ih =>
      have hrest : n / 256 < 256 ^ wide := by
        rw [Nat.pow_succ, Nat.mul_comm] at h
        exact Nat.div_lt_of_lt_mul h
      have hbyte : (UInt8.ofNat (n % 256)).toNat = n % 256 := by simp
      rw [leBytes, leOf, hbyte, ih hrest]
      omega

theorem lies_nil (off : Nat) : Lies mem off [] := rfl

theorem lies_append {off : Nat} {xs ys : List UInt8} :
    Lies mem off (xs ++ ys) ↔ Lies mem off xs ∧ Lies mem (off + xs.length) ys := by
  unfold Lies
  rw [List.length_append, slice_add]
  constructor
  · intro h
    exact List.append_inj h (slice_length off xs.length)
  · rintro ⟨hx, hy⟩
    rw [hx, hy]

theorem lies_cons {off : Nat} {x : UInt8} {xs : List UInt8} :
    Lies mem off (x :: xs) ↔ mem off = x ∧ Lies mem (off + 1) xs := by
  unfold Lies
  rw [List.length_cons, slice, List.cons.injEq]

theorem same_memOf (bytes behind : List UInt8) :
    Same (memOf bytes) (memOf (bytes ++ behind)) 0 bytes.length := by
  intro i _ hi
  rw [memOf, memOf, List.getD_eq_getElem?_getD, List.getD_eq_getElem?_getD,
    List.getElem?_append_left hi]

theorem lies_memOf (bytes : List UInt8) : Lies (memOf bytes) 0 bytes := by
  have hall : ∀ pre rest : List UInt8, Lies (memOf (pre ++ rest)) pre.length rest := by
    intro pre rest
    induction rest generalizing pre with
    | nil => exact lies_nil _
    | cons b rest ih =>
        refine lies_cons.mpr ⟨?_, ?_⟩
        · simp [memOf]
        · have hmore := ih (pre ++ [b])
          rw [List.append_assoc, List.singleton_append, List.length_append] at hmore
          exact hmore
  exact hall [] bytes

theorem leAt_of_lies {off : Nat} {bytes : List UInt8} (h : Lies mem off bytes) :
    leAt mem off bytes.length = leOf bytes := by
  rw [leAt_eq, h]

theorem slice_inside {off : Nat} {bytes : List UInt8} (h : Lies mem off bytes) {i n : Nat}
    (hin : i + n ≤ bytes.length) : slice mem (off + i) n = (bytes.drop i).take n := by
  rw [← List.take_append_drop i bytes, lies_append] at h
  have hrest := h.2
  rw [List.length_take_of_le (by omega), ← List.take_append_drop n (bytes.drop i),
    lies_append] at hrest
  have hfirst := hrest.1
  rwa [Lies, List.length_take, List.length_drop, Nat.min_eq_left (by omega)] at hfirst

/-- A number inside bytes that lie there. -/
theorem leAt_inside {off : Nat} {bytes : List UInt8} (h : Lies mem off bytes) {i wide : Nat}
    (hin : i + wide ≤ bytes.length) :
    leAt mem (off + i) wide = leOf ((bytes.drop i).take wide) := by
  rw [leAt_eq, slice_inside h hin]

theorem mem_of_lies {off : Nat} {bytes : List UInt8} (h : Lies mem off bytes) {i : Nat}
    (hi : i < bytes.length) : mem (off + i) = bytes[i] := by
  induction bytes generalizing off i with
  | nil => simp at hi
  | cons b bs ih =>
      obtain ⟨hb, hbs⟩ := lies_cons.mp h
      cases i with
      | zero => exact hb
      | succ i =>
          have hi' : i < bs.length := by simpa using hi
          rw [List.getElem_cons_succ, ← ih hbs hi']
          congr 1
          omega

end

/-! ### The walk -/

/-- How a record is headed: the size of its header, of the length at the header's start,
and what records are aligned to. -/
structure Format where
  head : Nat
  wide : Nat
  align : Nat
  wide_le : wide ≤ head
  head_pos : 0 < head
  align_pos : 0 < align

namespace Format

variable (F : Format)

/-- Up to the next multiple of the alignment. -/
def up (n : Nat) : Nat := (n + (F.align - 1)) / F.align * F.align

def lengthAt (mem : Nat → UInt8) (off : Nat) : Nat := leAt mem off F.wide

/-- The test at the top of the loop. -/
def ok (room : Int → Int) (mem : Nat → UInt8) (off : Nat) (left : Int) : Bool :=
  (F.head : Int) ≤ room left && F.head ≤ F.lengthAt mem off &&
    (F.lengthAt mem off : Int) ≤ room left

/-- The places of the records a loop visits, and what is left when it ends. -/
def walk (room : Int → Int) (mem : Nat → UInt8) : Nat → Nat → Int → List Nat × Int
  | 0, _, left => ([], left)
  | fuel + 1, off, left =>
    if F.ok room mem off left then
      let next := walk room mem fuel (off + F.up (F.lengthAt mem off))
        (left - F.up (F.lengthAt mem off))
      (off :: next.1, next.2)
    else ([], left)

/-- The walk of `len` bytes with the count as it is. -/
def records (mem : Nat → UInt8) (off : Nat) (len : Int) : List Nat :=
  (F.walk id mem len.toNat off len).1

/-- What that walk leaves. -/
def leftOver (mem : Nat → UInt8) (off : Nat) (len : Int) : Int :=
  (F.walk id mem len.toNat off len).2

variable {F}

theorem le_up (n : Nat) : n ≤ F.up n := by
  have hpos := F.align_pos
  have hmod := Nat.div_add_mod (n + (F.align - 1)) F.align
  have hlt := Nat.mod_lt (n + (F.align - 1)) hpos
  rw [up, Nat.mul_comm]
  omega

theorem up_lt (n : Nat) : F.up n < n + F.align := by
  have hpos := F.align_pos
  have hmod := Nat.div_add_mod (n + (F.align - 1)) F.align
  rw [up, Nat.mul_comm]
  omega

theorem dvd_up (n : Nat) : F.align ∣ F.up n := Nat.dvd_mul_left _ _

theorem up_of_dvd {n : Nat} (h : F.align ∣ n) : F.up n = n := by
  have hpos := F.align_pos
  obtain ⟨k, rfl⟩ := h
  rw [up, Nat.mul_add_div hpos, Nat.div_eq_of_lt (by omega), Nat.add_zero, Nat.mul_comm]

theorem up_mono {m n : Nat} (h : m ≤ n) : F.up m ≤ F.up n :=
  Nat.mul_le_mul_right _ (Nat.div_le_div_right (by omega))

theorem ok_iff {room : Int → Int} {mem : Nat → UInt8} {off : Nat} {left : Int} :
    F.ok room mem off left = true ↔
      (F.head : Int) ≤ room left ∧ F.head ≤ F.lengthAt mem off ∧
        (F.lengthAt mem off : Int) ≤ room left := by
  simp [ok, and_assoc]

theorem lengthAt_congr {mem mem' : Nat → UInt8} {off : Nat}
    (h : Same mem mem' off (off + F.head)) : F.lengthAt mem off = F.lengthAt mem' off := by
  have hle := F.wide_le
  exact leAt_congr (h.sub (Nat.le_refl _) (by omega))

section
variable {room : Int → Int} {mem mem' : Nat → UInt8}

theorem walk_stop {fuel off : Nat} {left : Int} (h : F.ok room mem off left = false) :
    F.walk room mem fuel off left = ([], left) := by
  cases fuel with
  | zero => rfl
  | succ fuel => rw [walk, if_neg (by simp [h])]

theorem walk_step {fuel off : Nat} {left : Int} (h : F.ok room mem off left = true) :
    F.walk room mem (fuel + 1) off left =
      (off :: (F.walk room mem fuel (off + F.up (F.lengthAt mem off))
          (left - F.up (F.lengthAt mem off))).1,
        (F.walk room mem fuel (off + F.up (F.lengthAt mem off))
          (left - F.up (F.lengthAt mem off))).2) := by
  rw [walk, if_pos h]

/-- A record takes at least a header off the count, so the count is fuel enough. -/
theorem walk_fuel_succ {fuel off : Nat} {left : Int} (h : left.toNat ≤ fuel) :
    F.walk id mem (fuel + 1) off left = F.walk id mem fuel off left := by
  induction fuel generalizing off left with
  | zero =>
      have hno : F.ok id mem off left = false := by
        by_contra hok
        have hhead := (ok_iff.mp (Bool.not_eq_false _ ▸ hok)).1
        have hpos := F.head_pos
        simp only [id_eq] at hhead
        omega
      rw [walk_stop hno, walk_stop hno]
  | succ fuel ih =>
      by_cases hok : F.ok id mem off left = true
      · have hlen := (ok_iff.mp hok).2.1
        have hpos := F.head_pos
        have hup := F.le_up (F.lengthAt mem off)
        rw [walk_step hok, walk_step hok, ih (by omega)]
      · have hno : F.ok id mem off left = false := by simpa using hok
        rw [walk_stop hno, walk_stop hno]

theorem walk_fuel {fuel off : Nat} {left : Int} (h : left.toNat ≤ fuel) :
    F.walk id mem fuel off left = F.walk id mem left.toNat off left := by
  obtain ⟨more, rfl⟩ := Nat.exists_eq_add_of_le h
  clear h
  induction more with
  | zero => rfl
  | succ more ih => rw [← Nat.add_assoc, walk_fuel_succ (by omega), ih]

theorem walk_eq (fuel off : Nat) (left : Int) (h : left.toNat ≤ fuel) :
    F.walk id mem fuel off left = (F.records mem off left, F.leftOver mem off left) :=
  walk_fuel h

theorem records_stop {off : Nat} {left : Int} (h : F.ok id mem off left = false) :
    F.records mem off left = [] := by
  rw [records, walk_stop h]

theorem leftOver_stop {off : Nat} {left : Int} (h : F.ok id mem off left = false) :
    F.leftOver mem off left = left := by
  rw [leftOver, walk_stop h]

theorem walk_step_eq {off : Nat} {left : Int} (h : F.ok id mem off left = true) :
    F.walk id mem left.toNat off left =
      (off :: F.records mem (off + F.up (F.lengthAt mem off)) (left - F.up (F.lengthAt mem off)),
        F.leftOver mem (off + F.up (F.lengthAt mem off))
          (left - F.up (F.lengthAt mem off))) := by
  have hlen := (ok_iff.mp h).2.1
  have hpos := F.head_pos
  have hup := F.le_up (F.lengthAt mem off)
  rw [← walk_fuel_succ (Nat.le_refl _), walk_step h, walk_eq _ _ _ (by omega)]

theorem records_step {off : Nat} {left : Int} (h : F.ok id mem off left = true) :
    F.records mem off left = off :: F.records mem (off + F.up (F.lengthAt mem off))
      (left - F.up (F.lengthAt mem off)) := by
  rw [records, walk_step_eq h]

theorem leftOver_step {off : Nat} {left : Int} (h : F.ok id mem off left = true) :
    F.leftOver mem off left = F.leftOver mem (off + F.up (F.lengthAt mem off))
      (left - F.up (F.lengthAt mem off)) := by
  rw [leftOver, walk_step_eq h]

/-- What holds where the loop stops, and before a record when it does behind it, holds of
the whole walk. -/
theorem records_induction (F : Format) (mem : Nat → UInt8) {P : Nat → Int → Prop}
    (stop : ∀ off left, F.ok id mem off left = false → P off left)
    (step : ∀ off left, F.ok id mem off left = true →
      P (off + F.up (F.lengthAt mem off)) (left - F.up (F.lengthAt mem off)) → P off left)
    (off : Nat) (left : Int) : P off left := by
  have hall : ∀ (fuel off : Nat) (left : Int), left.toNat ≤ fuel → P off left := by
    intro fuel
    induction fuel with
    | zero =>
        intro off left h
        refine stop off left ?_
        by_contra hok
        have hhead := (ok_iff.mp (Bool.not_eq_false _ ▸ hok)).1
        have hpos := F.head_pos
        simp only [id_eq] at hhead
        omega
    | succ fuel ih =>
        intro off left h
        by_cases hok : F.ok id mem off left = true
        · have hlen := (ok_iff.mp hok).2.1
          have hpos := F.head_pos
          have hup := F.le_up (F.lengthAt mem off)
          exact step off left hok (ih _ _ (by omega))
        · exact stop off left (by simpa using hok)
  exact hall _ off left (Nat.le_refl _)

/-- **Every record lies in what is left**, and is at least a header long. -/
theorem records_inside {off : Nat} {left : Int} {o : Nat} (h : o ∈ F.records mem off left) :
    off ≤ o ∧ F.head ≤ F.lengthAt mem o ∧ (o + F.lengthAt mem o : Int) ≤ off + left := by
  revert h
  induction off, left using records_induction F mem with
  | stop off left hno => simp [records_stop hno]
  | step off left hok ih =>
      intro h
      obtain ⟨hhead, hlen, hfit⟩ := ok_iff.mp hok
      simp only [id_eq] at hfit
      rcases List.mem_cons.mp (records_step hok ▸ h) with rfl | hrest
      · exact ⟨Nat.le_refl _, hlen, by omega⟩
      · obtain ⟨hlo, hlen', hhi⟩ := ih hrest
        refine ⟨by omega, hlen', ?_⟩
        push_cast at hhi
        omega

/-- **The walk is decided by the bytes it was given.** -/
theorem records_congr {off : Nat} {left : Int}
    (h : ∀ i : Nat, off ≤ i → (i : Int) < off + left → mem i = mem' i) :
    F.records mem off left = F.records mem' off left ∧
      F.leftOver mem off left = F.leftOver mem' off left := by
  revert h
  induction off, left using records_induction F mem with
  | stop off left hno =>
      intro h
      have hno' : F.ok id mem' off left = false := by
        by_cases hhead : (F.head : Int) ≤ left
        · rw [← hno, ok, ok, lengthAt_congr fun i hlo hhi => h i hlo (by omega)]
        · simp [ok, hhead]
      rw [records_stop hno, records_stop hno', leftOver_stop hno, leftOver_stop hno']
      exact ⟨rfl, rfl⟩
  | step off left hok ih =>
      intro h
      have hhead : (F.head : Int) ≤ left := (ok_iff.mp hok).1
      have hsame : F.lengthAt mem off = F.lengthAt mem' off :=
        lengthAt_congr fun i hlo hhi => h i hlo (by omega)
      have hok' : F.ok id mem' off left = true := by
        rw [← hok, ok, ok, hsame]
      obtain ⟨hrec, hleft⟩ := ih fun i hlo hhi => h i (by omega) (by push_cast at hhi; omega)
      rw [records_step hok, records_step hok', leftOver_step hok, leftOver_step hok', hrec, hleft,
        hsame]
      exact ⟨rfl, rfl⟩

theorem leftOver_le (off : Nat) (left : Int) : F.leftOver mem off left ≤ left := by
  induction off, left using records_induction F mem with
  | stop off left hno => exact Int.le_of_eq (leftOver_stop hno)
  | step off left hok ih =>
      rw [leftOver_step hok]
      omega

/-- The count falls short by less than the alignment. -/
theorem lt_leftOver {off : Nat} {left : Int} (h : -(F.align : Int) < left) :
    -(F.align : Int) < F.leftOver mem off left := by
  revert h
  induction off, left using records_induction F mem with
  | stop off left hno =>
      rw [leftOver_stop hno]
      exact id
  | step off left hok ih =>
      intro _
      have hfit : (F.lengthAt mem off : Int) ≤ left := (ok_iff.mp hok).2.2
      have hup := F.up_lt (F.lengthAt mem off)
      rw [leftOver_step hok]
      exact ih (by omega)

/-- Where the walk ends, there is no record. -/
theorem leftOver_end (F : Format) (mem : Nat → UInt8) (off : Nat) (left : Int) :
    F.ok id mem (off + (left - F.leftOver mem off left).toNat) (F.leftOver mem off left) =
      false := by
  induction off, left using records_induction F mem with
  | stop off left hno =>
      rw [leftOver_stop hno, Int.sub_self]
      exact hno
  | step off left hok ih =>
      have hless : F.leftOver mem (off + F.up (F.lengthAt mem off))
          (left - F.up (F.lengthAt mem off)) ≤ left - F.up (F.lengthAt mem off) :=
        leftOver_le _ _
      rw [leftOver_step hok]
      rw [show off + F.up (F.lengthAt mem off) + (left - F.up (F.lengthAt mem off) -
            F.leftOver mem (off + F.up (F.lengthAt mem off))
              (left - F.up (F.lengthAt mem off))).toNat =
          off + (left - F.leftOver mem (off + F.up (F.lengthAt mem off))
            (left - F.up (F.lengthAt mem off))).toNat by omega] at ih
      exact ih

/-- No more records than bytes. -/
theorem records_length_le {off : Nat} {left : Int} :
    (F.records mem off left).length ≤ left.toNat := by
  induction off, left using records_induction F mem with
  | stop off left hno => simp [records_stop hno]
  | step off left hok ih =>
      obtain ⟨hhead, hlen, -⟩ := ok_iff.mp hok
      have hpos := F.head_pos
      have hup := F.le_up (F.lengthAt mem off)
      simp only [id_eq] at hhead
      rw [records_step hok, List.length_cons]
      omega

/-- **Seen through a room that is the count while the count is not negative, the walk goes
as before, and on from where that ends.** -/
theorem walk_room (F : Format) (mem : Nat → UInt8) (off : Nat) (left : Int) (fuel : Nat)
    (hroom : ∀ n : Int, 0 ≤ n → n ≤ left → room n = n) :
    F.walk room mem ((F.records mem off left).length + fuel) off left =
      (F.records mem off left ++
          (F.walk room mem fuel (off + (left - F.leftOver mem off left).toNat)
            (F.leftOver mem off left)).1,
        (F.walk room mem fuel (off + (left - F.leftOver mem off left).toNat)
            (F.leftOver mem off left)).2) := by
  revert hroom
  induction off, left using records_induction F mem with
  | stop off left hno =>
      intro _
      simp [records_stop hno, leftOver_stop hno]
  | step off left hok ih =>
      intro hroom
      obtain ⟨hhead, hlen, hfit⟩ := ok_iff.mp hok
      simp only [id_eq] at hhead hfit
      have hok' : F.ok room mem off left = true := by
        rw [← hok, ok, ok, hroom left (by omega) (Int.le_refl _), id_eq]
      have hless : F.leftOver mem (off + F.up (F.lengthAt mem off))
          (left - F.up (F.lengthAt mem off)) ≤ left - F.up (F.lengthAt mem off) :=
        leftOver_le _ _
      have hplace : off + F.up (F.lengthAt mem off) +
            (left - F.up (F.lengthAt mem off) - F.leftOver mem off left).toNat =
          off + (left - F.leftOver mem off left).toNat := by
        rw [leftOver_step hok]
        omega
      have hrest := ih fun n hlo hhi => hroom n hlo (by omega)
      rw [records_step hok, List.length_cons, show ∀ a b : Nat, a + 1 + b = a + b + 1 by omega,
        walk_step hok', hrest, ← leftOver_step hok, hplace, List.cons_append]

end
end Format

/-! ### Records written -/

/-- A record: what its header holds behind the length, and its body. -/
structure Record (F : Format) where
  rest : List UInt8
  body : List UInt8
  headed : F.wide + rest.length = F.head
  fits : F.head + body.length < 256 ^ F.wide

namespace Record
variable {F : Format}

def length (r : Record F) : Nat := F.head + r.body.length

/-- The record as it lies in a memory. -/
def bytes (r : Record F) : List UInt8 := leBytes F.wide r.length ++ (r.rest ++ r.body)

/-- The zeros up to the next record. -/
def padding (r : Record F) : List UInt8 := List.replicate (F.up r.length - r.length) 0

/-- Records one behind the other, each padded. -/
def pack (rs : List (Record F)) : List UInt8 := rs.flatMap fun r => r.bytes ++ r.padding

/-- Record after record lies at place after place. -/
def Lie (mem : Nat → UInt8) : List Nat → List (Record F) → Prop :=
  List.Forall₂ fun o r => Lies mem o r.bytes

@[simp] theorem bytes_length (r : Record F) : r.bytes.length = r.length := by
  have hhead := r.headed
  rw [bytes, List.length_append, List.length_append, leBytes_length, length]
  omega

@[simp] theorem padded_length (r : Record F) : (r.bytes ++ r.padding).length = F.up r.length := by
  have hup := F.le_up r.length
  rw [List.length_append, bytes_length, padding, List.length_replicate]
  omega

theorem pack_cons (r : Record F) (rs : List (Record F)) :
    pack (r :: rs) = (r.bytes ++ r.padding) ++ pack rs := by
  rw [pack, List.flatMap_cons, ← pack]

section
variable {mem : Nat → UInt8}

theorem lengthAt_of_lies {o : Nat} {r : Record F} (h : Lies mem o r.bytes) :
    F.lengthAt mem o = r.length := by
  have hlen := leAt_of_lies (lies_append.mp h).1
  rw [leBytes_length] at hlen
  rw [Format.lengthAt, hlen]
  exact leOf_leBytes r.fits

/-- What a header holds behind its length, and the body. -/
theorem rest_lies {o : Nat} {r : Record F} (h : Lies mem o r.bytes) :
    Lies mem (o + F.wide) r.rest ∧ Lies mem (o + F.head) r.body := by
  obtain ⟨-, hrest⟩ := lies_append.mp h
  rw [leBytes_length, lies_append, Nat.add_assoc, r.headed] at hrest
  exact hrest

theorem ok_of_lies {o : Nat} {left : Int} {r : Record F} (h : Lies mem o r.bytes)
    (hroom : (r.length : Int) ≤ left) : F.ok id mem o left = true := by
  have hlen := lengthAt_of_lies h
  have hhead : F.head ≤ r.length := Nat.le_add_right _ _
  rw [Format.ok_iff, hlen]
  simp only [id_eq]
  exact ⟨by omega, hhead, hroom⟩

/-- **Of packed records the walk finds each one and nothing else.** -/
theorem records_pack {o : Nat} {rs : List (Record F)} (h : Lies mem o (pack rs)) :
    Lie mem (F.records mem o (pack rs).length) rs ∧ F.leftOver mem o (pack rs).length = 0 := by
  induction rs generalizing o with
  | nil =>
      have hno : F.ok id mem o ((pack ([] : List (Record F))).length : Int) = false := by
        have hpos := F.head_pos
        simp [Format.ok, pack, Nat.ne_of_gt hpos]
      rw [Format.records_stop hno, Format.leftOver_stop hno]
      exact ⟨List.Forall₂.nil, rfl⟩
  | cons r rs ih =>
      rw [pack_cons, lies_append, padded_length] at h
      obtain ⟨hr, hrs⟩ := h
      have hrec := (lies_append.mp hr).1
      have hlen := lengthAt_of_lies hrec
      have hup := F.le_up r.length
      have htotal : ((pack (r :: rs)).length : Int) = F.up r.length + (pack rs).length := by
        rw [pack_cons, List.length_append, padded_length]
        push_cast
        rfl
      have hok : F.ok id mem o ((pack (r :: rs)).length : Int) = true :=
        ok_of_lies hrec (by omega)
      have hnext : ((pack (r :: rs)).length : Int) - F.up (F.lengthAt mem o) =
          (pack rs).length := by
        rw [hlen, htotal]
        omega
      obtain ⟨hlie, hleft⟩ := ih hrs
      rw [Format.records_step hok, Format.leftOver_step hok, hnext, hlen]
      exact ⟨List.Forall₂.cons hrec hlie, hleft⟩

end

/-- A fold over places is the fold over what the records that lie there stand for, where the
steps are. -/
theorem Lie.foldl_map_eq {σ α : Type*} {mem : Nat → UInt8} {f : σ → Nat → σ} {g : σ → α → σ}
    {record : α → Record F} {os : List Nat} {xs : List α} (h : Lie mem os (xs.map record))
    (hstep : ∀ s o, ∀ x ∈ xs, Lies mem o (record x).bytes → f s o = g s x) (s : σ) :
    os.foldl f s = xs.foldl g s := by
  induction xs generalizing os s with
  | nil =>
      cases h
      rfl
  | cons x xs ih =>
      rw [List.map_cons] at h
      cases h with
      | cons hx hrest =>
          rw [List.foldl_cons, List.foldl_cons, hstep s _ x (List.mem_cons_self ..) hx]
          exact ih hrest (fun s o y hy => hstep s o y (List.mem_cons_of_mem _ hy)) _

theorem Lie.foldl_eq {σ : Type*} {mem : Nat → UInt8} {f : σ → Nat → σ} {g : σ → Record F → σ}
    {os : List Nat} {rs : List (Record F)} (h : Lie mem os rs)
    (hstep : ∀ s o, ∀ r ∈ rs, Lies mem o r.bytes → f s o = g s r) (s : σ) :
    os.foldl f s = rs.foldl g s := by
  have hid : Lie mem os (rs.map id) := by rwa [List.map_id]
  exact hid.foldl_map_eq hstep s

end Record

end Records
