/-
What the hearing holds is what it listens on, and a stop leaves nothing.

Whatever happens to the hearing, and in whatever order: no descriptor or source of it is
lost, released twice, or released under what uses it; a slot in use has its socket and the
source on it, and a free slot nothing; an interface has one sniffer and one tap at most; and
both are there only while the last word about the interface was that it is listened on
(`ears_accounted`).
-/
import ReacPw.HearingHoldings

namespace ReacPw

/-- What a sniffer that listens holds: the knock's sender and timer come and go. -/
def SniffGood (held : Finset SniffRes) : Prop := .capture ∈ held ∧ .io ∈ held

def TapGood (held : Finset TapRes) : Prop := held = {.io, .tap}

/-! ### A sniffer -/

namespace SnifferHold

/-- The slot holds a listening sniffer's descriptors. -/
def Listens (sn : SnifferHold) : Prop := ∃ held, sn.own = .straight held ∧ SniffGood held

theorem knockFd_unused (s : Finset SniffRes) : ∀ u ∈ s, SniffRes.uses u .knockFd = false := by
  intro u _
  cases u <;> rfl

theorem opening_sound {sn : SnifferHold} (hown : sn.own = .straight ∅) (name : LinkName)
    (a : SniffAnswers) :
    (opening sn name a).Sound SniffGood ∧ ∀ k, (opening sn name a).key = some k → k = name := by
  have hwiped := OwnedSlot.wiped_own hown
  have hcapture : (sn.wiped.own.take [] .capture).touch [.capture] = .straight {.capture} := by
    rw [hwiped, Account.take_straight (Finset.notMem_empty _) (by simp),
      Account.touch_straight (by simp)]
    rfl
  unfold opening
  dsimp only
  rw [hcapture]
  split
  · exact ⟨.ofEmpty rfl (OwnedSlot.wiped_own hwiped), fun k h => absurd h (by simp)⟩
  · split
    · refine ⟨.ofEmpty rfl (OwnedSlot.wiped_own ?_), fun k h => absurd h (by simp)⟩
      exact Account.stop_straight _ (by simp) (by simp [SniffRes.uses])
    · refine ⟨.ofGood rfl {.io, .capture} ?_ (by simp [SniffGood]), ?_⟩
      · exact Account.take_straight (by simp) (by simp)
      · intro k h
        exact (Option.some.inj h).symm

theorem closing_own {sn : SnifferHold} (hlistens : sn.Listens) :
    (closing sn).own = .straight ∅ := by
  obtain ⟨held, hown, hcapture, -⟩ := hlistens
  refine OwnedSlot.wiped_own ?_
  have hfirst : Account.UsersFirst SniffRes.uses held [.io, .knockFd, .knockTimer] := by
    refine Account.usersFirst_of_unused _ _ _ fun t ht u _ => ?_
    cases u <;> cases t <;> first | rfl | simp at ht
  rw [OwnedSlot.books_own, hown, Account.freeAll_straight _ _ _ hfirst,
    Account.stop_straight _ (by simpa using hcapture)]
  · congr 1
    ext r
    cases r <;> simp
  · intro u hu
    cases u with
    | io => simp at hu
    | _ => rfl

theorem Listens.knockArm {sn : SnifferHold} (hlistens : sn.Listens) : (knockArm sn).Listens := by
  obtain ⟨held, hown, hgood⟩ := hlistens
  unfold SnifferHold.knockArm
  split
  · rename_i htimer
    refine ⟨held, ?_, hgood⟩
    rw [hown] at htimer
    rw [OwnedSlot.books_own, hown]
    exact Account.touch_straight (by simpa using htimer)
  · exact ⟨held, hown, hgood⟩

/-- Something the sniffer can do without is taken, unless it has it. -/
theorem Listens.take {sn : SnifferHold} (hlistens : sn.Listens) {r : SniffRes}
    (hfresh : r ∉ sn.own.held) : Listens (sn.books (Account.take [] r)) := by
  obtain ⟨held, hown, hcapture, hio⟩ := hlistens
  rw [hown] at hfresh
  refine ⟨insert r held, ?_, Finset.mem_insert_of_mem hcapture, Finset.mem_insert_of_mem hio⟩
  rw [OwnedSlot.books_own, hown]
  exact Account.take_straight hfresh (by simp)

theorem Listens.knockStart {sn : SnifferHold} (hlistens : sn.Listens) (opens timerMade : Bool) :
    (knockStart sn opens timerMade).Listens := by
  unfold SnifferHold.knockStart
  split
  · exact hlistens
  · have hfd : Listens (if .knockFd ∈ sn.own.held then sn
        else sn.books (Account.take [] .knockFd)) := by
      split
      · exact hlistens
      · rename_i hfresh
        exact hlistens.take hfresh
    dsimp only
    generalize (if .knockFd ∈ sn.own.held then sn
      else sn.books (Account.take [] .knockFd)) = sn' at hfd ⊢
    split
    · rename_i hnone
      exact (hfd.take hnone.1).knockArm
    · exact hfd.knockArm

theorem Listens.knockStop {sn : SnifferHold} (hlistens : sn.Listens) : (knockStop sn).Listens := by
  refine Listens.knockArm ?_
  obtain ⟨held, hown, hcapture, hio⟩ := hlistens
  refine ⟨held.erase .knockFd, ?_, by simpa using hcapture, by simpa using hio⟩
  rw [OwnedSlot.books_own, hown]
  exact Account.free_straight _ (knockFd_unused held)

theorem Listens.drain {sn : SnifferHold} (hlistens : sn.Listens) (answered : Bool) :
    (drain sn answered).Listens := by
  have hread : Listens (sn.books (Account.touch [.capture])) := by
    obtain ⟨held, hown, hgood⟩ := hlistens
    refine ⟨held, ?_, hgood⟩
    rw [OwnedSlot.books_own, hown]
    exact Account.touch_straight (by simpa using hgood.1)
  unfold SnifferHold.drain
  dsimp only
  split
  · exact hread.knockStop
  · exact hread

theorem Listens.onKnockTimer {sn : SnifferHold} (hlistens : sn.Listens) :
    (onKnockTimer sn).Listens := by
  unfold SnifferHold.onKnockTimer
  split
  · exact hlistens
  · rename_i hfd
    rw [not_not] at hfd
    refine Listens.knockArm ?_
    obtain ⟨held, hown, hgood⟩ := hlistens
    rw [hown] at hfd
    refine ⟨held, ?_, hgood⟩
    rw [OwnedSlot.books_own, hown]
    exact Account.touch_straight (by simpa using hfd)

/-! Whose a slot is, nothing that happens to the sniffer changes. -/

@[simp] theorem knockArm_key (sn : SnifferHold) : (knockArm sn).key = sn.key := by
  unfold knockArm
  split <;> rfl

@[simp] theorem knockStop_key (sn : SnifferHold) : (knockStop sn).key = sn.key := by
  unfold knockStop
  rw [knockArm_key, OwnedSlot.books_key]

@[simp] theorem knockStart_key (sn : SnifferHold) (opens timerMade : Bool) :
    (knockStart sn opens timerMade).key = sn.key := by
  unfold knockStart
  split
  · rfl
  · rw [knockArm_key]
    split <;> split <;> rfl

@[simp] theorem drain_key (sn : SnifferHold) (answered : Bool) :
    (drain sn answered).key = sn.key := by
  unfold drain
  dsimp only
  split
  · rw [knockStop_key, OwnedSlot.books_key]
  · rfl

@[simp] theorem onKnockTimer_key (sn : SnifferHold) : (onKnockTimer sn).key = sn.key := by
  unfold onKnockTimer
  split
  · rfl
  · rw [knockArm_key, OwnedSlot.books_key]

@[simp] theorem hunted_key (sn : SnifferHold) (answered : Bool) (k : HuntKnock) :
    (hunted sn answered k).key = sn.key := by
  unfold hunted
  split
  · rfl
  · cases k <;> simp

theorem Listens.hunted {sn : SnifferHold} (hlistens : sn.Listens) (answered : Bool)
    (k : HuntKnock) : (hunted sn answered k).Listens := by
  unfold SnifferHold.hunted
  split
  · exact hlistens
  · have hread := hlistens.drain answered
    cases k with
    | leaves => exact hread
    | stops => exact hread.knockStop
    | starts opens timerMade => exact hread.knockStart opens timerMade

/-- A sound slot that listens, or is nobody's. -/
theorem sound_cases {sn : SnifferHold} (hs : sn.Sound SniffGood) :
    (sn.key = none ∧ sn.own = .straight ∅) ∨ ∃ k, sn.key = some k ∧ sn.Listens := by
  cases hkey : sn.key with
  | none => exact Or.inl ⟨rfl, hs.empty hkey⟩
  | some k => exact Or.inr ⟨k, rfl, hs.good k hkey⟩

end SnifferHold

/-! ### A tap -/

namespace TapHold

theorem opening_sound {tp : TapHold} (hkey : tp.key = none) (hown : tp.own = .straight ∅)
    (name : LinkName) (a : TapAnswers) :
    (opening tp name a).Sound TapGood ∧ ∀ k, (opening tp name a).key = some k → k = name := by
  have hnobody : ∀ {s : TapHold}, s.key = none → s.own = .straight ∅ →
      s.Sound TapGood ∧ ∀ k, s.key = some k → k = name := fun hkey hown =>
    ⟨.ofEmpty hkey hown, fun k h => absurd (hkey.symm.trans h) (by simp)⟩
  have htaken : Account.take [] .tap (Account.straight (∅ : Finset TapRes)) = .straight {.tap} :=
    Account.take_straight (Finset.notMem_empty _) (by simp)
  have hclosed : Account.stop TapRes.uses .tap (.straight {.tap}) = .straight ∅ :=
    Account.stop_straight _ (by simp) (by simp [TapRes.uses])
  unfold opening
  split
  · exact hnobody hkey hown
  · split
    · refine hnobody hkey ?_
      rw [OwnedSlot.books_own, hown, htaken, hclosed]
    · dsimp only
      rw [OwnedSlot.wiped_own hown, htaken, Account.touch_straight (by simp)]
      split
      · exact hnobody rfl (OwnedSlot.wiped_own hclosed)
      · refine ⟨.ofGood rfl {.io, .tap} ?_ ?_, ?_⟩
        · exact Account.take_straight (by simp) (by simp)
        · rfl
        · intro k h
          exact (Option.some.inj h).symm

theorem closing_own {tp : TapHold} (hown : tp.own = .straight {.io, .tap}) :
    (closing tp).own = .straight ∅ := by
  refine OwnedSlot.wiped_own ?_
  rw [OwnedSlot.books_own, hown, Account.free_straight _ (by simp [TapRes.uses]),
    Account.stop_straight _ (by simp)]
  · congr 1
  · intro u hu
    cases u with
    | io => simp at hu
    | tap => rfl

end TapHold

/-! ### The tables -/

namespace Ears

variable {n m : Nat}

/-- The books of the hearing. -/
structure Kept (h : Ears n m) : Prop where
  sniff : OwnedSlot.Kept SniffGood h.sniff
  taps : OwnedSlot.Kept TapGood h.taps
  own : h.own = .straight (if h.enabled then {.io, .scan} else ∅)

variable {h : Ears n m}

/-- The table of sniffers, with one of them replaced. -/
theorem Kept.setSniff (hk : h.Kept) {i : Fin n} {sn : SnifferHold}
    (hs : OwnedSlot.Kept SniffGood (Function.update h.sniff i sn)) : (h.setSniff i sn).Kept :=
  ⟨hs, hk.taps, hk.own⟩

theorem Kept.setTap (hk : h.Kept) {j : Fin m} {tp : TapHold}
    (hs : OwnedSlot.Kept TapGood (Function.update h.taps j tp)) : (h.setTap j tp).Kept :=
  ⟨hk.sniff, hs, hk.own⟩

/-- What became of the books, of the sniffers and of the taps. -/
structure Goes (h' : Ears n m) (sniffs taps : LinkName → Prop) : Prop where
  kept : h'.Kept
  sniff : ∀ name, OwnedSlot.Has h'.sniff name → sniffs name
  tap : ∀ name, OwnedSlot.Has h'.taps name → taps name

/-- Nothing new is listened on. -/
theorem Kept.stays (hk : h.Kept) : h.Goes (OwnedSlot.Has h.sniff) (OwnedSlot.Has h.taps) :=
  ⟨hk, fun _ => id, fun _ => id⟩

theorem Goes.mono {sniffs sniffs' taps taps' : LinkName → Prop} (hg : h.Goes sniffs taps)
    (hsniff : ∀ name, sniffs name → sniffs' name) (htap : ∀ name, taps name → taps' name) :
    h.Goes sniffs' taps' :=
  ⟨hg.kept, fun name hhas => hsniff name (hg.sniff name hhas),
    fun name hhas => htap name (hg.tap name hhas)⟩

theorem Kept.snifferOpenEx (hk : h.Kept) (name : LinkName) (a : SniffAnswers) :
    (h.snifferOpenEx name a).Goes (fun k => OwnedSlot.Has h.sniff k ∨ k = name)
      (OwnedSlot.Has h.taps) := by
  have hsame : h.Goes (fun k => OwnedSlot.Has h.sniff k ∨ k = name) (OwnedSlot.Has h.taps) :=
    hk.stays.mono (fun _ => Or.inl) fun _ => id
  unfold Ears.snifferOpenEx
  split
  · exact hsame
  · rename_i hnone
    rw [Option.not_isSome_iff_eq_none] at hnone
    cases hfree : OwnedSlot.free h.sniff with
    | none => exact hsame
    | some i =>
        have hown := (hk.sniff.sound i).empty (OwnedSlot.free_key hfree)
        obtain ⟨hsound, hkey⟩ := SnifferHold.opening_sound hown name a
        obtain ⟨hkept, hhas⟩ := hk.sniff.take hnone hsound hkey
        exact ⟨hk.setSniff hkept, hhas, fun _ => id⟩

theorem Kept.snifferClose (hk : h.Kept) (name : LinkName) :
    (h.snifferClose name).Goes (fun k => OwnedSlot.Has h.sniff k ∧ k ≠ name)
      (OwnedSlot.Has h.taps) := by
  unfold Ears.snifferClose
  cases hfound : OwnedSlot.find h.sniff name with
  | none => exact ⟨hk, OwnedSlot.has_other hfound, fun _ => id⟩
  | some i =>
      have hkey := OwnedSlot.find_key hfound
      have hown := SnifferHold.closing_own ((hk.sniff.sound i).good name hkey)
      obtain ⟨hkept, hhas⟩ := hk.sniff.giveBack hkey (OwnedSlot.wiped_key _) hown
      exact ⟨hk.setSniff hkept, hhas, fun _ => id⟩

theorem Kept.topoWatchIface (hk : h.Kept) (name : LinkName) (a : TapAnswers) :
    (h.topoWatchIface name a).Goes (OwnedSlot.Has h.sniff)
      fun k => OwnedSlot.Has h.taps k ∨ k = name := by
  have hsame : h.Goes (OwnedSlot.Has h.sniff) fun k => OwnedSlot.Has h.taps k ∨ k = name :=
    hk.stays.mono (fun _ => id) fun _ => Or.inl
  unfold Ears.topoWatchIface
  split
  · exact hsame
  · rename_i hnone
    simp only [Bool.or_eq_true, not_or] at hnone
    have hnone := Option.not_isSome_iff_eq_none.mp hnone.1.1
    cases hfree : OwnedSlot.free h.taps with
    | none => exact hsame
    | some j =>
        have hkey := OwnedSlot.free_key hfree
        obtain ⟨hsound, hnamed⟩ :=
          TapHold.opening_sound hkey ((hk.taps.sound j).empty hkey) name a
        obtain ⟨hkept, hhas⟩ := hk.taps.take hnone hsound hnamed
        exact ⟨hk.setTap hkept, fun _ => id, hhas⟩

theorem Kept.topoUnwatchIface (hk : h.Kept) (name : LinkName) :
    (h.topoUnwatchIface name).Goes (OwnedSlot.Has h.sniff)
      fun k => OwnedSlot.Has h.taps k ∧ k ≠ name := by
  unfold Ears.topoUnwatchIface
  cases hfound : OwnedSlot.find h.taps name with
  | none => exact ⟨hk, fun _ => id, OwnedSlot.has_other hfound⟩
  | some j =>
      have hkey := OwnedSlot.find_key hfound
      obtain ⟨held, hown, rfl⟩ := (hk.taps.sound j).good name hkey
      obtain ⟨hkept, hhas⟩ :=
        hk.taps.giveBack hkey (OwnedSlot.wiped_key _) (TapHold.closing_own hown)
      exact ⟨hk.setTap hkept, fun _ => id, hhas⟩

/-- An interface's sniffer and its tap are closed. -/
theorem Kept.closeBoth (hk : h.Kept) (name : LinkName) :
    ((h.snifferClose name).topoUnwatchIface name).Goes (fun k => OwnedSlot.Has h.sniff k ∧ k ≠ name)
      fun k => OwnedSlot.Has h.taps k ∧ k ≠ name := by
  have hclosed := hk.snifferClose name
  exact (hclosed.kept.topoUnwatchIface name).mono hclosed.sniff
    fun k hhas => ⟨hclosed.tap k hhas.1, hhas.2⟩

/-! ### The stop -/

theorem Kept.unwatchSlot (hk : h.Kept) (j : Fin m) :
    (h.unwatchSlot j).Kept ∧ (h.unwatchSlot j).enabled = h.enabled ∧
      ∀ j' k, ((h.unwatchSlot j).taps j').key = some k → (h.taps j').key = some k ∧ j' ≠ j := by
  unfold Ears.unwatchSlot
  cases hkey : (h.taps j).key with
  | none =>
      refine ⟨hk, rfl, fun j' k hj' => ⟨hj', ?_⟩⟩
      rintro rfl
      exact absurd (hkey.symm.trans hj') (by simp)
  | some parent =>
      obtain ⟨held, hown, rfl⟩ := (hk.taps.sound j).good parent hkey
      obtain ⟨hkept, -⟩ :=
        hk.taps.giveBack hkey (OwnedSlot.wiped_key _) (TapHold.closing_own hown)
      dsimp only
      unfold Ears.topoUnwatchIface
      rw [hk.taps.find_eq hkey]
      refine ⟨hk.setTap hkept, rfl, fun j' k hj' => ?_⟩
      rcases OwnedSlot.key_update hj' with ⟨-, hs⟩ | ⟨hne, hold⟩
      · exact absurd hs (by simp [TapHold.closing])
      · exact ⟨hold, hne⟩

theorem Kept.closeSlot (hk : h.Kept) (i : Fin n) :
    (h.closeSlot i).Kept ∧ (h.closeSlot i).enabled = h.enabled ∧
      (h.closeSlot i).taps = h.taps ∧
      ∀ i' k, ((h.closeSlot i).sniff i').key = some k → (h.sniff i').key = some k ∧ i' ≠ i := by
  unfold Ears.closeSlot
  cases hkey : (h.sniff i).key with
  | none =>
      refine ⟨hk, rfl, rfl, fun i' k hi' => ⟨hi', ?_⟩⟩
      rintro rfl
      exact absurd (hkey.symm.trans hi') (by simp)
  | some name =>
      have hown := SnifferHold.closing_own ((hk.sniff.sound i).good name hkey)
      obtain ⟨hkept, -⟩ := hk.sniff.giveBack hkey (OwnedSlot.wiped_key _) hown
      dsimp only
      unfold Ears.snifferClose
      rw [hk.sniff.find_eq hkey]
      refine ⟨hk.setSniff hkept, rfl, rfl, fun i' k hi' => ?_⟩
      rcases OwnedSlot.key_update hi' with ⟨-, hs⟩ | ⟨hne, hold⟩
      · exact absurd hs (by simp [SnifferHold.closing])
      · exact ⟨hold, hne⟩

/-- The taps of these slots are closed, one after the other. -/
theorem Kept.unwatchSlots :
    ∀ (js : List (Fin m)) {h : Ears n m}, h.Kept →
      (js.foldl Ears.unwatchSlot h).Kept ∧ (js.foldl Ears.unwatchSlot h).enabled = h.enabled ∧
        ∀ j k, ((js.foldl Ears.unwatchSlot h).taps j).key = some k →
          (h.taps j).key = some k ∧ j ∉ js := by
  intro js
  induction js with
  | nil => intro h hk; exact ⟨hk, rfl, fun j k hj => ⟨hj, List.not_mem_nil⟩⟩
  | cons j₀ js ih =>
      intro h hk
      obtain ⟨hfirst, hon, hkeys⟩ := hk.unwatchSlot j₀
      obtain ⟨hrest, hon', hkeys'⟩ := ih hfirst
      refine ⟨hrest, hon'.trans hon, fun j k hj => ?_⟩
      obtain ⟨hmid, hnot⟩ := hkeys' j k hj
      obtain ⟨hold, hne⟩ := hkeys j k hmid
      exact ⟨hold, by simp [hne, hnot]⟩

theorem Kept.closeSlots :
    ∀ (is : List (Fin n)) {h : Ears n m}, h.Kept →
      (is.foldl Ears.closeSlot h).Kept ∧ (is.foldl Ears.closeSlot h).enabled = h.enabled ∧
        (is.foldl Ears.closeSlot h).taps = h.taps ∧
        ∀ i k, ((is.foldl Ears.closeSlot h).sniff i).key = some k →
          (h.sniff i).key = some k ∧ i ∉ is := by
  intro is
  induction is with
  | nil => intro h hk; exact ⟨hk, rfl, rfl, fun i k hi => ⟨hi, List.not_mem_nil⟩⟩
  | cons i₀ is ih =>
      intro h hk
      obtain ⟨hfirst, hon, htaps, hkeys⟩ := hk.closeSlot i₀
      obtain ⟨hrest, hon', htaps', hkeys'⟩ := ih hfirst
      refine ⟨hrest, hon'.trans hon, htaps'.trans htaps, fun i k hi => ?_⟩
      obtain ⟨hmid, hnot⟩ := hkeys' i k hi
      obtain ⟨hold, hne⟩ := hkeys i k hmid
      exact ⟨hold, by simp [hne, hnot]⟩

/-- Nobody is listened on. -/
def Silent (h : Ears n m) : Prop :=
  (∀ name, ¬ OwnedSlot.Has h.sniff name) ∧ ∀ name, ¬ OwnedSlot.Has h.taps name

/-- **A stop leaves nothing.** -/
theorem Kept.hearingStop (hk : h.Kept) (hon : h.enabled = true) :
    h.hearingStop.Kept ∧ h.hearingStop.enabled = false ∧ h.hearingStop.Silent := by
  obtain ⟨htapped, honTap, hnoTap⟩ := Kept.unwatchSlots (List.finRange m) hk
  obtain ⟨hclosed, honSniff, htaps, hnoSniff⟩ := htapped.closeSlots (List.finRange n)
  unfold Ears.hearingStop
  rw [if_neg (by simp [hon])]
  dsimp only
  generalize (List.finRange n).foldl Ears.closeSlot
    ((List.finRange m).foldl Ears.unwatchSlot h) = h' at hclosed honSniff htaps hnoSniff ⊢
  refine ⟨⟨hclosed.sniff, hclosed.taps, ?_⟩, rfl, ?_, ?_⟩
  · show (h'.own.free ScanRes.uses .io).stop ScanRes.uses .scan = .straight ∅
    rw [hclosed.own, if_pos (honSniff.trans (honTap.trans hon)),
      Account.free_straight _ (by simp [ScanRes.uses]), Account.stop_straight _ (by simp)]
    · congr 1
    · intro u hu
      cases u with
      | io => simp at hu
      | scan => rfl
  · rintro name ⟨i, hi⟩
    exact (hnoSniff i name hi).2 (List.mem_finRange i)
  · rintro name ⟨j, hj⟩
    have hj : (h'.taps j).key = some name := hj
    rw [htaps] at hj
    exact (hnoTap j name hj).2 (List.mem_finRange j)

/-! ### One event -/

@[simp] theorem snifferOpenEx_enabled (h : Ears n m) (name : LinkName) (a : SniffAnswers) :
    (h.snifferOpenEx name a).enabled = h.enabled := by
  unfold Ears.snifferOpenEx
  split
  · rfl
  · cases OwnedSlot.free h.sniff <;> rfl

@[simp] theorem snifferClose_enabled (h : Ears n m) (name : LinkName) :
    (h.snifferClose name).enabled = h.enabled := by
  unfold Ears.snifferClose
  cases OwnedSlot.find h.sniff name <;> rfl

@[simp] theorem topoWatchIface_enabled (h : Ears n m) (name : LinkName) (a : TapAnswers) :
    (h.topoWatchIface name a).enabled = h.enabled := by
  unfold Ears.topoWatchIface
  split
  · rfl
  · cases OwnedSlot.free h.taps <;> rfl

@[simp] theorem topoUnwatchIface_enabled (h : Ears n m) (name : LinkName) :
    (h.topoUnwatchIface name).enabled = h.enabled := by
  unfold Ears.topoUnwatchIface
  cases OwnedSlot.find h.taps name <;> rfl

end Ears

namespace EarEvent

variable {n m : Nat}

/-- The event has the interface sniffed. -/
def opensSniffer (name : LinkName) : EarEvent n m → Prop
  | .listen nm ignored _ _ => nm = name ∧ ignored = false
  | .rehear nm _ => nm = name
  | _ => False

def closesSniffer (name : LinkName) : EarEvent n m → Prop
  | .unlisten nm | .drop nm => nm = name
  | .serve nm ignored keep => nm = name ∧ ignored = false ∧ keep = false
  | .stop => True
  | _ => False

def opensTap (name : LinkName) : EarEvent n m → Prop
  | .listen nm ignored _ _ => nm = name ∧ ignored = false
  | _ => False

def closesTap (name : LinkName) : EarEvent n m → Prop
  | .unlisten nm | .drop nm => nm = name
  | .stop => True
  | _ => False

end EarEvent

namespace Ears

variable {n m : Nat} {h : Ears n m}

/-- Who is sniffed after an event, and who is tapped. -/
def GoesBy (h h' : Ears n m) (e : EarEvent n m) : Prop :=
  h'.Goes (fun name => e.opensSniffer name ∨ OwnedSlot.Has h.sniff name ∧ ¬ e.closesSniffer name)
    fun name => e.opensTap name ∨ OwnedSlot.Has h.taps name ∧ ¬ e.closesTap name

/-- An event about no interface. -/
theorem Goes.quiet {h' : Ears n m} {e : EarEvent n m}
    (hg : h'.Goes (OwnedSlot.Has h.sniff) (OwnedSlot.Has h.taps))
    (hsniff : ∀ name, ¬ e.closesSniffer name) (htap : ∀ name, ¬ e.closesTap name) :
    GoesBy h h' e :=
  hg.mono (fun name hhas => Or.inr ⟨hhas, hsniff name⟩) fun name hhas => Or.inr ⟨hhas, htap name⟩

/-- Something happens to a sniffer whose source or timer is live, which is a sniffer's. -/
theorem Kept.sniffs (hk : h.Kept) {i : Fin n} {r : SniffRes} (hlive : r ∈ (h.sniff i).own.live)
    {sn : SnifferHold} (hkey : sn.key = (h.sniff i).key)
    (hlistens : SnifferHold.Listens (h.sniff i) → sn.Listens) :
    (h.setSniff i sn).Goes (OwnedSlot.Has h.sniff) (OwnedSlot.Has h.taps) := by
  rcases SnifferHold.sound_cases (hk.sniff.sound i) with ⟨-, hown⟩ | ⟨k, hname, hold⟩
  · rw [hown] at hlive
    exact absurd hlive (Finset.notMem_empty _)
  · obtain ⟨held, hown, hgood⟩ := hlistens hold
    obtain ⟨hkept, hhas⟩ := hk.sniff.change (.ofGood (hkey.trans hname) held hown hgood) hkey
    exact ⟨hk.setSniff hkept, hhas, fun _ => id⟩

theorem Kept.hunted (hk : h.Kept) (i : Fin n) (answered : Bool) (k : HuntKnock) :
    (h.setSniff i (SnifferHold.hunted (h.sniff i) answered k)).Goes (OwnedSlot.Has h.sniff)
      (OwnedSlot.Has h.taps) := by
  have hsound : (SnifferHold.hunted (h.sniff i) answered k).Sound SniffGood := by
    rcases SnifferHold.sound_cases (hk.sniff.sound i) with ⟨hkey, hown⟩ | ⟨name, hkey, hold⟩
    · unfold SnifferHold.hunted
      rw [if_pos hkey]
      exact .ofEmpty hkey hown
    · obtain ⟨held, hown, hgood⟩ := hold.hunted answered k
      exact .ofGood ((SnifferHold.hunted_key _ _ _).trans hkey) held hown hgood
  obtain ⟨hkept, hhas⟩ := hk.sniff.change hsound (SnifferHold.hunted_key _ _ _)
  exact ⟨hk.setSniff hkept, hhas, fun _ => id⟩

theorem Kept.topoIo (hk : h.Kept) {j : Fin m} (hlive : .io ∈ (h.taps j).own.live) :
    (h.setTap j ((h.taps j).books (Account.touch [.tap]))).Goes (OwnedSlot.Has h.sniff)
      (OwnedSlot.Has h.taps) := by
  have hsound : ((h.taps j).books (Account.touch [.tap])).Sound TapGood := by
    cases hkey : (h.taps j).key with
    | none =>
        rw [(hk.taps.sound j).empty hkey] at hlive
        exact absurd hlive (Finset.notMem_empty _)
    | some k =>
        obtain ⟨held, hown, rfl⟩ := (hk.taps.sound j).good k hkey
        refine .ofGood hkey {.io, .tap} ?_ ?_
        · rw [OwnedSlot.books_own, hown]
          exact Account.touch_straight (by simp)
        · rfl
  obtain ⟨hkept, hhas⟩ := hk.taps.change hsound rfl
  exact ⟨hk.setTap hkept, fun _ => id, hhas⟩

/-- **An event keeps the books**, and has nobody sniffed or tapped but by its own word. -/
theorem Kept.on (hk : h.Kept) (hon : h.enabled = true) (e : EarEvent n m) :
    GoesBy h (h.on e) e := by
  cases e with
  | listen name ignored a t =>
      show GoesBy h (if ignored then h else _) _
      split
      · exact hk.stays.quiet (fun _ => id) fun _ => id
      · rename_i hheard
        have hheard : ignored = false := by simpa using hheard
        have hopened := hk.snifferOpenEx name a
        refine (hopened.kept.topoWatchIface name t).mono (fun k hhas => ?_) fun k hhas => ?_
        · rcases hopened.sniff k hhas with hold | rfl
          · exact Or.inr ⟨hold, id⟩
          · exact Or.inl ⟨rfl, hheard⟩
        · rcases hhas with hhas | rfl
          · exact Or.inr ⟨hopened.tap k hhas, id⟩
          · exact Or.inl ⟨rfl, hheard⟩
  | unlisten name =>
      exact (hk.closeBoth name).mono (fun k hhas => Or.inr ⟨hhas.1, Ne.symm hhas.2⟩)
        fun k hhas => Or.inr ⟨hhas.1, Ne.symm hhas.2⟩
  | drop name =>
      exact (hk.closeBoth name).mono (fun k hhas => Or.inr ⟨hhas.1, Ne.symm hhas.2⟩)
        fun k hhas => Or.inr ⟨hhas.1, Ne.symm hhas.2⟩
  | serve name ignored keep =>
      show GoesBy h (if ignored || keep then h else _) _
      split
      · rename_i hkeeps
        refine hk.stays.quiet (fun k hcloses => ?_) fun _ => id
        rw [hcloses.2.1, hcloses.2.2] at hkeeps
        exact absurd hkeeps Bool.false_ne_true
      · refine (hk.snifferClose name).mono (fun k hhas => ?_) fun k hhas => Or.inr ⟨hhas, id⟩
        exact Or.inr ⟨hhas.1, fun hcloses => hhas.2 hcloses.1.symm⟩
  | rehear name a =>
      have hclosed := hk.snifferClose name
      refine (hclosed.kept.snifferOpenEx name a).mono (fun k hhas => ?_) fun k hhas => ?_
      · rcases hhas with hhas | rfl
        · exact Or.inr ⟨(hclosed.sniff k hhas).1, id⟩
        · exact Or.inl rfl
      · exact Or.inr ⟨hclosed.tap k hhas, id⟩
  | sniffIo i answered =>
      show GoesBy h (if _ then _ else h) _
      split
      · rename_i hlive
        exact (hk.sniffs hlive (SnifferHold.drain_key _ _) fun hold => hold.drain answered).quiet
          (fun _ => id) fun _ => id
      · exact hk.stays.quiet (fun _ => id) fun _ => id
  | knockTimer i =>
      show GoesBy h (if _ then _ else h) _
      split
      · rename_i hlive
        exact (hk.sniffs hlive (SnifferHold.onKnockTimer_key _) fun hold => hold.onKnockTimer).quiet
          (fun _ => id) fun _ => id
      · exact hk.stays.quiet (fun _ => id) fun _ => id
  | hunt i answered k => exact (hk.hunted i answered k).quiet (fun _ => id) fun _ => id
  | topoIo j =>
      show GoesBy h (if _ then _ else h) _
      split
      · rename_i hlive
        exact (hk.topoIo hlive).quiet (fun _ => id) fun _ => id
      · exact hk.stays.quiet (fun _ => id) fun _ => id
  | stop =>
      obtain ⟨hkept, -, hnoSniff, hnoTap⟩ := hk.hearingStop hon
      exact ⟨hkept, fun k hhas => absurd hhas (hnoSniff k), fun k hhas => absurd hhas (hnoTap k)⟩

/-! ### A run -/

/-- Once the hearing is off, nobody is listened on. -/
structure Inv (h : Ears n m) : Prop extends h.Kept where
  off : h.enabled = false → h.Silent

theorem Inv.start (opens ioAdded : Bool) :
    (Ears.hearingStart opens ioAdded : Ears n m).Inv ∧
      (Ears.hearingStart opens ioAdded : Ears n m).Silent := by
  -- nobody is listened on yet, so the watch's own account is all there is
  have hfresh : ∀ h : Ears n m, (h.sniff = fun _ => .fresh) → (h.taps = fun _ => .fresh) →
      h.own = .straight (if h.enabled then {.io, .scan} else ∅) → h.Inv ∧ h.Silent := by
    intro h hsniff htaps hown
    have hsilent : h.Silent := by
      constructor
      · rintro name ⟨i, hi⟩
        rw [hsniff] at hi
        exact absurd hi (by simp [OwnedSlot.fresh])
      · rintro name ⟨j, hj⟩
        rw [htaps] at hj
        exact absurd hj (by simp [OwnedSlot.fresh])
    exact ⟨⟨⟨hsniff ▸ OwnedSlot.kept_fresh, htaps ▸ OwnedSlot.kept_fresh, hown⟩, fun _ => hsilent⟩,
      hsilent⟩
  have hscan : Account.take [] .scan (Account.straight (∅ : Finset ScanRes)) = .straight {.scan} :=
    Account.take_straight (Finset.notMem_empty _) (by simp)
  unfold Ears.hearingStart
  dsimp only
  rw [hscan]
  split
  · exact hfresh _ rfl rfl rfl
  · split
    · refine hfresh _ rfl rfl ?_
      exact Account.stop_straight _ (by simp) (by simp [ScanRes.uses])
    · refine hfresh _ rfl rfl ?_
      exact Account.take_straight (by simp) (by simp)

/-- What an event is carried out on stays on, but for a stop. -/
theorem on_enabled (h : Ears n m) {e : EarEvent n m} (hrest : e ≠ .stop) :
    (h.on e).enabled = h.enabled := by
  cases e with
  | listen name ignored a t => cases ignored <;> simp [Ears.on]
  | unlisten name => simp [Ears.on]
  | serve name ignored keep => cases ignored <;> cases keep <;> simp [Ears.on]
  | drop name => simp [Ears.on]
  | rehear name a => simp [Ears.on]
  | sniffIo i answered => unfold Ears.on; dsimp only; split <;> rfl
  | knockTimer i => unfold Ears.on; dsimp only; split <;> rfl
  | hunt i answered k => rfl
  | topoIo j => unfold Ears.on; dsimp only; split <;> rfl
  | stop => exact absurd rfl hrest

theorem Inv.step (hi : h.Inv) (e : EarEvent n m) :
    (earStep h e).Inv ∧ GoesBy h (earStep h e) e ∧ (e = .stop → (earStep h e).enabled = false) ∧
      (h.enabled = false → (earStep h e).enabled = false) := by
  unfold earStep
  cases hon : h.enabled with
  | false =>
      rw [if_neg Bool.false_ne_true]
      obtain ⟨hnoSniff, hnoTap⟩ := hi.off hon
      exact ⟨hi, ⟨hi.toKept, fun k hhas => absurd hhas (hnoSniff k),
        fun k hhas => absurd hhas (hnoTap k)⟩, fun _ => hon, fun _ => hon⟩
  | true =>
      rw [if_pos rfl]
      have hgoes := hi.toKept.on hon e
      by_cases hstop : e = .stop
      · subst hstop
        obtain ⟨-, hoff, hsilent⟩ := hi.toKept.hearingStop hon
        exact ⟨⟨hgoes.kept, fun _ => hsilent⟩, hgoes, fun _ => hoff, fun h => absurd h (by simp)⟩
      · have hstays := (on_enabled h hstop).trans hon
        exact ⟨⟨hgoes.kept, fun hoff => absurd (hstays.symm.trans hoff) (by simp)⟩, hgoes,
          fun h => absurd h hstop, fun h => absurd h (by simp)⟩

/-- The last word of a run about an interface is that it is opened. -/
def Since (opens closes : LinkName → EarEvent n m → Prop) (run : List (EarEvent n m))
    (name : LinkName) : Prop :=
  ∃ before e after, run = before ++ e :: after ∧ opens name e ∧ ∀ e' ∈ after, ¬ closes name e'

theorem Since.concat {opens closes : LinkName → EarEvent n m → Prop} {run : List (EarEvent n m)}
    {name : LinkName} {e : EarEvent n m}
    (hword : opens name e ∨ Since opens closes run name ∧ ¬ closes name e) :
    Since opens closes (run ++ [e]) name := by
  rcases hword with hopens | ⟨⟨before, e₀, after, rfl, hopens, hrest⟩, hnot⟩
  · exact ⟨run, e, [], rfl, hopens, fun _ h => absurd h List.not_mem_nil⟩
  · refine ⟨before, e₀, after ++ [e], by simp, hopens, fun e' he' => ?_⟩
    rcases List.mem_append.mp he' with hin | hlast
    · exact hrest e' hin
    · rw [List.mem_singleton.mp hlast]
      exact hnot

/-- The books are straight, and who is listened on is who should be. -/
structure Accounted (h : Ears n m) (run : List (EarEvent n m)) : Prop extends h.Kept where
  sniffed : ∀ name, OwnedSlot.Has h.sniff name →
    Since EarEvent.opensSniffer EarEvent.closesSniffer run name
  tapped : ∀ name, OwnedSlot.Has h.taps name →
    Since EarEvent.opensTap EarEvent.closesTap run name
  stopped : .stop ∈ run → h.own = .straight ∅ ∧ (∀ i, (h.sniff i).own = .straight ∅) ∧
    ∀ j, (h.taps j).own = .straight ∅

theorem Inv.stopped (hi : h.Inv) (hoff : h.enabled = false) :
    h.own = .straight ∅ ∧ (∀ i, (h.sniff i).own = .straight ∅) ∧
      ∀ j, (h.taps j).own = .straight ∅ := by
  obtain ⟨hnoSniff, hnoTap⟩ := hi.off hoff
  refine ⟨?_, fun i => (hi.sniff.sound i).empty ?_, fun j => (hi.taps.sound j).empty ?_⟩
  · rw [hi.own, hoff, if_neg Bool.false_ne_true]
  · exact Option.eq_none_iff_forall_ne_some.mpr fun k hk => hnoSniff k ⟨i, hk⟩
  · exact Option.eq_none_iff_forall_ne_some.mpr fun k hk => hnoTap k ⟨j, hk⟩

theorem run_accounted (opens ioAdded : Bool) (run : List (EarEvent n m)) :
    let h := (earMachine n m).after (Ears.hearingStart opens ioAdded) run
    h.Inv ∧ h.Accounted run ∧ (.stop ∈ run → h.enabled = false) := by
  induction run using List.reverseRecOn with
  | nil =>
      obtain ⟨hi, hnoSniff, hnoTap⟩ := Inv.start (n := n) (m := m) opens ioAdded
      exact ⟨hi, ⟨hi.toKept, fun name hhas => absurd hhas (hnoSniff name),
        fun name hhas => absurd hhas (hnoTap name), fun h => absurd h List.not_mem_nil⟩,
        fun h => absurd h List.not_mem_nil⟩
  | append_singleton run e ih =>
      obtain ⟨hi, hacc, hoff⟩ := ih
      rw [StepMachine.after_concat]
      generalize (earMachine n m).after (Ears.hearingStart opens ioAdded) run = h at hi hacc hoff
      obtain ⟨hi', hgoes, hstop, hstays⟩ := hi.step e
      have hended : .stop ∈ run ++ [e] → (earStep h e).enabled = false := by
        intro hmem
        rcases List.mem_append.mp hmem with hin | hlast
        · exact hstays (hoff hin)
        · exact hstop (List.mem_singleton.mp hlast).symm
      refine ⟨hi', ⟨hi'.toKept, fun name hhas => ?_, fun name hhas => ?_,
        fun hmem => hi'.stopped (hended hmem)⟩, hended⟩
      · exact Since.concat ((hgoes.sniff name hhas).imp_right fun hold =>
          ⟨hacc.sniffed name hold.1, hold.2⟩)
      · exact Since.concat ((hgoes.tap name hhas).imp_right fun hold =>
          ⟨hacc.tapped name hold.1, hold.2⟩)

end Ears

/-- **What the hearing holds is what it listens on.**  In every run nothing of it is lost,
released twice, or released under what uses it; each slot in use holds its socket and the
source on it, a free one nothing, and no interface has two; a sniffer and a tap are there only
while the last word about the interface has it listened on; and a stop leaves nothing. -/
theorem ears_accounted {n m : Nat} (opens ioAdded : Bool) (run : List (EarEvent n m)) :
    ((earMachine n m).after (Ears.hearingStart opens ioAdded) run).Accounted run :=
  (Ears.run_accounted opens ioAdded run).2.1

end ReacPw
