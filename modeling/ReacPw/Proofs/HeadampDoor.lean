/-
What the head-amp readback claims, and what the pacer was given.

The write loop notes every cell in the readback's table, whether or not the ring took its
command.  So the table and the ring part company where a command is dropped, and only
there: a later command for the same cell, or an equal value the ring took before, mends
it.  `CellsFit` says that of a write from the room the ring has and nothing else.
-/
import ReacPw.HeadampDoor

namespace ReacPw

variable {limits : HeadampLimits}

/-! ### What is read is in range -/

theorem parseKey_lt {rest : List Char} {cell : HeadampCell}
    (hcell : headampParseKey limits rest = .ok cell) : cell.1 < limits.maxCh := by
  unfold headampParseKey at hcell
  split at hcell
  · split at hcell
    · exact absurd hcell (by simp)
    · split at hcell
      · exact absurd hcell (by simp)
      · rename_i hbounds
        rw [← Except.ok.inj hcell]
        show Int.toNat _ < limits.maxCh
        omega
  · exact absurd hcell (by simp)

theorem parseCell_inRange {rest : List Char} {value : ParamPod} {s : HeadampSetting}
    (hs : parseCell limits rest value = .ok s) : s.inRange limits = true := by
  unfold parseCell at hs
  split at hs
  · exact absurd hs (by simp)
  · rename_i cell hkey
    split at hs
    · exact absurd hs (by simp)
    · split at hs
      · rename_i hvalue
        rw [← Except.ok.inj hs]
        simp [HeadampSetting.inRange, parseKey_lt hkey, hvalue]
      · exact absurd hs (by simp)

/-- Every cell is one the send table takes, and there is none without a key. -/
structure HeadampParse.Sound (limits : HeadampLimits) (r : HeadampParse) : Prop where
  inRange : ∀ s ∈ r.cells, s.inRange limits = true
  keyed : r.cells ≠ [] → 0 < r.keys

theorem headampWalk_sound (max : Nat) (key : Option String) (pods : List ParamPod)
    (r : HeadampParse) (hr : r.Sound limits) : (headampWalk limits max key pods r).Sound limits := by
  induction key, pods, r using headampWalk.induct limits max with
  | case1 => simpa only [headampWalk] using hr
  | case2 _ _ _ ih => exact ih hr
  | case3 pod rest r hstr ih =>
      cases pod with
      | str s => exact absurd rfl (hstr s)
      | _ => exact ih hr
  | case4 r k value rest hprefix _ refusal hcell ih =>
      rw [headampWalk, if_pos hprefix]
      simp only [hcell]
      exact ih ⟨hr.inRange, fun _ => Nat.succ_pos _⟩
  | case5 r k value rest hprefix _ s hcell hroom ih =>
      rw [headampWalk, if_pos hprefix]
      simp only [hcell]
      rw [if_pos hroom]
      refine ih ⟨fun s' hs' => ?_, fun _ => Nat.succ_pos _⟩
      rcases List.mem_append.mp hs' with hold | hnew
      · exact hr.inRange s' hold
      · rw [List.mem_singleton.mp hnew]
        exact parseCell_inRange hcell
  | case6 r k value rest hprefix _ s hcell hroom =>
      rw [headampWalk, if_pos hprefix]
      simp only [hcell]
      rw [if_neg hroom]
      exact ⟨hr.inRange, fun _ => Nat.succ_pos _⟩
  | case7 r k value rest hother ih =>
      rw [headampWalk, if_neg hother]
      exact ih hr

/-- **Every cell the parse hands on is one the send table takes.** -/
theorem reacHeadampPropParse_sound (pod : PropsPod) :
    (reacHeadampPropParse limits pod).Sound limits := by
  have hempty : HeadampParse.Sound limits {} := ⟨by simp, fun h => absurd rfl h⟩
  cases pod with
  | params pods => exact headampWalk_sound _ none pods {} hempty
  | notProps => exact hempty
  | noParams => exact hempty

/-! ### One write -/

/-- What the readback claims of a cell is what the pacer was given for it. -/
def HonestAt (asserted given : HeadampTable) (cell : HeadampCell) : Prop :=
  ∀ value, asserted cell = some value → given cell = some value

/-- The readback claims nothing the pacer was not given. -/
def Honest (s : HeadampDoor × HeadampTable) : Prop := ∀ cell, HonestAt s.1.asserted s.2 cell

/-- The last command of the write for each cell finds room in the ring, or carries the value
the ring last accepted for that cell.  `queued` commands wait when the write comes. -/
def CellsFit (limits : HeadampLimits) (queued : Nat) (given : HeadampTable) :
    List Nat → List HeadampSetting → Prop
  | _, [] => True
  | drains, s :: rest =>
      let queued := queued - drains.headD 0
      (s.cell ∈ rest.map (·.cell) ∨ queued < limits.cmdRing ∨ given s.cell = some s.value) ∧
      if queued < limits.cmdRing then
        CellsFit limits (queued + 1) (Function.update given s.cell (some s.value)) drains.tail rest
      else CellsFit limits queued given drains.tail rest

@[simp] theorem noteAccepted_cons (given : HeadampTable) (s : HeadampSetting)
    (accepted : List HeadampSetting) :
    noteAccepted given (s :: accepted) =
      noteAccepted (Function.update given s.cell (some s.value)) accepted := rfl

/-- A cell the write carries only later does not depend on this command. -/
theorem honestAt_head (asserted given : HeadampTable) (s : HeadampSetting) (room : Prop)
    [Decidable room] (rest : List HeadampSetting) :
    (∀ cell, cell ∉ rest.map (·.cell) →
      HonestAt (Function.update asserted s.cell (some s.value))
        (if room then Function.update given s.cell (some s.value) else given) cell) ↔
    (∀ cell, cell ∉ (s :: rest).map (·.cell) → HonestAt asserted given cell) ∧
      (s.cell ∈ rest.map (·.cell) ∨ room ∨ given s.cell = some s.value) := by
  have hother : ∀ cell, cell ≠ s.cell →
      (HonestAt (Function.update asserted s.cell (some s.value))
        (if room then Function.update given s.cell (some s.value) else given) cell ↔
        HonestAt asserted given cell) := by
    intro cell hne
    unfold HonestAt
    rw [Function.update_of_ne hne]
    split
    · rw [Function.update_of_ne hne]
    · rfl
  have hhere : HonestAt (Function.update asserted s.cell (some s.value))
      (if room then Function.update given s.cell (some s.value) else given) s.cell ↔
      room ∨ given s.cell = some s.value := by
    unfold HonestAt
    rw [Function.update_self]
    by_cases hroom : room
    · simp [hroom]
    · simp [hroom]
  constructor
  · intro h
    refine ⟨fun cell hcell => ?_, ?_⟩
    · rw [List.map_cons, List.mem_cons, not_or] at hcell
      exact (hother cell hcell.1).mp (h cell hcell.2)
    · by_cases hlater : s.cell ∈ rest.map (·.cell)
      · exact Or.inl hlater
      · exact Or.inr (hhere.mp (h s.cell hlater))
  · rintro ⟨hbefore, hcell⟩ cell hnot
    by_cases hself : cell = s.cell
    · subst hself
      exact hhere.mpr (hcell.resolve_left hnot)
    · refine (hother cell hself).mpr (hbefore cell ?_)
      rw [List.map_cons, List.mem_cons, not_or]
      exact ⟨hself, hnot⟩

/-- **The readback is honest after a write if and only if its cells fit**, and it was honest
about the cells the write leaves alone. -/
theorem assertCells_honest (cells : List HeadampSetting)
    (hcells : ∀ s ∈ cells, s.inRange limits = true) :
    ∀ (n : HeadampDoor) (given : HeadampTable) (drains : List Nat),
      Honest ((assertCells limits n drains cells).1,
          noteAccepted given (assertCells limits n drains cells).2) ↔
        (∀ cell, cell ∉ cells.map (·.cell) → HonestAt n.asserted given cell) ∧
          CellsFit limits n.ring.length given drains cells := by
  induction cells with
  | nil =>
      intro n given drains
      simp [Honest, assertCells, CellsFit, noteAccepted]
  | cons s rest ih =>
      intro n given drains
      have hin : s.inRange limits = true := hcells s List.mem_cons_self
      have hrest : ∀ s' ∈ rest, s'.inRange limits = true :=
        fun s' hs' => hcells s' (List.mem_cons_of_mem s hs')
      have hqueued : (n.drain limits (drains.headD 0)).ring.length =
          n.ring.length - drains.headD 0 := List.length_drop
      have hhead := honestAt_head n.asserted given s
        (n.ring.length - drains.headD 0 < limits.cmdRing) rest
      unfold assertCells CellsFit HeadampDoor.pacerSet
      rw [hqueued]
      dsimp only
      by_cases hroom : n.ring.length - drains.headD 0 < limits.cmdRing
      · rw [if_pos hroom] at hhead ⊢
        rw [if_pos hroom, if_pos rfl, noteAccepted_cons]
        rw [ih hrest]
        have hlength : ((n.drain limits (drains.headD 0)).ring ++ [s]).length =
            n.ring.length - drains.headD 0 + 1 := by
          rw [List.length_append, hqueued]
          rfl
        simp only [headampSet, hin, if_true, hlength]
        rw [← and_assoc, ← hhead]
        rfl
      · rw [if_neg hroom] at hhead ⊢
        rw [if_neg hroom, if_neg Bool.false_ne_true]
        rw [ih hrest]
        simp only [headampSet, hin, if_true, hqueued]
        rw [← and_assoc, ← hhead]
        rfl

/-! ### A run of the door -/

/-- The condition on a step: the cells of a write the capability lets through fit. -/
def WriteFits (limits : HeadampLimits) (s : HeadampDoor × HeadampTable) : HeadampEvent → Prop
  | .write facts pod drains =>
      facts.capability = .accepted →
        CellsFit limits s.1.ring.length s.2 drains (reacHeadampPropParse limits pod).cells
  | .drain _ => True

/-- **One step keeps the readback honest if and only if its cells fit.** -/
theorem headampStep_honest {s : HeadampDoor × HeadampTable} (hs : Honest s) (e : HeadampEvent) :
    Honest ((headampMachine limits).step s e).1 ↔ WriteFits limits s e := by
  cases e with
  | drain count => exact ⟨fun _ => trivial, fun _ => hs⟩
  | write facts pod drains =>
      show Honest ((sinkDoorAssertHeadamp limits s.1 facts pod drains).1,
        noteAccepted s.2 (sinkDoorAssertHeadamp limits s.1 facts pod drains).2) ↔ _
      unfold sinkDoorAssertHeadamp WriteFits
      dsimp only
      by_cases hcap : facts.capability = .accepted
      · by_cases hkeys : 0 < (reacHeadampPropParse limits pod).keys
        · rw [if_pos ⟨hkeys, hcap⟩]
          rw [assertCells_honest _ (reacHeadampPropParse_sound pod).inRange]
          exact ⟨fun h _ => h.2, fun h => ⟨fun cell _ => hs cell, h hcap⟩⟩
        · have hcells : (reacHeadampPropParse limits pod).cells = [] :=
            by_contra fun hne => hkeys ((reacHeadampPropParse_sound pod).keyed hne)
          rw [if_neg fun h => hkeys h.1, hcells]
          exact ⟨fun _ _ => trivial, fun _ => hs⟩
      · rw [if_neg fun h => hcap h.2]
        exact ⟨fun _ h => absurd h hcap, fun _ => hs⟩

/-- A write the capability refuses leaves the door as it was. -/
theorem sinkDoorAssertHeadamp_refused (n : HeadampDoor) {facts : HeadampFacts} (pod : PropsPod)
    (drains : List Nat) (hrefused : facts.capability ≠ .accepted) :
    sinkDoorAssertHeadamp limits n facts pod drains = (n, []) :=
  if_neg fun h => hrefused h.2

/-! ### The readback of a run -/

theorem headampOpened_honest (headamps : List HeadampSetting) :
    Honest (headampOpened limits headamps) := fun _ _ h => h

/-- **The readback claims nothing the pacer was not given**, over a run of writes and drains
from a seeded node, if and only if the cells of every write fit.  A write the capability
refuses moves nothing. -/
theorem readback_is_given (limits : HeadampLimits) (headamps : List HeadampSetting)
    (run : List HeadampEvent) :
    ((headampMachine limits).Guarded (fun s e => Honest ((headampMachine limits).step s e).1)
        (headampOpened limits headamps) run ↔
      (headampMachine limits).Guarded (WriteFits limits) (headampOpened limits headamps) run) ∧
    ∀ n facts pod drains, facts.capability ≠ .accepted →
      sinkDoorAssertHeadamp limits n facts pod drains = (n, []) := by
  refine ⟨?_, fun n facts pod drains => sinkDoorAssertHeadamp_refused n pod drains⟩
  exact (headampMachine limits).guarded_iff (I := Honest)
    (fun s e hs hfits => (headampStep_honest hs e).mpr hfits)
    (fun s e hs => headampStep_honest hs e) run _ (headampOpened_honest headamps)

/-- A ring of any size under the wire's 48 channels. -/
def wireLimits (cmdRing : Nat) : HeadampLimits := { maxCh := 48, cmdRing := cmdRing }

def phantomPod (on : Bool) : PropsPod := .params [.str "reac.headamp.0.phantom", .bool on]

/-- The phantom of channel 0 is written, on a segment that can carry it. -/
def phantomWrite (on : Bool) : HeadampEvent :=
  .write { upstream := false, pacerOpen := true, channels := 16, base := 0 } (phantomPod on) []

theorem phantomPod_parse (cmdRing : Nat) (on : Bool) :
    reacHeadampPropParse (wireLimits cmdRing) (phantomPod on) =
      { cells := [⟨(0, .phantom), on.toNat⟩], keys := 1 } := by
  cases on <;> rfl

/-- With room in the ring, a write puts its command there. -/
theorem phantomWrite_room (cmdRing : Nat) {s : HeadampDoor × HeadampTable} (on : Bool)
    (hroom : s.1.ring.length < cmdRing) :
    ((headampMachine (wireLimits cmdRing)).step s (phantomWrite on)).1.1.ring =
        s.1.ring ++ [⟨(0, .phantom), on.toNat⟩] ∧
      ((headampMachine (wireLimits cmdRing)).step s (phantomWrite on)).1.2 (0, .phantom) =
        some on.toNat := by
  show (sinkDoorAssertHeadamp (wireLimits cmdRing) s.1 _ (phantomPod on) []).1.ring = _ ∧
    noteAccepted s.2 (sinkDoorAssertHeadamp (wireLimits cmdRing) s.1 _ (phantomPod on) []).2 _ = _
  unfold sinkDoorAssertHeadamp
  rw [phantomPod_parse]
  have hroom' : s.1.ring.length < (wireLimits cmdRing).cmdRing := hroom
  simp [HeadampFacts.capability, reacHeadampCfgDecide, assertCells, HeadampDoor.drain,
    HeadampDoor.pacerSet, hroom', noteAccepted]

/-- With nothing drained, the ring holds a command for every write it had room for. -/
theorem phantomWrite_fills (cmdRing : Nat) :
    ∀ writes ≤ cmdRing,
      let s := (headampMachine (wireLimits cmdRing)).after (headampOpened (wireLimits cmdRing) [])
        (List.replicate writes (phantomWrite false))
      Honest s ∧ s.1.ring.length = writes ∧ (0 < writes → s.2 (0, .phantom) = some 0) := by
  intro writes
  induction writes with
  | zero =>
      intro _
      exact ⟨headampOpened_honest [], rfl, fun h => absurd h (Nat.lt_irrefl 0)⟩
  | succ k ih =>
      intro hle
      obtain ⟨hhonest, hlength, -⟩ := ih (by omega)
      rw [List.replicate_succ', StepMachine.after_concat]
      obtain ⟨hring, hgiven⟩ := phantomWrite_room cmdRing false
        (by rw [hlength]; omega)
      refine ⟨(headampStep_honest hhonest _).mpr fun _ => ?_, ?_, fun _ => hgiven⟩
      · rw [show (reacHeadampPropParse (wireLimits cmdRing) (phantomPod false)).cells = _ from
          congrArg HeadampParse.cells (phantomPod_parse cmdRing false), hlength]
        refine ⟨Or.inr (Or.inl ?_), ?_⟩
        · show k - 0 < cmdRing
          omega
        · split <;> exact trivial
      · rw [hring, List.length_append, hlength]
        rfl

/-- **A burst past the ring is claimed.**  The phantom is switched off until the ring is full,
and then on. -/
theorem phantomWrite_burst {cmdRing : Nat} (hring : 0 < cmdRing) :
    ¬ (headampMachine (wireLimits cmdRing)).Guarded
      (fun s e => Honest ((headampMachine (wireLimits cmdRing)).step s e).1)
      (headampOpened (wireLimits cmdRing) [])
      (List.replicate cmdRing (phantomWrite false) ++ [phantomWrite true]) := by
  intro hguarded
  obtain ⟨hhonest, hlength, hgiven⟩ := phantomWrite_fills cmdRing cmdRing (Nat.le_refl _)
  rw [StepMachine.guarded_concat, headampStep_honest hhonest] at hguarded
  have hfits := hguarded.2 rfl
  rw [show (reacHeadampPropParse (wireLimits cmdRing) (phantomPod true)).cells = _ from
    congrArg HeadampParse.cells (phantomPod_parse cmdRing true), hlength] at hfits
  rcases hfits.1 with hlater | hroom | hsame
  · exact absurd hlater List.not_mem_nil
  · exact absurd hroom (by show ¬ cmdRing - 0 < cmdRing; omega)
  · exact absurd ((hgiven hring).symm.trans hsame) (by decide)

/-- A ring of 128 commands is filled, and the command after it dropped and claimed. -/
theorem dropped_command_claimed :
    ¬ (headampMachine (wireLimits 128)).Guarded
      (fun s e => Honest ((headampMachine (wireLimits 128)).step s e).1)
      (headampOpened (wireLimits 128) [])
      (List.replicate 128 (phantomWrite false) ++ [phantomWrite true]) :=
  phantomWrite_burst (by decide)

end ReacPw
