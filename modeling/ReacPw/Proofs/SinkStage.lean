/-
The staging loses and repeats nothing, from an empty stage.

Channel by channel the groups handed over and what is staged are a cut of the samples that
went in (`StageTold`), whatever the quanta's sizes; one count of groups and one of staged
samples serve every channel, so the groups of all channels are of the same instants.

The stage outlives the stream.  A stream that is built while samples of the one before are
staged hands those over first, and so is exact just when they came out even.
-/
import Mathlib.Algebra.Group.Nat.Defs
import Mathlib.Algebra.GroupWithZero.Nat
import ReacPw.Lib.Blocks
import ReacPw.SinkStage

namespace ReacPw

open Blocks

/-! ### What a run is measured by -/

section
variable {V G : Type}

/-- A channel's samples in a group. -/
def groupOf (c : Nat) : SinkSubmit V → List V
  | .ring blk => (blk.drop (reacSamplesPerPkt * c)).take reacSamplesPerPkt
  | .pacer planar => planar.getD c []

def submitted : ProcessAct V → Option (SinkSubmit V)
  | .submit s => some s
  | _ => none

/-- A buffer that is taken is given back, once, at the end. -/
def BufferReturned (acts : List (ProcessAct V)) : Prop :=
  acts = [] ∨ ∃ (tag : Nat) (submits : List (SinkSubmit V)), acts = .dequeue tag :: submits.map .submit ++ [.queue tag]

variable [Zero V]

/-- The instants of a callback's quantum, when anything is linked. -/
def instants (channels : Nat) (p : ProcessIn V G) : List (Nat → V) :=
  if !p.pacerOpen && !p.upstreamRing || p.rateReconnecting then []
  else
    match p.position, p.buffer with
    | some duration, some b =>
        if b.haveAny channels then (List.range (b.nframes duration)).map b.instant else []
    | _, _ => []

/-- The instants a node staged in its life so far. -/
def linkedIn : Nat → List (SinkEvent V G) → Nat
  | _, [] => 0
  | _, .build channels :: rest => linkedIn channels rest
  | channels, .process p :: rest => (instants channels p).length + linkedIn channels rest

variable (ramp : (Nat → V) → Nat → G → G → (Nat → V) × G)

/-- What a stream handed over. -/
def handed (start : SinkStage V G) (run : List (ProcessIn V G)) : List (SinkSubmit V) :=
  ((streamMachine ramp).outputs start run).flatten.filterMap submitted

/-- What a stream's staging owes, from the stage it was built with. -/
structure StagingExact (start : SinkStage V G) (run : List (ProcessIn V G)) : Prop where
  short : ((streamMachine ramp).after start run).staged < reacSamplesPerPkt
  /-- The groups and what is staged are the samples, channel by channel. -/
  samples : ∀ c < start.channels,
    (handed ramp start run).flatMap (groupOf c) ++
        ((streamMachine ramp).after start run).block
          ((streamMachine ramp).after start run).staged c =
      (run.flatMap (instants start.channels)).map (· c)
  /-- A group is twelve instants, the same of every channel. -/
  together : ∀ k g, (handed ramp start run)[k]? = some g → ∀ c < start.channels,
    groupOf c g =
      (((run.flatMap (instants start.channels)).drop (reacSamplesPerPkt * k)).take
        reacSamplesPerPkt).map (· c)
  returned : ∀ acts ∈ (streamMachine ramp).outputs start run, BufferReturned acts

end

/-! ### One instant -/

section
variable {V G : Type}

theorem length_block (n : SinkStage V G) (count c : Nat) : (n.block count c).length = count := by
  simp [SinkStage.block]

theorem block_stagePut {n : SinkStage V G} {c : Nat} (hc : c < n.channels) (x : Nat → V) :
    (stagePut n x).block (n.staged + 1) c = n.block n.staged c ++ [x c] := by
  unfold SinkStage.block
  rw [List.range_succ, List.map_append, List.map_singleton]
  simp only [stagePut, if_pos hc, Function.update_self]
  congr 1
  refine List.map_congr_left fun i hi => ?_
  exact Function.update_of_ne (Nat.ne_of_lt (List.mem_range.mp hi)) _ _

/-- A group holds every channel's full stage. -/
theorem groupOf_stageSubmit {n : SinkStage V G} {c : Nat} (hc : c < n.channels)
    (upstreamRing : Bool) :
    groupOf c (stageSubmit upstreamRing n) = n.block reacSamplesPerPkt c := by
  cases upstreamRing with
  | false => simp [stageSubmit, groupOf, List.getD_eq_getElem?_getD, hc]
  | true =>
      have hcut : Cut reacSamplesPerPkt
          ((List.range n.channels).flatMap (n.block reacSamplesPerPkt))
          ((List.range n.channels).map (n.block reacSamplesPerPkt)) [] :=
        { whole := by rw [List.append_nil, List.flatMap_def]
          full := by
            intro b hb
            obtain ⟨c, _, rfl⟩ := List.mem_map.mp hb
            exact length_block n _ c
          short := Nat.succ_pos 11 }
      exact (hcut.block (by simp [hc])).symm

variable {ramp : (Nat → V) → Nat → G → G → (Nat → V) × G}

/-- Where the gain leaves a block as it is, it leaves the stage. -/
theorem stageRamp_stage (hgain : ∀ buf n cur target, (ramp buf n cur target).1 = buf)
    (n : SinkStage V G) (target : Nat → G) : (stageRamp ramp n target).stage = n.stage := by
  funext c
  simp only [stageRamp, hgain, ite_self]

variable (ramp) in
theorem stageSample_staged (upstreamRing : Bool) {r : SinkStage V G × List (SinkSubmit V)}
    (hshort : r.1.staged < reacSamplesPerPkt) (x : Nat → V) (target : Nat → G) :
    (stageSample ramp upstreamRing r x target).1.channels = r.1.channels ∧
      (stageSample ramp upstreamRing r x target).1.staged =
        (r.1.staged + 1) % reacSamplesPerPkt := by
  unfold stageSample
  dsimp only
  split
  · rename_i hfull
    have hfull : r.1.staged + 1 = reacSamplesPerPkt := hfull
    refine ⟨rfl, ?_⟩
    rw [hfull, Nat.mod_self]
  · rename_i hroom
    have hroom : r.1.staged + 1 ≠ reacSamplesPerPkt := hroom
    have hroom : r.1.staged + 1 < reacSamplesPerPkt := by omega
    exact ⟨rfl, (Nat.mod_eq_of_lt hroom).symm⟩

/-- The stage and the groups so far are a cut of what went in, channel by channel. -/
structure StageTold (channels : Nat) (stream : Nat → List V) (n : SinkStage V G)
    (groups : List (SinkSubmit V)) : Prop where
  width : n.channels = channels
  short : n.staged < reacSamplesPerPkt
  cut : ∀ c < channels,
    Cut reacSamplesPerPkt (stream c) (groups.map (groupOf c)) (n.block n.staged c)

theorem StageTold.start {n : SinkStage V G} (hshort : n.staged < reacSamplesPerPkt) :
    StageTold n.channels (n.block n.staged) n [] where
  width := rfl
  short := hshort
  cut := fun c _ => Cut.start (by rw [length_block]; exact hshort)

/-- **One instant more.** -/
theorem StageTold.sample (hgain : ∀ buf n cur target, (ramp buf n cur target).1 = buf)
    {channels : Nat} {stream : Nat → List V} {r : SinkStage V G × List (SinkSubmit V)}
    {older : List (SinkSubmit V)} (h : StageTold channels stream r.1 (older ++ r.2))
    (upstreamRing : Bool) (x : Nat → V) (target : Nat → G) :
    StageTold channels (fun c => stream c ++ [x c]) (stageSample ramp upstreamRing r x target).1
      (older ++ (stageSample ramp upstreamRing r x target).2) := by
  obtain ⟨hwidth, hstaged⟩ := stageSample_staged ramp upstreamRing h.short x target
  refine ⟨hwidth.trans h.width, by rw [hstaged]; exact Nat.mod_lt _ (by decide), ?_⟩
  intro c hc
  have hcut := h.cut c hc
  have hin : c < r.1.channels := h.width ▸ hc
  have hput := block_stagePut hin x
  clear hwidth hstaged
  unfold stageSample
  dsimp only
  split
  · rename_i hfull
    have hfull : r.1.staged + 1 = reacSamplesPerPkt := hfull
    have hgroup : groupOf c (stageSubmit upstreamRing (stageRamp ramp (stagePut r.1 x) target)) =
        r.1.block r.1.staged c ++ [x c] := by
      rw [groupOf_stageSubmit (by exact hin), ← hput, hfull]
      unfold SinkStage.block
      rw [stageRamp_stage hgain]
    have hnext := hcut.complete (x c) (by rw [length_block]; exact hfull)
    rw [← hgroup] at hnext
    rw [← List.append_assoc, List.map_append]
    exact hnext
  · rename_i hroom
    have hnext := hcut.keep (x c) (by rw [length_block]; exact hroom)
    rw [← hput] at hnext
    exact hnext

/-! ### A callback -/

theorem submitted_acts (tag : Nat) (submits : List (SinkSubmit V)) :
    (ProcessAct.dequeue tag :: submits.map ProcessAct.submit ++ [ProcessAct.queue tag]).filterMap
      submitted = submits := by
  rw [List.cons_append, List.filterMap_cons_none rfl]
  induction submits with
  | nil => rfl
  | cons s rest ih =>
      have hs : submitted (.submit s) = some s := rfl
      rw [List.map_cons, List.cons_append, List.filterMap_cons_some hs, ih]

variable [Zero V]

/-- A quantum, instant by instant. -/
theorem StageTold.quantum (hgain : ∀ buf n cur target, (ramp buf n cur target).1 = buf)
    {channels : Nat} {stream : Nat → List V} {n : SinkStage V G} {older : List (SinkSubmit V)}
    (h : StageTold channels stream n older) (p : ProcessIn V G) (b : StreamBuffer V) (nframes : Nat) :
    StageTold channels (fun c => stream c ++ ((List.range nframes).map b.instant).map (· c))
      (stageQuantum ramp p b nframes n).1 (older ++ (stageQuantum ramp p b nframes n).2) := by
  induction nframes with
  | zero => simpa [stageQuantum] using h
  | succ nframes ih =>
      have hnext := ih.sample hgain p.upstreamRing (b.instant nframes) (p.chanTarget nframes)
      simpa [stageQuantum, List.range_succ, List.foldl_append] using hnext

theorem stageQuantum_staged {n : SinkStage V G} (hshort : n.staged < reacSamplesPerPkt)
    (p : ProcessIn V G) (b : StreamBuffer V) (nframes : Nat) :
    (stageQuantum ramp p b nframes n).1.channels = n.channels ∧
      (stageQuantum ramp p b nframes n).1.staged = (n.staged + nframes) % reacSamplesPerPkt := by
  induction nframes with
  | zero => exact ⟨rfl, (Nat.mod_eq_of_lt hshort).symm⟩
  | succ nframes ih =>
      have hone := stageSample_staged ramp p.upstreamRing
        (r := stageQuantum ramp p b nframes n) (by rw [ih.2]; exact Nat.mod_lt _ (by decide))
        (b.instant nframes) (p.chanTarget nframes)
      rw [ih.1, ih.2, Nat.mod_add_mod, Nat.add_assoc] at hone
      simpa [stageQuantum, List.range_succ, List.foldl_append] using hone

variable (ramp) in
/-- What a callback does. -/
inductive Processed (n : SinkStage V G) (p : ProcessIn V G) :
    SinkStage V G × List (ProcessAct V) → Prop
  | nothing (hnone : instants n.channels p = []) : Processed n p (n, [])
  | unlinked (hnone : instants n.channels p = []) (tag : Nat) :
      Processed n p (n, [.dequeue tag, .queue tag])
  | linked (b : StreamBuffer V) (nframes : Nat)
      (hsome : instants n.channels p = (List.range nframes).map b.instant) :
      Processed n p
        ((stageQuantum ramp p b nframes n).1,
          .dequeue b.tag :: (stageQuantum ramp p b nframes n).2.map .submit ++ [.queue b.tag])

variable (ramp) in
theorem onProcess_processed (n : SinkStage V G) (p : ProcessIn V G) :
    Processed ramp n p (onProcess ramp n p) := by
  unfold onProcess
  split
  · rename_i hclosed
    exact .nothing (by simp only [instants, hclosed, Bool.true_or, if_true])
  · rename_i hopen
    split
    · rename_i hrate
      exact .nothing (by simp only [instants, hrate, Bool.or_true, if_true])
    · rename_i hrate
      have hgoes : (!p.pacerOpen && !p.upstreamRing || p.rateReconnecting) = false := by
        rw [Bool.not_eq_true] at hopen hrate
        rw [hopen, hrate]
        rfl
      split
      · rename_i duration b hposition hbuffer
        split
        · rename_i hnone
          refine .unlinked ?_ b.tag
          have hnone : b.haveAny n.channels = false := by simpa using hnone
          simp [instants, hgoes, hposition, hbuffer, hnone]
        · rename_i hany
          refine .linked b (b.nframes duration) ?_
          have hany : b.haveAny n.channels = true := by simpa using hany
          simp [instants, hgoes, hposition, hbuffer, hany]
      · rename_i hnone
        refine .nothing ?_
        simp only [instants, hgoes]
        rw [if_neg Bool.false_ne_true]

theorem onProcess_returned (n : SinkStage V G) (p : ProcessIn V G) :
    BufferReturned (onProcess ramp n p).2 := by
  generalize hdone : onProcess ramp n p = done
  have hdid := hdone ▸ onProcess_processed ramp n p
  cases hdid with
  | nothing => exact Or.inl rfl
  | unlinked _ tag => exact Or.inr ⟨tag, [], rfl⟩
  | linked b nframes => exact Or.inr ⟨b.tag, (stageQuantum ramp p b nframes n).2, rfl⟩

theorem StageTold.process (hgain : ∀ buf n cur target, (ramp buf n cur target).1 = buf)
    {channels : Nat} {stream : Nat → List V} {n : SinkStage V G} {older : List (SinkSubmit V)}
    (h : StageTold channels stream n older) (p : ProcessIn V G) :
    StageTold channels (fun c => stream c ++ (instants channels p).map (· c)) (onProcess ramp n p).1
      (older ++ (onProcess ramp n p).2.filterMap submitted) := by
  generalize hdone : onProcess ramp n p = done
  have hdid := hdone ▸ onProcess_processed ramp n p
  have hwidth := h.width
  subst hwidth
  cases hdid with
  | nothing hnone => simpa [hnone] using h
  | unlinked hnone tag =>
      rw [show [ProcessAct.dequeue tag, .queue tag].filterMap submitted =
        ([] : List (SinkSubmit V)) from submitted_acts tag []]
      simpa [hnone] using h
  | linked b nframes hsome =>
      have hnext := h.quantum hgain p b nframes
      rw [← hsome] at hnext
      rw [submitted_acts]
      exact hnext

variable (ramp) in
theorem onProcess_staged {n : SinkStage V G} (hshort : n.staged < reacSamplesPerPkt)
    (p : ProcessIn V G) :
    (onProcess ramp n p).1.channels = n.channels ∧
      (onProcess ramp n p).1.staged =
        (n.staged + (instants n.channels p).length) % reacSamplesPerPkt := by
  generalize hdone : onProcess ramp n p = done
  have hdid := hdone ▸ onProcess_processed ramp n p
  cases hdid with
  | nothing hnone => exact ⟨rfl, by rw [hnone]; exact (Nat.mod_eq_of_lt hshort).symm⟩
  | unlinked hnone => exact ⟨rfl, by rw [hnone]; exact (Nat.mod_eq_of_lt hshort).symm⟩
  | linked b nframes hsome =>
      rw [hsome, List.length_map, List.length_range]
      exact stageQuantum_staged hshort p b nframes

/-! ### A stream -/

/-- **The groups and the stage are a cut of what was staged at the start and what came.** -/
theorem StageTold.stream (hgain : ∀ buf n cur target, (ramp buf n cur target).1 = buf)
    {channels : Nat} (run : List (ProcessIn V G)) :
    ∀ {stream : Nat → List V} {n : SinkStage V G} {older : List (SinkSubmit V)},
      StageTold channels stream n older →
        StageTold channels (fun c => stream c ++ (run.flatMap (instants channels)).map (· c))
          ((streamMachine ramp).after n run) (older ++ handed ramp n run) := by
  induction run with
  | nil => intro stream n older h; simpa [handed, StepMachine.outputs] using h
  | cons p rest ih =>
      intro stream n older h
      have hnext := ih (h.process hgain p)
      have hrest : handed ramp n (p :: rest) =
          (onProcess ramp n p).2.filterMap submitted ++ handed ramp (onProcess ramp n p).1 rest := by
        simp [handed, StepMachine.outputs, streamMachine]
      rw [hrest, (streamMachine ramp).after_cons]
      simpa [List.append_assoc, streamMachine] using hnext

theorem outputs_returned (run : List (ProcessIn V G)) :
    ∀ n : SinkStage V G, ∀ acts ∈ (streamMachine ramp).outputs n run, BufferReturned acts := by
  induction run with
  | nil => intro n acts h; exact absurd h List.not_mem_nil
  | cons p rest ih =>
      intro n acts h
      rcases List.mem_cons.mp h with rfl | h
      · exact onProcess_returned n p
      · exact ih _ acts h

/-- A stream built on an empty stage is exact, and one built on another is not. -/
theorem stagingExact_iff_staged (hgain : ∀ buf n cur target, (ramp buf n cur target).1 = buf)
    {n : SinkStage V G} (hshort : n.staged < reacSamplesPerPkt) (hwide : 0 < n.channels)
    (run : List (ProcessIn V G)) : StagingExact ramp n run ↔ n.staged = 0 := by
  have htold := StageTold.stream hgain run (StageTold.start hshort)
  rw [List.nil_append] at htold
  constructor
  · intro hexact
    have hsamples := congrArg List.length (hexact.samples 0 hwide)
    have hwhole := congrArg List.length (htold.cut 0 hwide).whole
    rw [← List.flatMap_def, hsamples] at hwhole
    rw [List.length_append, length_block] at hwhole
    omega
  · intro hempty
    have hnone : ∀ c, n.block n.staged c = [] := by
      intro c
      rw [hempty]
      rfl
    refine
      { short := htold.short
        samples := ?_, together := ?_
        returned := outputs_returned run n }
    · intro c hc
      have hwhole := (htold.cut c hc).whole
      rwa [← List.flatMap_def, hnone, List.nil_append] at hwhole
    · intro k g hg c hc
      have hblock := (htold.cut c hc).block (i := k) (b := groupOf c g) (by simp [hg])
      rwa [hnone, List.nil_append, ← List.map_drop, ← List.map_take] at hblock

/-! ### The node's life -/

variable (ramp) in
theorem sinkAfter_staged (life : List (SinkEvent V G)) :
    ∀ {n : SinkStage V G}, n.staged < reacSamplesPerPkt →
      ((sinkMachine ramp).after n life).staged =
        (n.staged + linkedIn n.channels life) % reacSamplesPerPkt := by
  induction life with
  | nil => intro n hshort; exact (Nat.mod_eq_of_lt hshort).symm
  | cons event rest ih =>
      intro n hshort
      cases event with
      | build channels => exact ih (n := { n with channels := channels }) hshort
      | process p =>
          obtain ⟨hwidth, hstaged⟩ := onProcess_staged ramp hshort p
          have hnext := ih (n := (onProcess ramp n p).1)
            (by rw [hstaged]; exact Nat.mod_lt _ (by decide))
          rw [hwidth, hstaged, Nat.mod_add_mod, Nat.add_assoc] at hnext
          exact hnext

/-- **The staging loses and repeats nothing** on a stream exactly when the samples of the
node's streams before it came out even. -/
theorem staging_exact_iff (hgain : ∀ buf n cur target, (ramp buf n cur target).1 = buf)
    (unity : G) (life : List (SinkEvent V G)) {width : Nat} (hwidth : 0 < width)
    (run : List (ProcessIn V G)) :
    StagingExact ramp (sinkAfter ramp unity (life ++ [.build width])) run ↔
      reacSamplesPerPkt ∣ linkedIn 0 life := by
  have hstaged := sinkAfter_staged ramp life (n := SinkStage.fresh unity)
    (Nat.succ_pos 11)
  rw [show (SinkStage.fresh unity : SinkStage V G).staged = 0 from rfl, Nat.zero_add,
    show (SinkStage.fresh unity : SinkStage V G).channels = 0 from rfl] at hstaged
  have hbuilt : sinkAfter ramp unity (life ++ [.build width]) =
      { sinkAfter ramp unity life with channels := width } :=
    (sinkMachine ramp).after_concat _ life _
  rw [hbuilt, stagingExact_iff_staged hgain (by
    rw [hstaged]
    exact Nat.mod_lt _ (by decide)) hwidth]
  change (sinkAfter ramp unity life).staged = 0 ↔ _
  rw [hstaged, Nat.dvd_iff_mod_eq_zero]

end

/-! ### A rebuilt stream -/

/-- A quantum of four samples on one port, to the pacer. -/
def fourSamples : ProcessIn Nat Unit where
  pacerOpen := true
  upstreamRing := false
  rateReconnecting := false
  position := some 4
  buffer := some ⟨0, 16, [some fun s => s + 1]⟩
  chanTarget := fun _ _ => ()

def unityRamp (buf : Nat → Nat) (_ : Nat) (cur _ : Unit) : (Nat → Nat) × Unit := (buf, cur)

/-- A node's first stream is exact over three such quanta. -/
theorem staging_exact_first :
    StagingExact unityRamp (sinkAfter unityRamp () ([] ++ [.build 1]))
      [fourSamples, fourSamples, fourSamples] :=
  (staging_exact_iff (fun _ _ _ _ => rfl) () [] Nat.one_pos _).mpr (by decide)

/-- A stream rebuilt after four samples hands those over as its own. -/
theorem staging_rebuilt :
    ¬StagingExact unityRamp
      (sinkAfter unityRamp () [.build 1, .process fourSamples, .build 1])
      [fourSamples, fourSamples] := by
  intro hexact
  exact absurd (hexact.samples 0 (by decide)) (by decide)

end ReacPw
