/-
Mute means mute on every exposed output.

Kept from the code: a channel's level is the one its volume and the mute it was last told
make.  A volume never moves without the level being published with it, so only the mute
can be old, and only on a channel that no write has reached since: one past the node's
width at the time.

So the levels tell the truth exactly when no rebuild exposes a channel that was not told
of the mute that stands.  The mute each channel was last told is kept beside the machine.
-/
import Mathlib.Algebra.Ring.Int.Defs
import ReacPw.SinkGain

namespace ReacPw

section
variable {V : Type}

/-! ### A rebuild -/

/-- What an ensure does: nothing, or the stream down, or another width asked of a build. -/
theorem gainEnsure_cases (n : SinkGain V) (channels : Int) (label : Text) (built : Bool) :
    ensureRebuilds n channels label = none ∧
      (gainEnsure n channels label built = n ∨
        gainEnsure n channels label built = gainUnpublish n) ∨
    ∃ width node, ensureRebuilds n channels label = some width ∧ node.isSome = built ∧
      gainEnsure n channels label built = { n with node := node, channels := width } := by
  unfold gainEnsure
  by_cases hpos : 0 < ensureWant channels
  · have hzero : ¬ ensureWant channels = 0 := by omega
    have hneg : ¬ ensureWant channels < 0 := by omega
    have hnode : reacSinkNodeEnsure n.node channels label built =
        if !reacNodeEnsureNeedsRebuild n.node
            { channels := ensureWant channels, label := nodeLabel label } then n.node
        else if built then
          some { channels := ensureWant channels, label := nodeLabel label }
        else none := (if_neg hneg).trans (if_neg hzero)
    rw [if_neg hzero, hnode]
    cases hneeds : reacNodeEnsureNeedsRebuild n.node
        { channels := ensureWant channels, label := nodeLabel label } with
    | false =>
        have hnone : ensureRebuilds n channels label = none := by
          simp [ensureRebuilds, hneeds]
        rw [hnone]
        exact Or.inl ⟨rfl, Or.inl rfl⟩
    | true =>
        have hsome : ensureRebuilds n channels label = some (ensureWant channels).toNat := by
          simp [ensureRebuilds, hneeds, hpos]
        rw [hsome]
        refine Or.inr ⟨_, _, rfl, ?_, rfl⟩
        cases built <;> rfl
  · have hnone : ensureRebuilds n channels label = none := by
      simp [ensureRebuilds, hpos]
    refine Or.inl ⟨hnone, ?_⟩
    by_cases hzero : ensureWant channels = 0
    · rw [if_pos hzero]
      exact Or.inr rfl
    · have hneg : ensureWant channels < 0 := by omega
      have hnode : reacSinkNodeEnsure n.node channels label built = n.node := if_pos hneg
      rw [if_neg hzero, hnone, hnode]
      exact Or.inl rfl

variable [Zero V]

/-! ### Told of the mute -/

/-- What the RT thread ramps an exposed channel to is what the node advertises. -/
def MuteMeansMute (n : SinkGain V) : Prop :=
  n.node.isSome → ∀ c < n.channels, n.chanTarget c = level n.muted (n.chanVol c)

instance [DecidableEq V] (n : SinkGain V) : Decidable (MuteMeansMute n) :=
  inferInstanceAs (Decidable (_ → ∀ c, c < _ → _))

theorem level_eq_iff (told muted : Bool) (v : V) :
    level told v = level muted v ↔ told = muted ∨ v = 0 := by
  cases told <;> cases muted <;> simp [level, eq_comm]

/-- The mute each channel was last told. -/
abbrev Told := Nat → Bool

/-- Every level is the one the channel was told. -/
def AsTold (s : SinkGain V × Told) : Prop :=
  ∀ c, s.1.chanTarget c = level (s.2 c) (s.1.chanVol c)

/-- The channels the stream exposes were told the mute that stands, or are silent anyway. -/
def ExposedTold (s : SinkGain V × Told) : Prop :=
  s.1.node.isSome → ∀ c < s.1.channels, s.2 c = s.1.muted ∨ s.1.chanVol c = 0

theorem AsTold.means_iff {s : SinkGain V × Told} (h : AsTold s) :
    MuteMeansMute s.1 ↔ ExposedTold s := by
  constructor
  · intro hmeans hnode c hc
    exact (level_eq_iff _ _ _).mp ((h c).symm.trans (hmeans hnode c hc))
  · intro htold hnode c hc
    exact (h c).trans ((level_eq_iff _ _ _).mpr (htold hnode c hc))

/-- A stream that goes exposes nothing. -/
theorem gainUnpublish_told {n : SinkGain V} {told : Told} (h : AsTold (n, told))
    (hexposed : ExposedTold (n, told)) :
    AsTold (gainUnpublish n, told) ∧ ExposedTold (gainUnpublish n, told) := by
  unfold gainUnpublish
  cases hnode : n.node with
  | none => exact ⟨h, hexposed⟩
  | some node => exact ⟨h, fun hc => by simp at hc⟩

/-! ### A write -/

section
variable [LT V] [DecidableLT V]

/-- What reading a Props object leaves alone. -/
structure ReadKept (n : SinkGain V) (r : PropsRead V) : Prop where
  node : r.gain.node = n.node
  channels : r.gain.channels = n.channels
  target : r.gain.chanTarget = n.chanTarget
  beyond : ∀ c, n.channels ≤ c → r.gain.chanVol c = n.chanVol c
  unchanged : r.changed = false → r.gain = n

theorem readProp_kept {n : SinkGain V} {r : PropsRead V} (h : ReadKept n r) (e : PropsEntry V) :
    ReadKept n (readProp r e) := by
  cases e with
  | mute m =>
      cases m with
      | none => exact h
      | some m => exact ⟨h.node, h.channels, h.target, h.beyond, by simp [readProp]⟩
  | volume v =>
      cases v with
      | none => exact h
      | some v =>
          refine ⟨h.node, h.channels, h.target, ?_, by simp [readProp]⟩
          intro c hc
          have hout : ¬ c < r.gain.channels := by
            rw [h.channels]
            omega
          simp only [readProp, if_neg hout]
          exact h.beyond c hc
  | channelVolumes vols => exact ⟨h.node, h.channels, h.target, h.beyond, h.unchanged⟩
  | other => exact h

theorem readChanVols_kept {n : SinkGain V} {r : PropsRead V} (h : ReadKept n r) :
    ReadKept n (readChanVols r) := by
  unfold readChanVols
  by_cases hhave : r.haveChanVol = true
  · rw [if_pos hhave]
    refine ⟨h.node, h.channels, h.target, ?_, by simp⟩
    intro c hc
    have hout : ¬ c < r.gain.channels := by
      rw [h.channels]
      omega
    dsimp only
    split
    · rw [if_neg hout]
      exact h.beyond c hc
    · exact h.beyond c hc
  · rw [if_neg hhave]
    exact h

theorem readProps_kept (n : SinkGain V) (entries : List (PropsEntry V)) :
    ReadKept n (readProps n entries) := by
  have hfold : ∀ (entries : List (PropsEntry V)) (r : PropsRead V), ReadKept n r →
      ReadKept n (entries.foldl readProp r) := by
    intro entries
    induction entries with
    | nil => intro r h; exact h
    | cons e rest ih => intro r h; exact ih _ (readProp_kept h e)
  exact readChanVols_kept (hfold entries _ ⟨rfl, rfl, rfl, fun _ _ => rfl, fun _ => rfl⟩)

/-- A write that changes anything tells the channels the node has. -/
def noteTold (told : Told) (n : SinkGain V) (e : GainEvent V) (_ : Unit) : Told :=
  match e with
  | .props entries =>
      if (readProps n entries).changed then
        fun c =>
          if c < (readProps n entries).gain.channels then (readProps n entries).gain.muted
          else told c
      else told
  | .ensure _ _ _ => told
  | .unpublish => told

/-- **A write tells every channel the node has.** -/
theorem onParamChanged_told {n : SinkGain V} {told : Told} (h : AsTold (n, told))
    (hexposed : ExposedTold (n, told)) (entries : List (PropsEntry V)) :
    AsTold (onParamChanged n entries, noteTold told n (.props entries) ()) ∧
      ExposedTold (onParamChanged n entries, noteTold told n (.props entries) ()) := by
  have hkept := readProps_kept n entries
  cases hchanged : (readProps n entries).changed with
  | false =>
      have hsame : onParamChanged n entries = n := by
        simp only [onParamChanged, hchanged, Bool.false_eq_true, if_false]
        exact hkept.unchanged hchanged
      have hnoted : noteTold told n (.props entries) () = told := by
        simp [noteTold, hchanged]
      rw [hsame, hnoted]
      exact ⟨h, hexposed⟩
  | true =>
      have hwrites : onParamChanged n entries = gainPublish (readProps n entries).gain := by
        simp [onParamChanged, hchanged]
      have hnoted : noteTold told n (.props entries) () = fun c =>
          if c < (readProps n entries).gain.channels then (readProps n entries).gain.muted
          else told c := by
        simp [noteTold, hchanged]
      rw [hwrites, hnoted]
      constructor
      · intro c
        by_cases hin : c < (readProps n entries).gain.channels
        · simp [gainPublish, hin]
        · have hbeyond : n.channels ≤ c := by
            rw [← hkept.channels]
            omega
          simp only [gainPublish, if_neg hin, hkept.target, hkept.beyond c hbeyond]
          exact h c
      · intro _ c hc
        exact Or.inl (if_pos hc)

/-! ### The contract -/

/-- The sink, with the mute each channel was last told beside it. -/
def gainHistory : StepMachine (SinkGain V × Told) (GainEvent V) Unit :=
  gainMachine.withHistory noteTold

/-- A channel that a rebuild exposes was told of the mute that stands, or is silent anyway. -/
def RebuildTold (s : SinkGain V × Told) : GainEvent V → Prop
  | .ensure channels label true =>
      match ensureRebuilds s.1 channels label with
      | some width => ∀ c < width, s.2 c = s.1.muted ∨ s.1.chanVol c = 0
      | none => True
  | _ => True

/-- **A step keeps the levels as they were told**; what it exposes is told exactly where the
guard says so. -/
theorem gain_step {s : SinkGain V × Told} (h : AsTold s) (hexposed : ExposedTold s)
    (e : GainEvent V) :
    AsTold (gainHistory.step s e).1 ∧
      (ExposedTold (gainHistory.step s e).1 ↔ RebuildTold s e) := by
  obtain ⟨n, told⟩ := s
  cases e with
  | props entries =>
      obtain ⟨htold, hexposed⟩ := onParamChanged_told h hexposed entries
      exact ⟨htold, iff_of_true hexposed True.intro⟩
  | unpublish =>
      obtain ⟨htold, hexposed⟩ := gainUnpublish_told h hexposed
      exact ⟨htold, iff_of_true hexposed True.intro⟩
  | ensure channels label built =>
      show AsTold (gainEnsure n channels label built, told) ∧
        (ExposedTold (gainEnsure n channels label built, told) ↔ _)
      rcases gainEnsure_cases n channels label built with ⟨hnone, hsame | hdown⟩ |
        ⟨width, node, hsome, hbuilt, heq⟩
      · have hguard : RebuildTold (n, told) (.ensure channels label built) := by
          cases built <;> simp [RebuildTold, hnone]
        rw [hsame]
        exact ⟨h, iff_of_true hexposed hguard⟩
      · have hguard : RebuildTold (n, told) (.ensure channels label built) := by
          cases built <;> simp [RebuildTold, hnone]
        obtain ⟨htold, hexposed⟩ := gainUnpublish_told h hexposed
        rw [hdown]
        exact ⟨htold, iff_of_true hexposed hguard⟩
      · rw [heq]
        refine ⟨h, ?_⟩
        cases built with
        | false => exact iff_of_true (fun hnode => by simp [hbuilt] at hnode) True.intro
        | true => simp [ExposedTold, RebuildTold, hsome, hbuilt]

/-- **Mute means mute on every exposed output, exactly when every rebuild exposes only channels
that were told of the mute that stands.** -/
theorem mute_means_mute [One V] (run : List (GainEvent V)) :
    gainHistory.Guarded (fun s e => MuteMeansMute (gainMachine.step s.1 e).1)
        (SinkGain.fresh, fun _ => false) run ↔
      gainHistory.Guarded RebuildTold (SinkGain.fresh, fun _ => false) run := by
  refine StepMachine.guarded_iff (I := fun s => AsTold s ∧ ExposedTold s) gainHistory ?_ ?_ run
    (SinkGain.fresh, fun _ => false) ⟨fun _ => rfl, fun hnode => by simp [SinkGain.fresh] at hnode⟩
  · intro s e h hguard
    obtain ⟨htold, hiff⟩ := gain_step h.1 h.2 e
    exact ⟨htold, hiff.mpr hguard⟩
  · intro s e h
    obtain ⟨htold, hiff⟩ := gain_step h.1 h.2 e
    exact htold.means_iff.trans hiff

end

/-- An eight-wide node is muted and rebuilt sixteen wide; and the other way round. -/
theorem mute_left_behind :
    ¬ gainHistory.Guarded (fun s e => MuteMeansMute (gainMachine.step s.1 e).1)
        ((SinkGain.fresh, fun _ => false) : SinkGain Int × Told)
        [.ensure 8 (txt "a") true, .props [.mute (some true)], .ensure 16 (txt "b") true] ∧
    ¬ gainHistory.Guarded (fun s e => MuteMeansMute (gainMachine.step s.1 e).1)
        ((SinkGain.fresh, fun _ => false) : SinkGain Int × Told)
        [.ensure 16 (txt "b") true, .props [.mute (some true)], .ensure 8 (txt "a") true,
          .props [.mute (some false)], .ensure 16 (txt "b") true] := by
  decide

end

end ReacPw
