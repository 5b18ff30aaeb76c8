/-
A follower is heard again only when what it serves is silent, and when it is not.

The latch is stepped from the first stream's counter, and only while there is a master to
answer for.  So what the hearing counts is the silence of that one stream, or, without a
master, nothing but the polls since the open.  `FollowerAt` says so of the latch and the
count; what is published and when a segment is dropped follow from it.
-/
import ReacPw.Follower

namespace ReacPw

/-! ### What a follower should do -/

/-- It is dropped only when every stream it serves has been silent long, and the stream that
answers is published as heard only when it decoded a frame lately. -/
def FollowerRight (s : Follower × FollowerPast) (t : FollowerTick) : Prop :=
  let past := s.2.note t.framesOk
  ((followerTick s.1 t).2.dropped = true → ∀ i ∈ s.1.serves, SilentLong (past.since i)) ∧
  ((followerTick s.1 t).2.published = some true →
    ∃ m ∈ s.1.answersFor, HeardLately (past.since m))

/-- The first stream's silence, as the poll sees it: a poll that passes the segment over does
not look. -/
def seenSince (s : Follower × FollowerPast) (t : FollowerTick) : Option Nat :=
  if passesOver s.1 t then (s.2.since 0).map (· + 1) else (s.2.note t.framesOk).since 0

/-- The latch has been down for as many polls as a follower of nobody is given. -/
def LatchDownLong (since : Option Nat) (ticks : Nat) : Prop :=
  match since with
  | some n => reacSegmentHeardQuietTicks + reacpwFollowsNobodyTicks ≤ n + 1
  | none => reacpwFollowsNobodyTicks ≤ ticks

/-- The first stream speaks for the others.  When it has been silent for as long as the latch
and the hearing wait, or no master was surveyed and the hearing's wait since the open is
over, every stream served has been silent long; and when it decoded a frame lately, so did
the stream that answers. -/
def FirstSpeaks (s : Follower × FollowerPast) (t : FollowerTick) : Prop :=
  let past := s.2.note t.framesOk
  s.1.opened = true →
    (s.1.askedFor = false →
      LatchDownLong (if s.1.answersFor = none then none else seenSince s t) past.ticks →
      ∀ i ∈ s.1.serves, SilentLong (past.since i)) ∧
    (passesOver s.1 t = false → HeardLately (past.since 0) →
      ∀ m ∈ s.1.answersFor, HeardLately (past.since m))

/-! ### What the latch knows -/

/-- The latch of a follower with somebody to answer for: the first stream's. -/
structure LatchAt (f : Follower) (p : FollowerPast) : Prop where
  last : f.heard.last = p.framesOk 0
  heard : f.heard.heard = true ↔ HeardLately (p.since 0)
  quiet : f.heard.heard = true → p.since 0 = some f.heard.quiet

/-- The polls in which the latch was down, up to now. -/
def downTicks (since : Option Nat) (ticks : Nat) : Nat :=
  match since with
  | some n => n + 1 - reacSegmentHeardQuietTicks
  | none => ticks

/-- **An opened follower's latch and count.** -/
structure FollowerAt (s : Follower × FollowerPast) : Prop where
  latch : s.1.answersFor ≠ none → LatchAt s.1 s.2
  down : s.1.answersFor = none → s.1.heard.heard = false
  count : s.1.askedFor = false → s.1.followsNobodyTicks =
    downTicks (if s.1.answersFor = none then none else s.2.since 0) s.2.ticks

theorem latchDownLong_iff (since : Option Nat) (ticks : Nat) :
    LatchDownLong since ticks ↔ reacpwFollowsNobodyTicks ≤ downTicks since ticks := by
  cases since with
  | none => exact Iff.rfl
  | some n =>
      simp only [LatchDownLong, downTicks, reacpwFollowsNobodyTicks, reacSegmentHeardQuietTicks]
      omega

/-- Stepping the latch on the first counter. -/
theorem LatchAt.step {f : Follower} {p : FollowerPast} (h : LatchAt f p) (framesOk : Nat → Nat) :
    LatchAt { f with
      heard := reacSegmentHeardStep f.heard (framesOk 0) reacSegmentHeardQuietTicks }
      (p.note framesOk) := by
  by_cases hmoved : framesOk 0 ≠ f.heard.last
  · have hsince : (p.note framesOk).since 0 = some 0 := by
      simp only [FollowerPast.note]
      rw [if_pos (by rw [← h.last]; exact hmoved)]
    unfold reacSegmentHeardStep
    rw [if_pos hmoved]
    refine ⟨rfl, ?_, fun _ => hsince⟩
    rw [hsince]
    exact ⟨fun _ => by decide, fun _ => rfl⟩
  · have hsame : framesOk 0 = f.heard.last := not_not.mp hmoved
    have hsince : (p.note framesOk).since 0 = (p.since 0).map (· + 1) := by
      simp only [FollowerPast.note]
      rw [if_neg (by rw [← h.last]; exact hmoved)]
    unfold reacSegmentHeardStep
    rw [if_neg hmoved]
    by_cases hheard : f.heard.heard = true
    · rw [if_pos hheard]
      have hquiet : (p.note framesOk).since 0 = some (f.heard.quiet + 1) := by
        rw [hsince, h.quiet hheard]
        rfl
      refine ⟨hsame.symm, ?_, fun _ => hquiet⟩
      rw [hquiet]
      simp [HeardLately]
    · rw [if_neg hheard]
      refine ⟨hsame.symm, ?_, fun hup => absurd hup hheard⟩
      rw [hsince]
      have hlong : ¬ HeardLately (p.since 0) := fun hl => hheard (h.heard.mpr hl)
      cases hp : p.since 0 with
      | none => simp [hheard, HeardLately]
      | some n =>
          rw [hp] at hlong
          simp only [HeardLately, Option.map_some] at hlong ⊢
          refine ⟨fun hup => absurd hup hheard, fun hlt => absurd ?_ hlong⟩
          omega

/-! ### One poll -/

theorem hearingReevaluate_answersFor (f : Follower) :
    (hearingReevaluate f).1.answersFor = f.answersFor ∧
    (hearingReevaluate f).1.askedFor = f.askedFor ∧
    (hearingReevaluate f).1.heard = f.heard := by
  unfold hearingReevaluate
  dsimp only
  split
  · exact ⟨rfl, rfl, rfl⟩
  · split
    · exact ⟨rfl, rfl, rfl⟩
    · split <;> exact ⟨rfl, rfl, rfl⟩

/-- The hearing drops what it looks at when the count comes to its end, and otherwise counts
on; `down` is the count as it should be after this look. -/
theorem hearingReevaluate_count {f : Follower} {down : Nat} (hasked : f.askedFor = false)
    (hdown : f.heard.heard = false → f.followsNobodyTicks + 1 = down)
    (hup : f.heard.heard = true → down < reacpwFollowsNobodyTicks) :
    ((hearingReevaluate f).2 = true ↔ reacpwFollowsNobodyTicks ≤ down) ∧
    ((hearingReevaluate f).1.followsNobodyTicks = if f.heard.heard then 0 else down) := by
  unfold hearingReevaluate
  rw [if_neg (by rw [hasked]; exact Bool.false_ne_true)]
  cases hheard : f.heard.heard with
  | true =>
      have hlt := hup hheard
      rw [if_pos rfl]
      exact ⟨⟨fun h => absurd h Bool.false_ne_true, fun h => absurd hlt (by omega)⟩, rfl⟩
  | false =>
      have heq := hdown hheard
      rw [if_neg Bool.false_ne_true]
      dsimp only
      rw [heq]
      split
      · rename_i hlt
        exact ⟨⟨fun h => absurd h Bool.false_ne_true, fun h => absurd hlt (by omega)⟩, rfl⟩
      · rename_i hge
        exact ⟨⟨fun _ => by omega, fun _ => rfl⟩, rfl⟩

theorem hearingReevaluate_asked {f : Follower} (hasked : f.askedFor = true) :
    hearingReevaluate f = (f, false) := if_pos hasked

/-- The segment as the hearing finds it in a poll. -/
def published (f : Follower) (t : FollowerTick) : Follower :=
  if passesOver f t then f else (listenerPublish f t.framesOk).1

/-- The hearing finds a count that one look more brings to `down`, and a latch that is up only
where `down` is no more than `slack`. -/
structure Found (f : Follower) (down slack : Nat) : Prop where
  looked : f.heard.heard = false → f.followsNobodyTicks + 1 = down
  up : f.heard.heard = true → down ≤ slack

theorem published_over {f : Follower} {t : FollowerTick} (hover : passesOver f t = true) :
    published f t = f := if_pos hover

theorem published_alone {f : Follower} (hanswers : f.answersFor = none) (t : FollowerTick) :
    published f t = f := by
  unfold published listenerPublish
  rw [hanswers]
  split <;> rfl

theorem published_stepped {f : Follower} {t : FollowerTick} (hover : ¬ passesOver f t = true)
    (hanswers : f.answersFor ≠ none) :
    published f t = { f with
      heard := reacSegmentHeardStep f.heard (t.framesOk 0) reacSegmentHeardQuietTicks } := by
  unfold published listenerPublish
  rw [if_neg hover]
  cases h : f.answersFor with
  | none => exact absurd h hanswers
  | some m => rfl

/-- Publishing moves the latch alone. -/
theorem published_answersFor (f : Follower) (t : FollowerTick) :
    (published f t).answersFor = f.answersFor ∧ (published f t).askedFor = f.askedFor := by
  unfold published listenerPublish
  split
  · exact ⟨rfl, rfl⟩
  · split <;> exact ⟨rfl, rfl⟩

/-- Without a master to answer for, the count is the polls since the open. -/
theorem FollowerAt.found_alone {s : Follower × FollowerPast} (h : FollowerAt s)
    (hanswers : s.1.answersFor = none) (hasked : s.1.askedFor = false) (t : FollowerTick)
    (slack : Nat) : Found (published s.1 t) (downTicks none (s.2.ticks + 1)) slack := by
  rw [published_alone hanswers]
  refine ⟨fun _ => ?_, fun hup => ?_⟩
  · rw [h.count hasked, hanswers]
    rfl
  · rw [h.down hanswers] at hup
    exact absurd hup Bool.false_ne_true

/-- A poll that passes the segment over finds the latch as it was. -/
theorem FollowerAt.found_over {s : Follower × FollowerPast} (h : FollowerAt s)
    (hanswers : s.1.answersFor ≠ none) (hasked : s.1.askedFor = false) {t : FollowerTick}
    (hover : passesOver s.1 t = true) :
    Found (published s.1 t) (downTicks ((s.2.since 0).map (· + 1)) (s.2.ticks + 1)) 1 := by
  have hcount := h.count hasked
  have hheard := (h.latch hanswers).heard
  rw [if_neg hanswers] at hcount
  rw [published_over hover]
  cases hsince : s.2.since 0 with
  | none =>
      rw [hsince] at hheard hcount
      exact ⟨fun _ => by rw [hcount]; rfl, fun hup => absurd (hheard.mp hup) id⟩
  | some n =>
      rw [hsince] at hheard hcount
      simp only [HeardLately] at hheard
      simp only [downTicks] at hcount
      refine ⟨fun hdown => ?_, fun hup => ?_⟩
      · have hlong : ¬ n < reacSegmentHeardQuietTicks := fun hlt => by
          rw [hheard.mpr hlt] at hdown
          exact absurd hdown (by simp)
        simp only [Option.map_some, downTicks]
        omega
      · have hlt := hheard.mp hup
        simp only [Option.map_some, downTicks]
        omega

/-- Another poll finds the latch stepped. -/
theorem FollowerAt.found_stepped {s : Follower × FollowerPast} (h : FollowerAt s)
    (hanswers : s.1.answersFor ≠ none) (hasked : s.1.askedFor = false) {t : FollowerTick}
    (hover : ¬ passesOver s.1 t = true) :
    Found (published s.1 t)
      (downTicks ((s.2.note t.framesOk).since 0) (s.2.ticks + 1)) 0 := by
  have hcount := h.count hasked
  have hheard := ((h.latch hanswers).step t.framesOk).heard
  rw [if_neg hanswers] at hcount
  rw [published_stepped hover hanswers]
  refine ⟨fun hdown => ?_, fun hup => ?_⟩
  · show s.1.followsNobodyTicks + 1 = _
    have hlong : ¬ HeardLately ((s.2.note t.framesOk).since 0) := fun hl => by
      rw [hheard.mpr hl] at hdown
      exact absurd hdown (by simp)
    rw [hcount]
    simp only [FollowerPast.note] at hlong ⊢
    split at hlong
    · exact absurd (show (0 : Nat) < 25 by decide) hlong
    · rename_i hsame
      rw [if_neg hsame]
      cases hsince : s.2.since 0 with
      | none => rfl
      | some n =>
          rw [hsince] at hlong
          simp only [Option.map_some, HeardLately] at hlong
          simp only [Option.map_some, downTicks]
          omega
  · have hlately := hheard.mp hup
    cases hsince : (s.2.note t.framesOk).since 0 with
    | none =>
        rw [hsince] at hlately
        exact absurd hlately id
    | some n =>
        rw [hsince] at hlately
        simp only [HeardLately] at hlately
        simp only [downTicks]
        omega

/-- **What the hearing finds**: the count it would come to is the polls since the latch went
down. -/
theorem FollowerAt.found {s : Follower × FollowerPast} (h : FollowerAt s) (t : FollowerTick)
    (hasked : s.1.askedFor = false) :
    Found (published s.1 t)
      (downTicks (if s.1.answersFor = none then none else seenSince s t) (s.2.ticks + 1))
      (if passesOver s.1 t then 1 else 0) := by
  by_cases hanswers : s.1.answersFor = none
  · rw [if_pos hanswers]
    exact h.found_alone hanswers hasked t _
  · rw [if_neg hanswers, seenSince]
    by_cases hover : passesOver s.1 t = true
    · rw [if_pos hover, if_pos hover]
      exact h.found_over hanswers hasked hover
    · rw [if_neg hover, if_neg hover]
      exact h.found_stepped hanswers hasked hover

theorem followerTick_opened {f : Follower} (hopened : f.opened = true) (t : FollowerTick) :
    followerTick f t =
      ({ (hearingReevaluate (published f t)).1 with
          opened := (hearingReevaluate (published f t)).1.opened && !passesOver f t },
        { published := if passesOver f t then none else (listenerPublish f t.framesOk).2
          dropped := (hearingReevaluate (published f t)).2 }) := by
  unfold followerTick published
  rw [if_neg (by simp [hopened])]
  cases passesOver f t <;> rfl

/-- **A follower is dropped when its latch has been down long.** -/
theorem FollowerAt.dropped_iff {s : Follower × FollowerPast} (h : FollowerAt s)
    (hopened : s.1.opened = true) (t : FollowerTick) :
    (followerTick s.1 t).2.dropped = true ↔ s.1.askedFor = false ∧
      LatchDownLong (if s.1.answersFor = none then none else seenSince s t) (s.2.ticks + 1) := by
  obtain ⟨-, hasked'⟩ := published_answersFor s.1 t
  rw [followerTick_opened hopened]
  cases hasked : s.1.askedFor with
  | true =>
      rw [hearingReevaluate_asked (hasked'.trans hasked)]
      simp
  | false =>
      obtain ⟨hdown, hup⟩ := h.found t hasked
      have hcount := (hearingReevaluate_count (hasked'.trans hasked) hdown
        (fun h => Nat.lt_of_le_of_lt (hup h) (by split <;> decide))).1
      rw [latchDownLong_iff]
      exact hcount.trans ⟨fun h => ⟨rfl, h⟩, fun h => h.2⟩

/-- **The stream that answers is published as heard when the first stream was lately.** -/
theorem FollowerAt.published_iff {s : Follower × FollowerPast} (h : FollowerAt s)
    (hopened : s.1.opened = true) (t : FollowerTick) :
    (followerTick s.1 t).2.published = some true ↔ passesOver s.1 t = false ∧
      s.1.answersFor ≠ none ∧ HeardLately ((s.2.note t.framesOk).since 0) := by
  rw [followerTick_opened hopened]
  cases hover : passesOver s.1 t with
  | true => simp
  | false =>
      cases hanswers : s.1.answersFor with
      | none => simp [listenerPublish, hanswers]
      | some m =>
          have hstep := (h.latch (by rw [hanswers]; exact Option.some_ne_none m)).step t.framesOk
          simp only [Bool.false_eq_true, if_false, listenerPublish, hanswers, Option.some.injEq]
          exact hstep.heard.trans ⟨fun hl => ⟨trivial, by simp, hl⟩, fun hl => hl.2.2⟩

/-- A poll that neither drops the segment nor passes it over leaves the latch and the count
right. -/
theorem FollowerAt.tick {s : Follower × FollowerPast} (h : FollowerAt s)
    (hopened : s.1.opened = true) (t : FollowerTick) (hover : passesOver s.1 t = false) :
    FollowerAt ((followerMachine.step s t).1) := by
  obtain ⟨hanswers', hasked'⟩ := published_answersFor s.1 t
  obtain ⟨hkeeps, hkeepsAsked, hkeepsHeard⟩ := hearingReevaluate_answersFor (published s.1 t)
  have hpublished : published s.1 t = (listenerPublish s.1 t.framesOk).1 :=
    if_neg (by rw [hover]; exact Bool.false_ne_true)
  show FollowerAt ((followerTick s.1 t).1, s.2.note t.framesOk)
  rw [followerTick_opened hopened]
  refine ⟨fun hne => ?_, fun hnone => ?_, fun hasked => ?_⟩
  · -- the latch was stepped
    have hsome : s.1.answersFor ≠ none := fun hnone => hne (hkeeps.trans (hanswers'.trans hnone))
    have hstep := (h.latch hsome).step t.framesOk
    have hheard : (hearingReevaluate (published s.1 t)).1.heard =
        reacSegmentHeardStep s.1.heard (t.framesOk 0) reacSegmentHeardQuietTicks := by
      rw [hkeepsHeard, hpublished]
      unfold listenerPublish
      cases hanswers : s.1.answersFor with
      | none => exact absurd hanswers hsome
      | some m => rfl
    exact ⟨(congrArg SegmentHeard.last hheard).trans hstep.last,
      (congrArg (·.heard = true) hheard).to_iff.trans hstep.heard,
      fun hup => (hstep.quiet ((congrArg SegmentHeard.heard hheard).symm.trans hup)).trans
        (congrArg (some ·.quiet) hheard).symm⟩
  · have hnone' : s.1.answersFor = none := (hkeeps.trans hanswers').symm.trans hnone
    have hsame : published s.1 t = s.1 := by
      rw [hpublished]
      unfold listenerPublish
      rw [hnone']
    exact (congrArg SegmentHeard.heard (hkeepsHeard.trans (congrArg Follower.heard hsame))).trans
      (h.down hnone')
  · have hasked0 : s.1.askedFor = false := (hkeepsAsked.trans hasked').symm.trans hasked
    obtain ⟨hdown, hup⟩ := h.found t hasked0
    have hcount := (hearingReevaluate_count (hasked'.trans hasked0) hdown
      (fun h => Nat.lt_of_le_of_lt (hup h) (by split <;> decide))).2
    have hseen : seenSince s t = (s.2.note t.framesOk).since 0 :=
      if_neg (by rw [hover]; exact Bool.false_ne_true)
    have hkeeps' : (hearingReevaluate (published s.1 t)).1.answersFor = s.1.answersFor :=
      hkeeps.trans hanswers'
    show (hearingReevaluate (published s.1 t)).1.followsNobodyTicks = downTicks
      (if (hearingReevaluate (published s.1 t)).1.answersFor = none then none
        else (s.2.note t.framesOk).since 0) (s.2.ticks + 1)
    rw [hcount, hkeeps', ← hseen]
    cases hheard : (published s.1 t).heard.heard with
    | true =>
        have hzero := hup hheard
        rw [hover, if_neg Bool.false_ne_true, Nat.le_zero] at hzero
        rw [if_pos rfl, hzero]
    | false => rw [if_neg Bool.false_ne_true]

/-! ### A run of polls -/

/-- What is known of a follower while it is open. -/
def FollowerKnown (s : Follower × FollowerPast) : Prop := s.1.opened = true → FollowerAt s

theorem followerTick_closes {f : Follower} {t : FollowerTick}
    (hopened : (followerTick f t).1.opened = true) : f.opened = true ∧ passesOver f t = false := by
  by_cases hopen : f.opened = true
  · rw [followerTick_opened hopen] at hopened
    simp only [Bool.and_eq_true, Bool.not_eq_true'] at hopened
    exact ⟨hopen, hopened.2⟩
  · unfold followerTick at hopened
    rw [if_pos (by simpa using hopen)] at hopened
    exact absurd hopened hopen

theorem FollowerKnown.step {s : Follower × FollowerPast} (h : FollowerKnown s) (t : FollowerTick) :
    FollowerKnown (followerMachine.step s t).1 := by
  intro hopened
  obtain ⟨hopen, hover⟩ := followerTick_closes (f := s.1) hopened
  exact (h hopen).tick hopen t hover

/-- **A poll does right if and only if the first stream speaks for the others.** -/
theorem FollowerKnown.right_iff {s : Follower × FollowerPast} (h : FollowerKnown s)
    (t : FollowerTick) : FollowerRight s t ↔ FirstSpeaks s t := by
  unfold FollowerRight FirstSpeaks
  dsimp only
  by_cases hopened : s.1.opened = true
  · have hat := h hopened
    rw [hat.dropped_iff hopened, hat.published_iff hopened]
    constructor
    · intro hright _
      refine ⟨fun hasked hdown => hright.1 ⟨hasked, hdown⟩, fun hover hlately m hm => ?_⟩
      have hsome : s.1.answersFor ≠ none := fun hnone => by
        rw [hnone] at hm
        exact absurd hm (by simp)
      obtain ⟨m', hm', hlately'⟩ := hright.2 ⟨hover, hsome, hlately⟩
      rw [Option.mem_def] at hm hm'
      rw [hm] at hm'
      exact Option.some.inj hm' ▸ hlately'
    · intro hfirst
      refine ⟨fun hdown => (hfirst hopened).1 hdown.1 hdown.2, fun hpub => ?_⟩
      obtain ⟨m, hm⟩ := Option.ne_none_iff_exists'.mp hpub.2.1
      exact ⟨m, hm, (hfirst hopened).2 hpub.1 hpub.2.2 m hm⟩
  · have hquiet : (followerTick s.1 t).2 = { published := none, dropped := false } := by
      unfold followerTick
      rw [if_pos (by simpa using hopened)]
    rw [hquiet]
    exact ⟨fun _ hopen => absurd hopen hopened,
      fun _ => ⟨fun hd => absurd hd (by simp), fun hp => absurd hp (by simp)⟩⟩

/-! ### The open -/

/-- The state after the open, with its past. -/
def followerStart (tap : Bool) (streams : List TapStreamKind) (roleIntent : RoleIntent)
    (framesOk : Nat → Nat) : Follower × FollowerPast :=
  ((followerOpened tap streams roleIntent framesOk).1, FollowerPast.opened tap framesOk)

theorem listenerPublish_none {f : Follower} (hnone : f.answersFor = none) (framesOk : Nat → Nat) :
    listenerPublish f framesOk = (f, none) := by
  unfold listenerPublish
  rw [hnone]

theorem listenerPublish_some {f : Follower} (hsome : f.answersFor ≠ none) (framesOk : Nat → Nat) :
    listenerPublish f framesOk =
      ({ f with heard := reacSegmentHeardStep f.heard (framesOk 0) reacSegmentHeardQuietTicks },
        some (reacSegmentHeardStep f.heard (framesOk 0) reacSegmentHeardQuietTicks).heard) := by
  unfold listenerPublish
  cases hanswers : f.answersFor with
  | none => exact absurd hanswers hsome
  | some m => rfl

/-- Before the open every counter was 0 and no stream had decoded anything. -/
theorem latchAt_fresh (tap : Bool) (streams : List TapStreamKind) (roleIntent : RoleIntent) :
    LatchAt (.fresh tap streams roleIntent)
      { framesOk := fun _ => 0, since := fun _ => none, ticks := 0 } :=
  ⟨rfl, ⟨fun h => absurd h Bool.false_ne_true, fun h => absurd h id⟩,
    fun h => absurd h Bool.false_ne_true⟩

theorem followerStart_at (tap : Bool) (streams : List TapStreamKind) (roleIntent : RoleIntent)
    (framesOk : Nat → Nat) :
    FollowerAt (followerStart tap streams roleIntent framesOk) := by
  unfold followerStart followerOpened FollowerPast.opened
  dsimp only
  generalize (if tap then framesOk else fun _ => 0) = frames
  have hstep := (latchAt_fresh tap streams roleIntent).step frames
  by_cases hnone : (Follower.fresh tap streams roleIntent).answersFor = none
  · rw [listenerPublish_none hnone]
    exact ⟨fun hne => absurd hnone hne, fun _ => rfl, fun _ => by rw [if_pos hnone]; rfl⟩
  · rw [listenerPublish_some hnone]
    refine ⟨fun _ => ⟨hstep.last, hstep.heard, hstep.quiet⟩, fun h => absurd h hnone, fun _ => ?_⟩
    show 0 = downTicks (if (Follower.fresh tap streams roleIntent).answersFor = none then none
      else if frames 0 ≠ 0 then some 0 else none) 0
    rw [if_neg hnone]
    split <;> rfl

/-- What a tap publishes at its open is right. -/
def OpeningRight (tap : Bool) (streams : List TapStreamKind) (roleIntent : RoleIntent)
    (framesOk : Nat → Nat) : Prop :=
  let s := followerStart tap streams roleIntent framesOk
  (followerOpened tap streams roleIntent framesOk).2 = some true →
    ∃ m ∈ s.1.answersFor, HeardLately (s.2.since m)

/-- At the open, the first stream has a frame only when the stream that answers has. -/
def OpeningSpeaks (tap : Bool) (streams : List TapStreamKind) (roleIntent : RoleIntent)
    (framesOk : Nat → Nat) : Prop :=
  let s := followerStart tap streams roleIntent framesOk
  HeardLately (s.2.since 0) → ∀ m ∈ s.1.answersFor, HeardLately (s.2.since m)

theorem openingRight_iff (tap : Bool) (streams : List TapStreamKind) (roleIntent : RoleIntent)
    (framesOk : Nat → Nat) :
    OpeningRight tap streams roleIntent framesOk ↔
      OpeningSpeaks tap streams roleIntent framesOk := by
  have hat := followerStart_at tap streams roleIntent framesOk
  unfold OpeningRight OpeningSpeaks
  dsimp only
  by_cases hnone : (Follower.fresh tap streams roleIntent).answersFor = none
  · have hopened : followerOpened tap streams roleIntent framesOk =
        (.fresh tap streams roleIntent, none) := listenerPublish_none hnone _
    have hanswers : (followerStart tap streams roleIntent framesOk).1.answersFor = none := by
      unfold followerStart
      rw [hopened]
      exact hnone
    rw [hopened, hanswers]
    simp
  · have hopened : followerOpened tap streams roleIntent framesOk = _ :=
      listenerPublish_some hnone _
    have hanswers : (followerStart tap streams roleIntent framesOk).1.answersFor =
        (Follower.fresh tap streams roleIntent).answersFor := by
      unfold followerStart
      rw [hopened]
      rfl
    have hheard := (hat.latch (by rw [hanswers]; exact hnone)).heard
    have hpublished : (followerOpened tap streams roleIntent framesOk).2 =
        some (followerStart tap streams roleIntent framesOk).1.heard.heard := by
      unfold followerStart
      rw [hopened]
    obtain ⟨m, hm⟩ := Option.ne_none_iff_exists'.mp hnone
    rw [hpublished, Option.some.injEq, hheard, hanswers, hm]
    simp

/-- **A follower is heard again only when what it serves is silent, and publishes its master
as heard only while the master's own stream decodes**, over a run of polls from its open, if
and only if the first stream speaks for the others at the open and at every poll. -/
theorem follower_heard_again (tap : Bool) (streams : List TapStreamKind)
    (roleIntent : RoleIntent) (framesOk : Nat → Nat) (run : List FollowerTick) :
    (OpeningRight tap streams roleIntent framesOk ∧
      followerMachine.Guarded FollowerRight (followerStart tap streams roleIntent framesOk) run) ↔
    (OpeningSpeaks tap streams roleIntent framesOk ∧
      followerMachine.Guarded FirstSpeaks (followerStart tap streams roleIntent framesOk) run) :=
  and_congr (openingRight_iff tap streams roleIntent framesOk)
    (followerMachine.guarded_iff (I := FollowerKnown) (fun _ t h _ => h.step t)
      (fun _ t h => h.right_iff t) run _ fun _ => followerStart_at tap streams roleIntent framesOk)

instance : ∀ s : Follower × FollowerPast, DecidablePred (FollowerRight s) :=
  fun _ _ => inferInstanceAs (Decidable ((_ → ∀ i ∈ _, SilentLong _) ∧ (_ → ∃ m ∈ _, HeardLately _)))

instance (tap : Bool) (streams : List TapStreamKind) (roleIntent : RoleIntent)
    (framesOk : Nat → Nat) : Decidable (OpeningRight tap streams roleIntent framesOk) :=
  inferInstanceAs (Decidable (_ → ∃ m ∈ _, HeardLately _))

/-- That many polls in which every counter moves. -/
def streaming (ticks : Nat) : List FollowerTick :=
  (List.range ticks).map fun k => { framesOk := fun _ => k + 1, ifaceLost := false }

/-- A tap of a box and no master is dropped while the box decodes; and one whose survey
found a box before the master publishes a master that was never heard. -/
theorem first_stream_misleads :
    ¬ followerMachine.Guarded FollowerRight (followerStart true [.box] .tap fun _ => 0)
        (streaming 50) ∧
    ¬ OpeningRight true [.box, .master] .tap (fun i => if i = 0 then 1 else 0) := by
  decide

end ReacPw
