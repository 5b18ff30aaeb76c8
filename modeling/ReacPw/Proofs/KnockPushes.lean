/-
When the knock counts whole transfers only.

The record of a wire says which slots of the scene left.  A transfer is whole when its
FIRST, every MIDDLE and its LAST left one after the other within a knock; it is read
from the LAST backwards (`wholeScenes`).  The wire keeps two counters of the transfer
under way, and what they say of the record is `underWay`: how many MIDDLEs left since
the FIRST, and whether a LAST left among them.  A LAST that comes early does not end the
transfer, so the MIDDLEs after it can still make up the number, and that is the one
count that is not of a whole transfer.
-/
import ReacPw.Proofs.KnockWire

namespace ReacPw

open Loop

/-- A slot of the scene, and whether it left. -/
abbrev SceneSlot := MasterEmit × Bool

section
variable {μ κ : Type*}

/-- The scene's slots of the knock so far, newest first. -/
def knockScenes : List (KnockEvent μ κ) → List SceneSlot
  | [] => []
  | .opened _ :: _ => []
  | .stepped s :: older =>
      if s.emit.isScene then (s.emit, s.left) :: knockScenes older else knockScenes older

/-- What each LAST that left had before it in its knock, newest first. -/
def lastsLeft : List (KnockEvent μ κ) → List (List SceneSlot)
  | [] => []
  | .opened _ :: older => lastsLeft older
  | .stepped s :: older =>
      if s.emit = .sceneTail ∧ s.left then knockScenes older :: lastsLeft older
      else lastsLeft older

end

/-- Right before a LAST: `chunks` MIDDLEs that left, and before them a FIRST that left. -/
def wholeScenes (chunks : Nat) (scenes : List SceneSlot) : Bool :=
  scenes.take (chunks + 1) == List.replicate chunks (.sceneChunk, true) ++ [(.sceneHead, true)]

/-- The transfer under way: how many MIDDLEs left since its FIRST did, nothing of the scene
being lost since, and whether a LAST left among them.  The LAST that completes it ends it. -/
def underWay (chunks : Nat) : List SceneSlot → Option (Nat × Bool)
  | [] => none
  | (_, false) :: _ => none
  | (.sceneHead, true) :: _ => some (0, false)
  | (.sceneChunk, true) :: older => (underWay chunks older).map fun t => (t.1 + 1, t.2)
  | (_, true) :: older =>
      (underWay chunks older).bind fun t => if t.1 = chunks then none else some (t.1, true)

/-- A LAST comes when the MIDDLEs make up the number, and an earlier LAST left among them. -/
def lastTwice (chunks : Nat) (scenes : List SceneSlot) : Bool :=
  underWay chunks scenes == some (chunks, true)

/-- What the wire counts: a LAST that comes when the MIDDLEs make up the number. -/
def countedScenes (chunks : Nat) (scenes : List SceneSlot) : Bool :=
  (underWay chunks scenes).map Prod.fst == some chunks

/-- **A transfer that is under way and has no LAST in it is one without a hole.** -/
theorem underWay_whole {chunks : Nat} (scenes : List SceneSlot) :
    ∀ n, underWay chunks scenes = some (n, false) ↔ wholeScenes n scenes = true := by
  unfold wholeScenes
  induction scenes with
  | nil =>
      intro n
      cases n <;> simp [underWay]
  | cons slot older ih =>
      intro n
      obtain ⟨emit, left⟩ := slot
      cases left with
      | false => cases n <;> simp [underWay, List.replicate_succ]
      | true =>
          cases emit with
          | sceneHead => cases n <;> simp [underWay, List.replicate_succ]
          | sceneChunk =>
              cases n with
              | zero => simp [underWay]
              | succ n =>
                  have holder := ih n
                  simp only [beq_iff_eq] at holder ⊢
                  rw [List.replicate_succ, List.take_succ_cons, List.cons_append, List.cons.injEq,
                    ← holder]
                  simp [underWay, Prod.ext_iff]
          | filler =>
              cases n <;> simp [underWay, List.replicate_succ, Option.bind_eq_some_iff]
          | sceneTail =>
              cases n <;> simp [underWay, List.replicate_succ, Option.bind_eq_some_iff]
          | control kind =>
              cases n <;> simp [underWay, List.replicate_succ, Option.bind_eq_some_iff]

/-- What is counted is a whole transfer, or one with a LAST too many. -/
theorem counted_whole (chunks : Nat) (scenes : List SceneSlot) :
    countedScenes chunks scenes = (wholeScenes chunks scenes || lastTwice chunks scenes) := by
  rw [Bool.eq_iff_iff, Bool.or_eq_true, ← underWay_whole scenes chunks]
  unfold countedScenes lastTwice
  cases underWay chunks scenes with
  | none => simp
  | some t =>
      obtain ⟨n, last⟩ := t
      cases last <;> simp

theorem whole_not_twice {chunks : Nat} {scenes : List SceneSlot}
    (h : wholeScenes chunks scenes = true) : lastTwice chunks scenes = false := by
  unfold lastTwice
  rw [(underWay_whole scenes chunks).mpr h]
  simp

/-! ### The wire's counters -/

section
variable {μ κ : Type*} {A : MasterApi μ}

/-- The counters of the transfer under way say what the record says of it. -/
structure TransferTold (A : MasterApi μ) (log : List (KnockEvent μ κ)) (w : ReacKnockWire μ κ) :
    Prop where
  head : w.headSent = (underWay A.sceneChunks (knockScenes log)).isSome
  chunks : ∀ t ∈ underWay A.sceneChunks (knockScenes log), w.chunksSent = t.1

/-- The pushes are the LASTs that came when the MIDDLEs made up the number. -/
def PushesTold (A : MasterApi μ) (log : List (KnockEvent μ κ)) (w : ReacKnockWire μ κ) : Prop :=
  w.pushes = (lastsLeft log).countP (countedScenes A.sceneChunks)

structure RunTold (A : MasterApi μ) (log : List (KnockEvent μ κ)) (w : ReacKnockWire μ κ) :
    Prop where
  transfer : TransferTold A log w
  pushes : PushesTold A log w

theorem RunTold.congr {log : List (KnockEvent μ κ)} {w w' : ReacKnockWire μ κ}
    (h : RunTold A log w) (hhead : w'.headSent = w.headSent)
    (hchunks : w'.chunksSent = w.chunksSent) (hpushes : w'.pushes = w.pushes) :
    RunTold A log w' := by
  refine ⟨⟨hhead.trans h.transfer.head, ?_⟩, hpushes.trans h.pushes⟩
  intro t ht
  exact hchunks.trans (h.transfer.chunks t ht)

/-- **One slot keeps the counters.** -/
theorem RunTold.scene {log : List (KnockEvent μ κ)} {w : ReacKnockWire μ κ}
    (h : RunTold A log w) (s : SlotStep μ κ) :
    RunTold A (.stepped s :: log) (sceneStep A w s.emit s.left) := by
  obtain ⟨⟨hhead, hchunks⟩, hpushes⟩ := h
  have hkept : s.emit ≠ .sceneTail → PushesTold A (.stepped s :: log) w := by
    intro hne
    simpa [PushesTold, lastsLeft, hne] using hpushes
  unfold sceneStep
  by_cases hscene : s.emit.isScene = true
  · have hscenes : knockScenes (.stepped s :: log) = (s.emit, s.left) :: knockScenes log := by
      rw [knockScenes, if_pos hscene]
    rw [hscene]
    by_cases hleft : s.left = true
    · rw [hleft] at hscenes ⊢
      cases hemit : s.emit with
      | sceneHead =>
          rw [hemit] at hscenes hkept
          refine ⟨⟨?_, ?_⟩, hkept (by simp)⟩
          · simp [hscenes, underWay]
          · simp [hscenes, underWay]
      | sceneChunk =>
          rw [hemit] at hscenes hkept
          refine ⟨⟨?_, ?_⟩, hkept (by simp)⟩
          · simpa [hscenes, underWay] using hhead
          · rw [hscenes]
            intro t ht
            obtain ⟨t', ht', rfl⟩ := Option.map_eq_some_iff.mp ht
            show w.chunksSent + 1 = t'.1 + 1
            rw [hchunks t' ht']
      | sceneTail =>
          rw [hemit] at hscenes
          have hlasts : lastsLeft (.stepped s :: log) = knockScenes log :: lastsLeft log := by
            rw [lastsLeft, if_pos ⟨hemit, hleft⟩]
          unfold PushesTold at hpushes
          cases hway : underWay A.sceneChunks (knockScenes log) with
          | none =>
              have hshut : w.headSent = false := by rw [hhead, hway]; rfl
              simp only [hshut, Bool.false_eq_true, false_and, if_false]
              refine ⟨⟨?_, ?_⟩, ?_⟩
              · simp [hscenes, underWay, hway, hshut]
              · simp [hscenes, underWay, hway]
              · simp [PushesTold, hlasts, countedScenes, hway, hpushes]
          | some t =>
              have hopen : w.headSent = true := by rw [hhead, hway]; rfl
              have hcount : w.chunksSent = t.1 := hchunks t hway
              by_cases hdone : t.1 = A.sceneChunks
              · simp only [hopen, hcount, hdone, and_self, if_true]
                refine ⟨⟨?_, ?_⟩, ?_⟩
                · simp [hscenes, underWay, hway, hdone]
                · simp [hscenes, underWay, hway, hdone]
                · simp [PushesTold, hlasts, countedScenes, hway, hpushes, hdone]
              · simp only [hopen, hcount, hdone, and_false, if_false]
                refine ⟨⟨?_, ?_⟩, ?_⟩
                · simp [hscenes, underWay, hway, hdone, hopen]
                · simp [hscenes, underWay, hway, hdone, hcount]
                · simp [PushesTold, hlasts, countedScenes, hway, hpushes, hdone]
      | filler => simp [MasterEmit.isScene, hemit] at hscene
      | control kind => simp [MasterEmit.isScene, hemit] at hscene
    · have hlost : s.left = false := by simpa using hleft
      rw [hlost] at hscenes ⊢
      refine ⟨⟨?_, ?_⟩, ?_⟩
      · simp [hscenes, underWay]
      · simp [hscenes, underWay]
      · simpa [PushesTold, lastsLeft, hlost] using hpushes
  · have hother : s.emit ≠ .sceneTail := by
      intro htail
      rw [htail] at hscene
      exact hscene rfl
    rw [if_pos (by simpa using hscene)]
    refine ⟨⟨?_, ?_⟩, hkept hother⟩
    · simpa [knockScenes, hscene] using hhead
    · simpa [knockScenes, hscene] using hchunks

/-! ### A run, and a wire's life -/

theorem knockOpen_told {log : List (KnockEvent μ κ)} {w : ReacKnockWire μ κ}
    (h : PushesTold A log w) (atNs : Nat) :
    RunTold A (.opened atNs :: log) (knockOpen A w atNs) := by
  obtain ⟨due, hopen⟩ := knockOpen_eq A w atNs
  rw [hopen]
  exact ⟨⟨rfl, by simp [knockScenes, underWay]⟩, h⟩

theorem runTurn_told {base : List (KnockEvent μ κ)} {r : KnockRun μ κ} (now : Nat)
    (send : Nat → Frame → Bool) (h : RunTold A (r.log ++ base) r.wire) :
    RunTold A ((runTurn A now send r).1.log ++ base) (runTurn A now send r).1.wire := by
  refine runTurn_keeps A (I := fun r : KnockRun μ κ => RunTold A (r.log ++ base) r.wire) ?_ ?_ ?_ h
  · intro r hr _ _
    obtain ⟨due, hrest⟩ := knockRest_eq A r.wire
    exact hr.congr (by simp [hrest]) (by simp [hrest]) (by simp [hrest])
  · intro r hr _ _
    exact knockOpen_told hr.pushes r.wire.nextNs
  · intro r hr _ _ _
    obtain ⟨w, s, hhead, hchunks, hpushes, hlog, hwire⟩ := sendSlot_scene A now send r
    rw [hlog, hwire]
    exact (hr.congr hhead hchunks hpushes).scene s

/-- What holds of a wire's counters after every call: the transfer's are of use while it
knocks. -/
structure LifeTold (A : MasterApi μ) (l : KnockLife μ κ) : Prop where
  pushes : PushesTold A l.log l.wire
  transfer : l.wire.state = .knocking → TransferTold A l.log l.wire

/-- A run of calls keeps what the counters say. -/
theorem run_told {fuel now : Nat} {l : KnockLife μ κ} {send : Nat → Frame → Bool}
    {r : KnockRun μ κ} (h : LifeTold A l)
    (hrun : reacKnockWireRun A fuel l.wire now send = some r) :
    LifeTold A { wire := r.wire, log := r.log ++ l.log } := by
  by_cases hquiet : l.wire.state ≠ .knocking ∨ l.wire.fps = 0
  · rw [reacKnockWireRun, if_pos hquiet] at hrun
    obtain rfl : _ = r := Option.some.inj hrun
    exact h
  · have hk : l.wire.state = .knocking := by
      by_contra hc
      exact hquiet (Or.inl hc)
    rw [reacKnockWireRun, if_neg hquiet] at hrun
    obtain ⟨out, hout, rfl⟩ := Option.map_eq_some_iff.mp hrun
    obtain ⟨htold, _⟩ := loop_exit (I := fun r : KnockRun μ κ => RunTold A (r.log ++ l.log) r.wire)
      (fun _ hr => runTurn_told now send hr) fuel { wire := l.wire } out ⟨h.transfer hk, h.pushes⟩
      hout
    obtain ⟨due, hpeek⟩ := knockPeek_eq A out.wire
    have hend : RunTold A (out.log ++ l.log) (knockPeek A out.wire) :=
      htold.congr (by simp [hpeek]) (by simp [hpeek]) (by simp [hpeek])
    exact ⟨hend.pushes, fun _ => hend.transfer⟩

end

section
variable {μ κ : Type*} {A : MasterApi μ} {K : LicenceApi κ}

/-- A call that opens no knock and steps none. -/
structure NoSlot (w w' : ReacKnockWire μ κ) : Prop where
  headSent : w'.headSent = w.headSent
  chunksSent : w'.chunksSent = w.chunksSent
  pushes : w'.pushes = w.pushes
  knocking : w'.state = .knocking → w.state = .knocking

theorem NoSlot.refl (w : ReacKnockWire μ κ) : NoSlot w w := ⟨rfl, rfl, rfl, id⟩

theorem NoSlot.trans {w w' w'' : ReacKnockWire μ κ} (h : NoSlot w w') (h' : NoSlot w' w'') :
    NoSlot w w'' :=
  ⟨h'.headSent.trans h.headSent, h'.chunksSent.trans h.chunksSent, h'.pushes.trans h.pushes,
    fun hk => h.knocking (h'.knocking hk)⟩

theorem LifeTold.noSlot {l : KnockLife μ κ} {w : ReacKnockWire μ κ} (h : LifeTold A l)
    (hw : NoSlot l.wire w) : LifeTold A { l with wire := w } := by
  refine ⟨hw.pushes.trans h.pushes, ?_⟩
  intro hk
  obtain ⟨hhead, hchunks⟩ := h.transfer (hw.knocking hk)
  exact ⟨hw.headSent.trans hhead, fun t ht => hw.chunksSent.trans (hchunks t ht)⟩

theorem heard_noSlot (isControl : Frame → Bool) (w : ReacKnockWire μ κ) (now : Nat)
    (frame : Option Frame) (evidence : Bool) :
    NoSlot w (reacKnockWireHeard K isControl w now frame evidence).1 := by
  have hlicence : ∀ (w : ReacKnockWire μ κ) k, NoSlot w { w with licence := k } :=
    fun _ _ => ⟨rfl, rfl, rfl, id⟩
  have hsilence : NoSlot w (heardSilence K w now) := by
    unfold heardSilence
    simp only
    split
    · split
      · exact ⟨rfl, rfl, rfl, id⟩
      · exact ⟨rfl, rfl, rfl, id⟩
    · exact ⟨rfl, rfl, rfl, id⟩
  have hevidence : ∀ w : ReacKnockWire μ κ, NoSlot w (heardEvidence w frame evidence).1 := by
    intro w
    unfold heardEvidence
    split
    · exact ⟨rfl, rfl, rfl, by simp⟩
    · exact NoSlot.refl w
  have hkeep : ∀ w : ReacKnockWire μ κ, NoSlot w (heardKeep isControl w frame) := by
    intro w
    unfold heardKeep
    split
    · exact NoSlot.refl w
    · split
      · exact ⟨rfl, rfl, rfl, id⟩
      · exact NoSlot.refl w
  unfold reacKnockWireHeard
  split
  · exact NoSlot.refl w
  · exact hsilence.trans ((hlicence _ _).trans ((hevidence _).trans (hkeep _)))

/-- A poll knocks on a wire whose counters are as they were, or opens and steps nothing. -/
theorem step_noSlot (w : ReacKnockWire μ κ) (pinned : Bool) (now : Nat) (trunkNow : Bool) :
    let r := reacKnockWireStep A K w pinned now trunkNow
    (r.2 ≠ .knock ∧ NoSlot w r.1) ∨
      (r.2 = .knock ∧ ∃ w', w'.pushes = w.pushes ∧ r.1 = knockOpen A w' now) := by
  simp only
  unfold reacKnockWireStep
  split
  · refine Or.inl ?_
    split
    · exact ⟨by simp, NoSlot.refl w⟩
    · exact ⟨by simp, rfl, rfl, rfl, by simp⟩
  split
  · exact Or.inl ⟨by simp, rfl, rfl, rfl, by simp [backoffReset]⟩
  split
  · exact Or.inl ⟨by simp, NoSlot.refl w⟩
  split
  · exact Or.inl ⟨by simp, NoSlot.refl w⟩
  simp only
  split
  · refine Or.inr ⟨rfl, _, ?_, rfl⟩
    rfl
  · exact Or.inl ⟨by simp, rfl, rfl, rfl, id⟩

/-- The calls of one wire, from its init on. -/
def KnockCall.SameWire : KnockCall → Prop
  | .init _ _ _ => False
  | _ => True

/-- **Every call keeps what the counters say.** -/
theorem knockCall_told (isControl : Frame → Bool) {l l' : KnockLife μ κ} {c : KnockCall}
    (h : LifeTold A l) (hsame : c.SameWire) (hcall : knockCall A K isControl l c = some l') :
    LifeTold A l' := by
  cases c with
  | init src fps now => exact absurd hsame id
  | step pinned trunkNow now =>
      obtain rfl : _ = l' := Option.some.inj hcall
      rcases step_noSlot (A := A) (K := K) l.wire pinned now trunkNow with
        ⟨hact, hnone⟩ | ⟨hact, w', hpushes, hopen⟩
      · rw [stepEvents, if_neg hact]
        exact h.noSlot hnone
      · rw [stepEvents, if_pos hact, hopen]
        have hsame : PushesTold A l.log w' := hpushes.trans h.pushes
        have hopened := knockOpen_told hsame now
        exact ⟨hopened.pushes, fun _ => hopened.transfer⟩
  | heard frame evidence now =>
      obtain rfl : _ = l' := Option.some.inj hcall
      exact h.noSlot (heard_noSlot isControl _ _ _ _)
  | answerTaken now =>
      obtain rfl : _ = l' := Option.some.inj hcall
      apply h.noSlot
      unfold reacKnockWireAnswerTaken
      split
      · exact ⟨rfl, rfl, rfl, by simp⟩
      · exact ⟨rfl, rfl, rfl, id⟩
  | setHost host now =>
      obtain rfl : _ = l' := Option.some.inj hcall
      exact h.noSlot ⟨rfl, rfl, rfl, id⟩
  | run send now =>
      obtain ⟨r, hrun, rfl⟩ := Option.map_eq_some_iff.mp hcall
      exact run_told h hrun

theorem wireMachine_none (isControl : Frame → Bool) (calls : List KnockCall) :
    (wireMachine A K isControl).after none calls = none := by
  induction calls with
  | nil => rfl
  | cons c calls ih => exact ih

theorem wireMachine_told (isControl : Frame → Bool) (calls : List KnockCall) :
    ∀ l l' : KnockLife μ κ, LifeTold A l → (∀ c ∈ calls, c.SameWire) →
      (wireMachine A K isControl).after (some l) calls = some l' → LifeTold A l' := by
  induction calls with
  | nil =>
      intro l l' h _ hafter
      exact Option.some.inj hafter ▸ h
  | cons c calls ih =>
      intro l l' h hsame hafter
      have hafter : (wireMachine A K isControl).after (knockCall A K isControl l c) calls =
          some l' := hafter
      cases hcall : knockCall A K isControl l c with
      | none => simp [hcall, wireMachine_none] at hafter
      | some mid =>
          rw [hcall] at hafter
          have hmid := knockCall_told isControl h (hsame c (by simp)) hcall
          exact ih mid l' hmid (fun c hc => hsame c (by simp [hc])) hafter

/-! ### What is counted -/

/-- The counted LASTs are the whole transfers and the LASTs too many. -/
theorem counted_split (chunks : Nat) (lasts : List (List SceneSlot)) :
    lasts.countP (countedScenes chunks) =
      lasts.countP (wholeScenes chunks) + lasts.countP (lastTwice chunks) := by
  induction lasts with
  | nil => rfl
  | cons scenes lasts ih =>
      rw [List.countP_cons, List.countP_cons, List.countP_cons, ih, counted_whole]
      by_cases hwhole : wholeScenes chunks scenes = true
      · rw [hwhole, whole_not_twice hwhole]
        simp only [Bool.true_or, if_true, Bool.false_eq_true, if_false]
        omega
      · rw [Bool.eq_false_iff.mpr hwhole]
        simp only [Bool.false_or, Bool.false_eq_true, if_false]
        omega

/-- **When the pushes are the whole transfers.**  Over any calls of a wire, whatever the sender
answers, however late the runs are and whatever the master emits: a push is counted for every
whole transfer of a knock and for nothing else, if and only if no LAST leaves when the MIDDLEs
make up the number and an earlier LAST left among them. -/
theorem pushes_whole_iff [LawfulMaster A] (isControl : Frame → Bool) (src : List UInt8)
    (fps t₀ : Nat) (calls : List KnockCall) (hinit : Cadence A src fps)
    (hcalls : ∀ c ∈ calls, c.SameWire) :
    ∃ l, (wireMachine A K isControl).after
        (some { wire := reacKnockWireInit A K src fps t₀ }) calls = some l ∧
      (l.wire.pushes = (lastsLeft l.log).countP (wholeScenes A.sceneChunks) ↔
        ∀ scenes ∈ lastsLeft l.log, lastTwice A.sceneChunks scenes = false) := by
  have hkept : ∀ c ∈ calls, c.Kept A := by
    intro c hc
    cases c with
    | init src fps now => exact absurd (hcalls _ hc) id
    | step pinned trunkNow now => exact True.intro
    | heard frame evidence now => exact True.intro
    | answerTaken now => exact True.intro
    | setHost host now => exact True.intro
    | run send now => exact True.intro
  have hstart : LifeSound A { wire := reacKnockWireInit A K src fps t₀ } := by
    refine ⟨init_sound A K hinit t₀, by simp, True.intro, ?_⟩
    intro hk
    simp [reacKnockWireInit] at hk
  have htold : LifeTold A { wire := reacKnockWireInit A K src fps t₀ } := by
    refine ⟨rfl, ?_⟩
    intro hk
    simp [reacKnockWireInit] at hk
  obtain ⟨l, hl, _⟩ := wireMachine_sound A K isControl calls _ hstart hkept
  refine ⟨l, hl, ?_⟩
  have hpushes := (wireMachine_told isControl calls _ l htold hcalls hl).pushes
  unfold PushesTold at hpushes
  rw [hpushes, counted_split]
  constructor
  · intro heq scenes hmem
    have hzero : (lastsLeft l.log).countP (lastTwice A.sceneChunks) = 0 := by omega
    have hnot := List.countP_eq_zero.mp hzero scenes hmem
    simpa using hnot
  · intro hnone
    have hzero : (lastsLeft l.log).countP (lastTwice A.sceneChunks) = 0 :=
      List.countP_eq_zero.mpr fun scenes hmem => by simp [hnone scenes hmem]
    omega

end

/-! ### One cycle -/

/-- A master whose cycle is its header, a FILLER and one transfer of 341 MIDDLEs, with another
FILLER or an early LAST after the first of them. -/
def transferMaster (early : Bool) : MasterApi (Option Nat) where
  zeroed := none
  init _ _ := some 0
  cycleLen m := if m.isSome then 346 else 0
  cyclePos m := m.getD 0
  sub01Off _ := 0
  next m :=
    let emit : Nat → MasterEmit := fun
      | 0 => .control 0
      | 1 => .filler
      | 2 => .sceneHead
      | 4 => if early then .sceneTail else .filler
      | 345 => .sceneTail
      | _ => .sceneChunk
    ({ emit := emit (m.getD 0), counter := 0, idx := 0 }, m.map fun p => (p + 1) % 346)
  downstreamBuild _ src := src
  stamp _ f _ _ := some f
  sceneChunks := 341

instance (early : Bool) : LawfulMaster (transferMaster early) where
  cycleLen_next m := by cases m <;> rfl
  cycleLen_init _ _ _ := Nat.succ_pos _

/-- One knock, run often enough that nothing is late. -/
def oneKnock : List KnockCall :=
  .step false false 500000000 ::
    [507, 514, 521, 528, 535, 542, 544].map fun ms => .run (fun _ _ => true) (ms * 1000000)

theorem oneKnock_sameWire : ∀ c ∈ oneKnock, c.SameWire := by
  intro c hc
  rcases List.mem_cons.mp hc with rfl | hrun
  · exact True.intro
  · obtain ⟨ms, _, rfl⟩ := List.mem_map.mp hrun
    exact True.intro

/-- What the knock leaves. -/
def afterKnock (early : Bool) : Option (KnockLife (Option Nat) Nat) :=
  (wireMachine (transferMaster early) halfSecondLicence (fun _ => true)).after
    (some { wire := reacKnockWireInit (transferMaster early) halfSecondLicence
              [2, 0, 0, 0, 0, 1] 8000 0 }) oneKnock

theorem pushes_whole_once :
    Cadence (transferMaster false) [2, 0, 0, 0, 0, 1] 8000 ∧ (∀ c ∈ oneKnock, c.SameWire) ∧
    ∃ l, afterKnock false = some l ∧ l.wire.pushes = 1 ∧
      l.wire.pushes = (lastsLeft l.log).countP (wholeScenes 341) := by
  have hcadence : Cadence (transferMaster false) [2, 0, 0, 0, 0, 1] 8000 := by decide
  obtain ⟨l, hl, hiff⟩ := pushes_whole_iff (A := transferMaster false) (K := halfSecondLicence)
    (fun _ => true) [2, 0, 0, 0, 0, 1] 8000 0 oneKnock hcadence oneKnock_sameWire
  have hrun : (afterKnock false).map (fun l =>
      (l.wire.pushes, (lastsLeft l.log).all fun scenes => !lastTwice 341 scenes)) =
        some (1, true) := by
    decide +kernel
  have hafter : afterKnock false = some l := hl
  rw [hafter] at hrun
  obtain ⟨hpushes, hlasts⟩ := Prod.mk.inj (Option.some.inj hrun)
  refine ⟨hcadence, oneKnock_sameWire, l, hafter, hpushes, hiff.mpr ?_⟩
  intro scenes hmem
  show lastTwice 341 scenes = false
  simpa using List.all_eq_true.mp hlasts scenes hmem

/-- A LAST after the first MIDDLE: no transfer is whole, and a push is counted. -/
theorem push_with_hole :
    ¬∀ (A : MasterApi (Option Nat)) (_ : LawfulMaster A) (src : List UInt8) (fps t₀ : Nat)
      (calls : List KnockCall), Cadence A src fps → (∀ c ∈ calls, c.SameWire) →
        ∀ l, (wireMachine A halfSecondLicence (fun _ => true)).after
            (some { wire := reacKnockWireInit A halfSecondLicence src fps t₀ }) calls = some l →
          l.wire.pushes = (lastsLeft l.log).countP (wholeScenes A.sceneChunks) := by
  intro hclaim
  have hrun : (afterKnock true).map (fun l =>
      (l.wire.pushes, (lastsLeft l.log).countP (wholeScenes 341))) = some (1, 0) := by
    decide +kernel
  obtain ⟨l, hl, hcounts⟩ := Option.map_eq_some_iff.mp hrun
  obtain ⟨hpushes, hwhole⟩ := Prod.mk.inj hcounts
  have heq := hclaim (transferMaster true) inferInstance [2, 0, 0, 0, 0, 1] 8000 0 oneKnock
    (by decide) oneKnock_sameWire l hl
  have hsame : (1 : Nat) = 0 := hpushes.symm.trans (heq.trans hwhole)
  exact absurd hsame (by decide)

end ReacPw
