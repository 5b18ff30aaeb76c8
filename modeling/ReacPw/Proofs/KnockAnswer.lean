/-
The box's answer is handed once, to the master it answered, and never stale.

Kept from the code: a new spell forgets the answer of the last one, the SERVE verb
takes it off the wire before it is handed, and no re-open sees it again.  So what is
handed is handed once, and what is kept was heard since the evidence that ended the
latest spell.

Three steps break the rest, and the guard names them.  A trunk's tags end a spell's
answer without forgetting it.  A yield that puts a master up, the vacant door's
among them, serves with the carry empty while the frames wait on the wire.  And the
transfers handed with the answer are counted over the sniffer's life, so a spell
answered before it sent one whole transfer is credited with an earlier spell's.

The ledger beside the machine numbers every frame heard, and keeps the record of the
latest spell, so that "in this spell" and "not twice" can be said.
-/
import ReacPw.KnockAnswer
import ReacPw.Proofs.KnockWire

namespace ReacPw

open Loop

/-! ### Whole transfers -/

section
variable {μ κ : Type*} (A : MasterApi μ)

/-- A chunk of the scene that left. -/
def KnockEvent.chunkLeft : KnockEvent μ κ → Bool
  | .stepped s => s.emit == .sceneChunk && s.left
  | .opened _ => false

/-- What a transfer cannot have inside it: a part of the scene that was lost, another FIRST,
another knock. -/
def KnockEvent.breaks : KnockEvent μ κ → Bool
  | .stepped s => s.emit.isScene && (!s.left || s.emit == .sceneHead)
  | .opened _ => true

/-- A transfer on its way (newest first): its FIRST left, so many chunks did since, and
nothing of the scene was lost. -/
def HeadSent (log : List (KnockEvent μ κ)) (chunks : Nat) : Prop :=
  ∃ newer older, ∃ s : SlotStep μ κ, log = newer ++ .stepped s :: older ∧
    s.emit = .sceneHead ∧ s.left = true ∧
    (∀ e ∈ newer, e.breaks = false) ∧ newer.countP KnockEvent.chunkLeft = chunks

/-- A FIRST, every MIDDLE and a LAST left, and nothing of the scene was lost between. -/
def WholeSent (log : List (KnockEvent μ κ)) : Prop :=
  ∃ newer older, ∃ s : SlotStep μ κ, log = newer ++ .stepped s :: older ∧
    s.emit = .sceneTail ∧ s.left = true ∧ HeadSent older A.sceneChunks

theorem WholeSent.more {log : List (KnockEvent μ κ)} (h : WholeSent A log)
    (newer : List (KnockEvent μ κ)) : WholeSent A (newer ++ log) := by
  obtain ⟨mid, older, s, hlog, htail⟩ := h
  exact ⟨newer ++ mid, older, s, by rw [hlog, List.append_assoc], htail⟩

/-- The counters of a spell say what its record says. -/
structure SpellCounts (pushes₀ : Nat) (spell : List (KnockEvent μ κ)) (w : ReacKnockWire μ κ) :
    Prop where
  head : w.headSent = true → HeadSent spell w.chunksSent
  since : pushes₀ ≤ w.pushes
  whole : pushes₀ < w.pushes → WholeSent A spell

variable {A}

theorem HeadSent.more {spell : List (KnockEvent μ κ)} {chunks : Nat} (h : HeadSent spell chunks)
    {e : KnockEvent μ κ} (hbreak : e.breaks = false) :
    HeadSent (e :: spell) (chunks + if e.chunkLeft then 1 else 0) := by
  obtain ⟨newer, older, s, hlog, hemit, hleft, hkeep, hcount⟩ := h
  refine ⟨e :: newer, older, s, by rw [hlog]; rfl, hemit, hleft, ?_, ?_⟩
  · intro e' he'
    rcases List.mem_cons.mp he' with rfl | hold
    · exact hbreak
    · exact hkeep e' hold
  · rw [List.countP_cons, hcount]

/-- **One slot keeps the count**: a transfer is counted when its LAST leaves, and only if
nothing of it was lost. -/
theorem SpellCounts.scene {pushes₀ : Nat} {spell : List (KnockEvent μ κ)}
    {w : ReacKnockWire μ κ} (h : SpellCounts A pushes₀ spell w) (s : SlotStep μ κ) :
    SpellCounts A pushes₀ (.stepped s :: spell) (sceneStep A w s.emit s.left) := by
  have hwhole : pushes₀ < w.pushes → WholeSent A (.stepped s :: spell) :=
    fun hlt => (h.whole hlt).more A [.stepped s]
  have hkeeps : ∀ {chunks}, HeadSent spell chunks → KnockEvent.breaks (.stepped s) = false →
      KnockEvent.chunkLeft (.stepped s) = false → HeadSent (.stepped s :: spell) chunks := by
    intro chunks hhead hbreak hchunk
    simpa [hchunk] using hhead.more hbreak
  unfold sceneStep
  by_cases hscene : s.emit.isScene = true
  · by_cases hleft : s.left = true
    · simp only [hscene, hleft, Bool.not_true, Bool.false_eq_true, if_false]
      cases hemit : s.emit with
      | sceneHead =>
          refine ⟨fun _ => ?_, h.since, hwhole⟩
          exact ⟨[], spell, s, rfl, hemit, hleft, by simp, rfl⟩
      | sceneChunk =>
          refine ⟨fun hhead => ?_, h.since, hwhole⟩
          have hmore := (h.head hhead).more (e := .stepped s)
            (by simp [KnockEvent.breaks, hemit, hleft])
          simpa [KnockEvent.chunkLeft, hemit, hleft] using hmore
      | sceneTail =>
          by_cases hdone : w.headSent = true ∧ w.chunksSent = A.sceneChunks
          · simp only [hdone, and_self, if_pos]
            have hsince := h.since
            refine ⟨by simp, by simp only; omega, fun _ => ?_⟩
            exact ⟨[], spell, s, rfl, hemit, hleft, hdone.2 ▸ h.head hdone.1⟩
          · simp only [hdone, if_false]
            refine ⟨fun hhead => ?_, h.since, hwhole⟩
            exact hkeeps (h.head hhead) (by simp [KnockEvent.breaks, hemit, hleft])
              (by simp [KnockEvent.chunkLeft, hemit])
      | filler => simp [MasterEmit.isScene, hemit] at hscene
      | control kind => simp [MasterEmit.isScene, hemit] at hscene
    · simp only [hscene, hleft, Bool.not_true, Bool.false_eq_true, if_false, Bool.not_false,
        if_true]
      exact ⟨by simp, h.since, hwhole⟩
  · simp only [hscene, Bool.not_false, if_true]
    refine ⟨fun hhead => ?_, h.since, hwhole⟩
    refine hkeeps (h.head hhead) (by simp [KnockEvent.breaks, hscene]) ?_
    cases hemit : s.emit with
    | sceneChunk => simp [MasterEmit.isScene, hemit] at hscene
    | sceneHead => simp [KnockEvent.chunkLeft, hemit]
    | sceneTail => simp [KnockEvent.chunkLeft, hemit]
    | filler => simp [KnockEvent.chunkLeft, hemit]
    | control kind => simp [KnockEvent.chunkLeft, hemit]

/-- The transfer's counters, which a slot hands to the scene's accounting as they are. -/
theorem SpellCounts.congr {pushes₀ : Nat} {spell : List (KnockEvent μ κ)}
    {w w' : ReacKnockWire μ κ} (h : SpellCounts A pushes₀ spell w)
    (hhead : w'.headSent = w.headSent) (hchunks : w'.chunksSent = w.chunksSent)
    (hpushes : w'.pushes = w.pushes) : SpellCounts A pushes₀ spell w' := by
  refine ⟨?_, ?_, ?_⟩
  · rw [hhead, hchunks]
    exact h.head
  · rw [hpushes]
    exact h.since
  · rw [hpushes]
    exact h.whole

theorem sendSlot_counts {pushes₀ : Nat} {base : List (KnockEvent μ κ)} {r : KnockRun μ κ}
    (now : Nat) (send : Nat → Frame → Bool)
    (h : SpellCounts A pushes₀ (r.log ++ base) r.wire) :
    SpellCounts A pushes₀ ((sendSlot A now send r).log ++ base) (sendSlot A now send r).wire := by
  obtain ⟨w, s, hhead, hchunks, hpushes, hlog, hwire⟩ := sendSlot_scene A now send r
  rw [hlog, hwire]
  exact (h.congr hhead hchunks hpushes).scene s

theorem knockOpen_counts {pushes₀ : Nat} {spell : List (KnockEvent μ κ)}
    {w : ReacKnockWire μ κ} (h : SpellCounts A pushes₀ spell w) (atNs : Nat) :
    SpellCounts A pushes₀ (.opened atNs :: spell) (knockOpen A w atNs) := by
  obtain ⟨due, hopen⟩ := knockOpen_eq A w atNs
  rw [hopen]
  exact ⟨by simp, h.since, fun hlt => (h.whole hlt).more A [.opened atNs]⟩

theorem runTurn_counts {pushes₀ : Nat} {base : List (KnockEvent μ κ)} {r : KnockRun μ κ}
    (now : Nat) (send : Nat → Frame → Bool)
    (h : SpellCounts A pushes₀ (r.log ++ base) r.wire) :
    SpellCounts A pushes₀ ((runTurn A now send r).1.log ++ base)
      (runTurn A now send r).1.wire := by
  refine runTurn_keeps A
    (I := fun r : KnockRun μ κ => SpellCounts A pushes₀ (r.log ++ base) r.wire) ?_ ?_ ?_ h
  · intro r hr _ _
    obtain ⟨due, hrest⟩ := knockRest_eq A r.wire
    exact hr.congr (by simp [hrest]) (by simp [hrest]) (by simp [hrest])
  · intro r hr _ _
    exact knockOpen_counts hr r.wire.nextNs
  · intro r hr _ _ _
    exact sendSlot_counts now send hr

/-- **A run counts only whole transfers of its spell.** -/
theorem run_counts {pushes₀ fuel now : Nat} {spell : List (KnockEvent μ κ)}
    {w : ReacKnockWire μ κ} {send : Nat → Frame → Bool} {r : KnockRun μ κ}
    (h : SpellCounts A pushes₀ spell w) (hrun : reacKnockWireRun A fuel w now send = some r) :
    SpellCounts A pushes₀ (r.log ++ spell) r.wire := by
  by_cases hquiet : w.state ≠ .knocking ∨ w.fps = 0
  · rw [reacKnockWireRun, if_pos hquiet] at hrun
    obtain rfl : _ = r := Option.some.inj hrun
    exact h
  · rw [reacKnockWireRun, if_neg hquiet] at hrun
    obtain ⟨out, hout, rfl⟩ := Option.map_eq_some_iff.mp hrun
    obtain ⟨hcounts, _⟩ := loop_exit
      (I := fun r : KnockRun μ κ => SpellCounts A pushes₀ (r.log ++ spell) r.wire)
      (fun _ hr => runTurn_counts now send hr) fuel { wire := w } out h hout
    obtain ⟨due, hpeek⟩ := knockPeek_eq A out.wire
    exact hcounts.congr (by simp [hpeek]) (by simp [hpeek]) (by simp [hpeek])

end

/-! ### The ledger -/

section
variable {μ κ : Type*}

/-- A frame heard, under its number. -/
abbrev Heard := Nat × Frame

/-- An open, with the frames it was handed and the spell they answered. -/
structure Given (μ κ : Type*) where
  opened : AnswerOpen
  frames : List Heard
  spell : List (KnockEvent μ κ)

/-- What is noted of a segment's run. -/
structure AnswerLedger (μ κ : Type*) where
  /-- What the knock did in the latest spell, newest first. -/
  spell : List (KnockEvent μ κ) := []
  /-- The transfers counted before it. -/
  pushes₀ : Nat := 0
  /-- Evidence was heard in it, and no trunk's tags since. -/
  ended : Bool := false
  /-- The frames heard from that evidence on, cut as the wire cuts them. -/
  since : List Heard := []
  /-- Of which the wire keeps these. -/
  kept : List Heard := []
  /-- The number of the next frame. -/
  number : Nat := 0
  opens : List (Given μ κ) := []

/-- A wire that is listened to afresh. -/
def AnswerLedger.fresh (h : AnswerLedger μ κ) : AnswerLedger μ κ :=
  { number := h.number, opens := h.opens }

/-- What the poll's step means for the ledger. -/
def notePoll (h : AnswerLedger μ κ) (w : ReacKnockWire μ κ) (act : KnockWireAct) (now : Nat) :
    AnswerLedger μ κ :=
  match act with
  | .knock =>
      { h.fresh with spell := [.opened now], pushes₀ := w.pushes }
  | .trunk => { h with ended := false, since := [] }
  | _ => h

/-- Evidence that ends a knock starts the answer. -/
def noteHush (h : AnswerLedger μ κ) (act : KnockWireAct) : AnswerLedger μ κ :=
  if act = .hush then { h with ended := true, since := [], kept := [] } else h

/-- A frame heard on a wire that keeps so many after it. -/
def noteHeard (h : AnswerLedger μ κ) (keeps : Nat) (f : Frame) : AnswerLedger μ κ :=
  let entry : Heard := (h.number, f.take reacFrameBytes)
  { h with
    number := h.number + 1
    since := if h.ended then h.since ++ [entry] else h.since
    kept := if keeps = h.kept.length + 1 then h.kept ++ [entry] else h.kept }

/-- An open, by what it was handed. -/
def noteOpen (h : AnswerLedger μ κ) : Option AnswerOpen → AnswerLedger μ κ
  | none => h
  | some o =>
      { h with
        opens :=
          { opened := o, frames := if o.handed = [] then [] else h.kept, spell := h.spell } ::
            h.opens }

def noteAnswer (h : AnswerLedger μ κ) (s : KnockSegment μ κ) (act : AnswerAct)
    (s' : KnockSegment μ κ) (out : AnswerOut μ κ) : AnswerLedger μ κ :=
  match act with
  | .listen _ _ _ => if s.kw.isSome then h else h.fresh
  | .unlisten => h.fresh
  | .linkLost => h.fresh
  | .poll _ now =>
      match s.kw with
      | none => h
      | some w => notePoll h w out.act now
  | .frame f _ _ =>
      match s.kw with
      | none => h
      | some _ => noteHeard (noteHush h out.act) s'.held.length f
  | .knockTimer _ _ _ => { h with spell := out.log ++ h.spell }
  | .serve _ _ _ =>
      -- the verb takes the answer off the wire, and may close its sniffer
      let h' := noteOpen h out.opened
      if s'.kw.isSome then { h' with kept := [] } else h'.fresh
  | .yield _ _ _ _ _ => noteOpen h out.opened
  | .reopen _ _ _ => noteOpen h out.opened
  | .dropped => h
  | .setHost _ => h

/-- The answer is fresh and handed once: the wire keeps only frames heard since the evidence that
ended the latest spell; a master is handed what the wire held; nothing is handed twice; and a
transfer is credited only to a spell that sent one. -/
structure AnswerFresh (A : MasterApi μ) (s : KnockSegment μ κ) (h : AnswerLedger μ κ) :
    Prop where
  numbered : ∀ w, s.kw = some w → h.kept.map (·.2) = w.answer
  fresh : h.kept.Sublist h.since
  handed : ∀ g ∈ h.opens, g.opened.serve = true → g.opened.master = true →
    g.opened.handed = g.opened.held
  frames : ∀ g ∈ h.opens, g.frames.map (·.2) = g.opened.handed
  once : (h.opens.flatMap fun g => g.frames.map (·.1)).Nodup
  pushes : ∀ g ∈ h.opens, g.opened.handed ≠ [] → 0 < g.opened.pushes → WholeSent A g.spell

/-- What the wire of an open sniffer says, the ledger says. -/
structure WireNoted (A : MasterApi μ) (w : ReacKnockWire μ κ) (h : AnswerLedger μ κ) : Prop where
  numbered : h.kept.map (·.2) = w.answer
  answered : w.answer ≠ [] → w.state = .answered
  ended : w.state = .answered → h.ended = true
  counts : SpellCounts A h.pushes₀ h.spell w

/-- The frames noted are numbered apart, the kept ones from the given ones too. -/
structure LedgerApart (h : AnswerLedger μ κ) : Prop where
  fresh : h.kept.Sublist h.since
  below : ∀ e ∈ h.since, e.1 < h.number
  apart : (h.since.map (·.1)).Nodup
  given : ∀ g ∈ h.opens, ∀ e ∈ g.frames, e.1 < h.number ∧ e.1 ∉ h.kept.map (·.1)
  once : (h.opens.flatMap fun g => g.frames.map (·.1)).Nodup

/-- What was handed so far is what the wire held, and a transfer credited was sent. -/
structure OpensFresh (A : MasterApi μ) (opens : List (Given μ κ)) : Prop where
  handed : ∀ g ∈ opens, g.opened.serve = true → g.opened.master = true →
    g.opened.handed = g.opened.held
  frames : ∀ g ∈ opens, g.frames.map (·.2) = g.opened.handed
  pushes : ∀ g ∈ opens, g.opened.handed ≠ [] → 0 < g.opened.pushes → WholeSent A g.spell

/-- The invariant.  Between two acts the carry is empty. -/
structure AnswerSound (A : MasterApi μ) (s : KnockSegment μ κ) (h : AnswerLedger μ κ) :
    Prop where
  carry : s.carry = []
  knockAnswer : s.knockAnswer = []
  wire : ∀ w, s.kw = some w → WireNoted A w h
  closed : s.kw = none → h.kept = []
  apart : LedgerApart h
  opens : OpensFresh A h.opens

variable {A : MasterApi μ} {K : LicenceApi κ}

theorem AnswerSound.answerFresh {s : KnockSegment μ κ} {h : AnswerLedger μ κ}
    (hs : AnswerSound A s h) : AnswerFresh A s h :=
  ⟨fun w hw => (hs.wire w hw).numbered, hs.apart.fresh, hs.opens.handed, hs.opens.frames,
    hs.apart.once, hs.opens.pushes⟩

/-- A ledger that forgets what was heard keeps its numbers apart. -/
theorem LedgerApart.forget {h h' : AnswerLedger μ κ} (hl : LedgerApart h)
    (hkept : h'.kept = []) (hsince : h'.since = []) (hnum : h'.number = h.number)
    (hopens : h'.opens = h.opens) : LedgerApart h' := by
  refine ⟨by simp [hkept], by simp [hsince], by simp [hsince], ?_, by rw [hopens]; exact hl.once⟩
  intro g hg e he
  rw [hopens] at hg
  rw [hnum, hkept]
  exact ⟨(hl.given g hg e he).1, by simp⟩

/-- The wire's frames are taken off it. -/
theorem LedgerApart.taken {h : AnswerLedger μ κ} (hl : LedgerApart h) :
    LedgerApart { h with kept := [] } :=
  ⟨by simp, hl.below, hl.apart, fun g hg e he => ⟨(hl.given g hg e he).1, by simp⟩, hl.once⟩

/-- A frame heard is numbered past every other. -/
theorem noteHeard_apart {h : AnswerLedger μ κ} (hl : LedgerApart h) (keeps : Nat) (f : Frame)
    (hkeep : keeps = h.kept.length + 1 → h.ended = true) :
    LedgerApart (noteHeard h keeps f) := by
  unfold noteHeard
  refine ⟨?_, ?_, ?_, ?_, hl.once⟩
  · by_cases hadd : keeps = h.kept.length + 1
    · simp only [hadd, hkeep hadd, if_true]
      exact hl.fresh.append (List.Sublist.refl _)
    · simp only [hadd, if_false]
      split
      · exact hl.fresh.trans (List.sublist_append_left _ _)
      · exact hl.fresh
  · intro e he
    have hcases : e ∈ h.since ∨ e.1 = h.number := by
      by_cases hended : h.ended = true
      · simp only [hended, if_true, List.mem_append, List.mem_singleton] at he
        rcases he with hold | rfl
        · exact Or.inl hold
        · exact Or.inr rfl
      · simp only [hended] at he
        exact Or.inl he
    show e.1 < h.number + 1
    rcases hcases with hold | hnew
    · have := hl.below e hold
      omega
    · omega
  · by_cases hended : h.ended = true
    · simp only [hended, if_true, List.map_append, List.nodup_append]
      refine ⟨hl.apart, by simp, ?_⟩
      intro a ha b hb
      obtain ⟨e, he, rfl⟩ := List.mem_map.mp ha
      have hlt := hl.below e he
      have hnew : b = h.number := by simpa using hb
      omega
    · simp only [hended]
      exact hl.apart
  · intro g hg e he
    obtain ⟨hlt, hnot⟩ := hl.given g hg e he
    refine ⟨Nat.lt_succ_of_lt hlt, ?_⟩
    by_cases hadd : keeps = h.kept.length + 1
    · simp only [hadd, if_true, List.map_append, List.mem_append]
      rintro (hold | hnew)
      · exact hnot hold
      · have : e.1 = h.number := by simpa using hnew
        omega
    · simp only [hadd, if_false]
      exact hnot

theorem noteHush_apart {h : AnswerLedger μ κ} (hl : LedgerApart h) (act : KnockWireAct) :
    LedgerApart (noteHush h act) := by
  unfold noteHush
  split
  · exact hl.forget rfl rfl rfl rfl
  · exact hl

/-- The transfer's counters, which hearing a frame leaves alone. -/
structure SameTransfer (w w' : ReacKnockWire μ κ) : Prop where
  headSent : w'.headSent = w.headSent
  chunksSent : w'.chunksSent = w.chunksSent
  pushes : w'.pushes = w.pushes

theorem SameTransfer.trans {w w' w'' : ReacKnockWire μ κ} (h : SameTransfer w w')
    (h' : SameTransfer w' w'') : SameTransfer w w'' :=
  ⟨h'.headSent.trans h.headSent, h'.chunksSent.trans h.chunksSent, h'.pushes.trans h.pushes⟩

theorem heardSilence_answer (w : ReacKnockWire μ κ) (now : Nat) :
    (heardSilence K w now).state = w.state ∧ (heardSilence K w now).answer = w.answer ∧
      SameTransfer w (heardSilence K w now) := by
  unfold heardSilence
  simp only
  split
  · split
    · exact ⟨rfl, rfl, rfl, rfl, rfl⟩
    · exact ⟨rfl, rfl, rfl, rfl, rfl⟩
  · exact ⟨rfl, rfl, rfl, rfl, rfl⟩

theorem heardEvidence_answer (w : ReacKnockWire μ κ) (f : Frame) (evidence : Bool) :
    let r := heardEvidence w (some f) evidence
    r.1.answer = (if r.2 = .hush then [] else w.answer) ∧
      r.1.state = (if r.2 = .hush then .answered else w.state) ∧ SameTransfer w r.1 := by
  simp only
  unfold heardEvidence
  by_cases hev : w.state = .knocking ∧ evidence = true
  · rw [if_pos hev]
    exact ⟨rfl, rfl, rfl, rfl, rfl⟩
  · rw [if_neg hev]
    exact ⟨rfl, rfl, rfl, rfl, rfl⟩

theorem heardKeep_answer (isControl : Frame → Bool) (w : ReacKnockWire μ κ) (f : Frame) :
    let v := heardKeep isControl w (some f)
    (v.answer = w.answer ∨ v.answer = w.answer ++ [f.take reacFrameBytes] ∧ w.state = .answered) ∧
      v.state = w.state ∧ SameTransfer w v := by
  simp only
  unfold heardKeep
  simp only
  split
  · rename_i hkeep
    exact ⟨Or.inr ⟨rfl, hkeep.1⟩, rfl, rfl, rfl, rfl⟩
  · exact ⟨Or.inl rfl, rfl, rfl, rfl, rfl⟩

/-- **What a frame does to the answer.**  Evidence that ends a knock forgets the last one; a
frame is kept only on a wire that was answered. -/
theorem reacKnockWireHeard_answer (isControl : Frame → Bool) (w : ReacKnockWire μ κ) (now : Nat)
    (f : Frame) (evidence : Bool) :
    let r := reacKnockWireHeard K isControl w now (some f) evidence
    let base := if r.2 = .hush then [] else w.answer
    (r.1.answer = base ∨
        r.1.answer = base ++ [f.take reacFrameBytes] ∧ r.1.state = .answered) ∧
      r.1.state = (if r.2 = .hush then .answered else w.state) ∧ SameTransfer w r.1 := by
  simp only
  by_cases htrunk : w.state = .trunk
  · have hsame : reacKnockWireHeard K isControl w now (some f) evidence = (w, .none) := by
      rw [reacKnockWireHeard, if_pos htrunk]
    rw [hsame]
    exact ⟨Or.inl rfl, rfl, rfl, rfl, rfl⟩
  obtain ⟨hs, ha, ht⟩ := heardSilence_answer (K := K) w now
  obtain ⟨v, hv⟩ : ∃ v, v = { heardSilence K w now with
    licence := K.heard (heardSilence K w now).licence now } := ⟨_, rfl⟩
  have hvs : v.state = w.state := by rw [hv]; exact hs
  have hva : v.answer = w.answer := by rw [hv]; exact ha
  have hvt : SameTransfer w v := by rw [hv]; exact ⟨ht.headSent, ht.chunksSent, ht.pushes⟩
  have hheard : reacKnockWireHeard K isControl w now (some f) evidence =
      (heardKeep isControl (heardEvidence v (some f) evidence).1 (some f),
        (heardEvidence v (some f) evidence).2) := by
    rw [reacKnockWireHeard, if_neg htrunk, hv]
  obtain ⟨hea, hes, het⟩ := heardEvidence_answer v f evidence
  obtain ⟨hka, hks, hkt⟩ := heardKeep_answer isControl (heardEvidence v (some f) evidence).1 f
  rw [hheard]
  rw [hva] at hea
  rw [hvs] at hes
  simp only at hea hes hka hks ⊢
  refine ⟨?_, hks.trans hes, (hvt.trans het).trans hkt⟩
  rw [hea] at hka
  rcases hka with hsame | ⟨hadd, hans⟩
  · exact Or.inl hsame
  · exact Or.inr ⟨hadd, hks.trans hans⟩

/-! ### What the acts keep -/

/-- What one serve hands on: the carry to a master, and nothing to anybody else. -/
theorem hearingServeAnswer_spec (s : KnockSegment μ κ) (held : List Frame) (hunt : Option Hunt)
    (a : AnswerServe) :
    let r := hearingServeAnswer s held hunt a
    let masters := mastersWire (serveCfg s.name a.conf hunt a.forcedRate)
    r.1.kw = s.kw ∧ (r.1.knockAnswer = s.knockAnswer ∨ r.1.knockAnswer = []) ∧
      ∀ o, r.2 = some o → o.held = held ∧ (o.master = true → o.handed = s.carry) ∧
        (o.handed = [] ∨ o.handed = s.carry ∧ o.pushes = s.carryPushes ∧ masters = true) := by
  simp only
  unfold hearingServeAnswer
  by_cases hopen : s.L.opened = true
  · rw [if_pos hopen]
    exact ⟨rfl, Or.inl rfl, by simp⟩
  rw [if_neg hopen]
  by_cases hslot : (!a.slotFree) = true
  · rw [if_pos hslot]
    exact ⟨rfl, Or.inl rfl, by simp⟩
  rw [if_neg hslot]
  refine ⟨rfl, Or.inr rfl, ?_⟩
  intro o ho
  obtain rfl := Option.some.inj ho
  refine ⟨rfl, ?_, ?_⟩
  · intro hmaster
    simp only [Bool.and_eq_true] at hmaster
    by_cases hcarry : s.carry = []
    · simp [hcarry]
    · simp [hcarry, hmaster.2]
  · by_cases hands : s.carry ≠ [] ∧
        mastersWire (serveCfg s.name a.conf hunt a.forcedRate) = true
    · exact Or.inr ⟨if_pos hands, if_pos hands, hands.2⟩
    · exact Or.inl (if_neg hands)

/-- A serve opens something only on a slot that is free, and nothing that is open. -/
theorem serve_opens {s : KnockSegment μ κ} {held : List Frame} {hunt : Option Hunt}
    {a : AnswerServe} {o : AnswerOpen} (ho : (hearingServeAnswer s held hunt a).2 = some o) :
    s.L.opened = false ∧ a.slotFree = true := by
  unfold hearingServeAnswer at ho
  split at ho
  · cases ho
  · rename_i hopen
    split at ho
    · cases ho
    · rename_i hslot
      exact ⟨Bool.not_eq_true _ ▸ hopen, by simpa using hslot⟩

/-- An open that counts as a master's is one whose configuration masters the wire. -/
theorem serve_masters {s : KnockSegment μ κ} {held : List Frame} {hunt : Option Hunt}
    {a : AnswerServe} {o : AnswerOpen} (ho : (hearingServeAnswer s held hunt a).2 = some o)
    (hm : o.master = true) : mastersWire (serveCfg s.name a.conf hunt a.forcedRate) = true := by
  unfold hearingServeAnswer at ho
  split at ho
  · cases ho
  · split at ho
    · cases ho
    · obtain rfl := Option.some.inj ho
      simp only [Bool.and_eq_true] at hm
      exact hm.2

/-- An open that was handed nothing. -/
theorem noteOpen_nothing {h : AnswerLedger μ κ} (hl : LedgerApart h)
    (hf : OpensFresh A h.opens) {opened : Option AnswerOpen}
    (hnone : ∀ o, opened = some o → o.handed = [] ∧ (o.master = true → o.serve = true →
      o.held = [])) :
    LedgerApart (noteOpen h opened) ∧ OpensFresh A (noteOpen h opened).opens := by
  cases opened with
  | none => exact ⟨hl, hf⟩
  | some o =>
      obtain ⟨hhanded, hheld⟩ := hnone o rfl
      simp only [noteOpen, hhanded, if_true]
      refine ⟨⟨hl.fresh, hl.below, hl.apart, ?_, by simpa using hl.once⟩, ?_, ?_, ?_⟩
      · intro g hg e he
        rcases List.mem_cons.mp hg with rfl | hold
        · simp at he
        · exact hl.given g hold e he
      · intro g hg hserve hmaster
        rcases List.mem_cons.mp hg with rfl | hold
        · exact hhanded.trans (hheld hmaster hserve).symm
        · exact hf.handed g hold hserve hmaster
      · intro g hg
        rcases List.mem_cons.mp hg with rfl | hold
        · simp [hhanded]
        · exact hf.frames g hold
      · intro g hg hne hpos
        rcases List.mem_cons.mp hg with rfl | hold
        · exact absurd hhanded hne
        · exact hf.pushes g hold hne hpos

/-- An open that was handed what the wire kept, which is then off the wire. -/
theorem noteOpen_taken {h : AnswerLedger μ κ} (hl : LedgerApart h) (hf : OpensFresh A h.opens)
    {opened : Option AnswerOpen}
    (hall : ∀ o, opened = some o → (o.master = true → o.serve = true → o.handed = o.held) ∧
      (o.handed = [] ∨ o.handed = h.kept.map (·.2) ∧
        (0 < o.pushes → WholeSent A h.spell))) :
    LedgerApart { noteOpen h opened with kept := [] } ∧
      OpensFresh A (noteOpen h opened).opens := by
  cases opened with
  | none => exact ⟨hl.taken, hf⟩
  | some o =>
      obtain ⟨hheld, hcases⟩ := hall o rfl
      obtain ⟨frames, hframes⟩ : ∃ frames, frames = if o.handed = [] then [] else h.kept :=
        ⟨_, rfl⟩
      have hsub : frames.Sublist h.kept := by
        rw [hframes]
        split
        · exact List.nil_sublist _
        · exact List.Sublist.refl _
      have hmap : frames.map (·.2) = o.handed := by
        rw [hframes]
        rcases hcases with hnil | ⟨hkept, _⟩
        · simp [hnil]
        · split
          · rename_i hnil
            rw [hnil]
            rfl
          · exact hkept.symm
      have hnodup : (frames.map (·.1)).Nodup :=
        ((hsub.trans hl.fresh).map (·.1)).nodup hl.apart
      simp only [noteOpen, ← hframes]
      refine ⟨⟨by simp, hl.below, hl.apart, ?_, ?_⟩, ?_, ?_, ?_⟩
      · intro g hg e he
        refine ⟨?_, by simp⟩
        rcases List.mem_cons.mp hg with rfl | hold
        · exact hl.below e ((hsub.trans hl.fresh).subset he)
        · exact (hl.given g hold e he).1
      · simp only [List.flatMap_cons, List.nodup_append]
        refine ⟨hnodup, hl.once, ?_⟩
        intro x hx y hy hxy
        obtain ⟨g, hg, hmem⟩ := List.mem_flatMap.mp hy
        obtain ⟨e, he, rfl⟩ := List.mem_map.mp hmem
        rw [hxy] at hx
        exact (hl.given g hg e he).2 ((hsub.map (·.1)).subset hx)
      · intro g hg hserve hmaster
        rcases List.mem_cons.mp hg with rfl | hold
        · exact hheld hmaster hserve
        · exact hf.handed g hold hserve hmaster
      · intro g hg
        rcases List.mem_cons.mp hg with rfl | hold
        · exact hmap
        · exact hf.frames g hold
      · intro g hg hne hpos
        rcases List.mem_cons.mp hg with rfl | hold
        · rcases hcases with hnil | ⟨_, hwhole⟩
          · exact absurd hnil hne
          · exact hwhole hpos
        · exact hf.pushes g hold hne hpos

/-- The acts that keep the answer fresh: no trunk's tags find frames kept, no yield opens a
master over them, and a SERVE that opens a master with frames and transfers is on a spell that
sent one. -/
def AnswerAct.Clean (s : KnockSegment μ κ) (h : AnswerLedger μ κ) : AnswerAct → Prop
  | .poll trunkNow _ =>
      trunkNow = true → ∀ w, s.kw = some w → w.state ≠ .trunk → w.answer = []
  | .serve hunt _ a =>
      s.L.opened = false → a.slotFree = true → ∀ w, s.kw = some w →
        mastersWire (serveCfg s.name a.conf (some hunt) a.forcedRate) = true →
        w.answer ≠ [] → 0 < w.pushes → h.pushes₀ < w.pushes
  | .yield staleNs sniffer hunt a now =>
      yieldServes s staleNs sniffer hunt now = true → a.slotFree = true →
        mastersWire (serveCfg s.name a.conf (some hunt) a.forcedRate) = true → s.held = []
  | _ => True

/-! ### The knock's own acts -/

/-- **A poll forgets the answer when it knocks, and moves nothing else of it**; a trunk's tags
change the state alone. -/
theorem reacKnockWireStep_answer (w : ReacKnockWire μ κ) (now : Nat) (trunkNow : Bool) :
    let r := reacKnockWireStep A K w false now trunkNow
    (r.2 = .knock ∧ r.1.answer = [] ∧ r.1.state = .knocking ∧ r.1.headSent = false ∧
        r.1.pushes = w.pushes) ∨
      (r.2 = .trunk ∧ trunkNow = true ∧ w.state ≠ .trunk ∧ r.1.state = .trunk ∧
        r.1.answer = w.answer ∧ SameTransfer w r.1) ∨
      (r.2 ≠ .knock ∧ r.2 ≠ .trunk ∧ r.1.answer = w.answer ∧ SameTransfer w r.1 ∧
        (r.1.state = w.state ∨ w.state = .trunk ∧ r.1.state = .listening)) := by
  have hstay : SameTransfer w w := ⟨rfl, rfl, rfl⟩
  simp only
  unfold reacKnockWireStep
  by_cases htrunk : trunkNow = true
  · rw [if_pos htrunk]
    by_cases hstate : w.state = .trunk
    · rw [if_pos hstate]
      exact Or.inr (Or.inr ⟨by simp, by simp, rfl, hstay, Or.inl rfl⟩)
    · rw [if_neg hstate]
      exact Or.inr (Or.inl ⟨rfl, htrunk, hstate, rfl, rfl, rfl, rfl, rfl⟩)
  rw [if_neg htrunk]
  by_cases hstate : w.state = .trunk
  · rw [if_pos hstate]
    exact Or.inr (Or.inr ⟨by simp, by simp, rfl, ⟨rfl, rfl, rfl⟩, Or.inr ⟨hstate, rfl⟩⟩)
  rw [if_neg hstate, if_neg Bool.false_ne_true]
  by_cases hk : w.state = .knocking
  · rw [if_pos hk]
    exact Or.inr (Or.inr ⟨by simp, by simp, rfl, hstay, Or.inl rfl⟩)
  rw [if_neg hk]
  by_cases hdrive : (K.step w.licence now).2 = true
  · simp only [hdrive, if_pos]
    obtain ⟨due, hopen⟩ := knockOpen_eq A { w with
      licence := (K.step w.licence now).1, state := .knocking, knocks := w.knocks + 1,
      cycles := 0, spellSent := 0, answer := [] } now
    rw [hopen]
    exact Or.inl ⟨True.intro, rfl, rfl, rfl, rfl⟩
  · simp only [hdrive]
    exact Or.inr (Or.inr ⟨by simp, by simp, rfl, ⟨rfl, rfl, rfl⟩, Or.inl rfl⟩)

/-- A run is the knock's, and leaves the answer alone. -/
theorem run_answer {fuel now : Nat} {w : ReacKnockWire μ κ} {send : Nat → Frame → Bool}
    {r : KnockRun μ κ} (hrun : reacKnockWireRun A fuel w now send = some r) :
    r.wire.answer = w.answer ∧ r.wire.state = w.state := by
  by_cases hquiet : w.state ≠ .knocking ∨ w.fps = 0
  · rw [reacKnockWireRun, if_pos hquiet] at hrun
    obtain rfl : _ = r := Option.some.inj hrun
    exact ⟨rfl, rfl⟩
  rw [reacKnockWireRun, if_neg hquiet] at hrun
  obtain ⟨out, hout, rfl⟩ := Option.map_eq_some_iff.mp hrun
  have hturn : ∀ r : KnockRun μ κ, r.wire.answer = w.answer ∧ r.wire.state = w.state →
      (runTurn A now send r).1.wire.answer = w.answer ∧
        (runTurn A now send r).1.wire.state = w.state := by
    intro r hr
    refine runTurn_keeps A
      (I := fun r => r.wire.answer = w.answer ∧ r.wire.state = w.state) ?_ ?_ ?_ hr
    · intro r hr _ _
      obtain ⟨due, hrest⟩ := knockRest_eq A r.wire
      simpa [hrest] using hr
    · intro r hr _ _
      obtain ⟨due, hopen⟩ := knockOpen_eq A r.wire r.wire.nextNs
      simpa [restOver, hopen] using hr
    · intro r hr _ _ _
      obtain ⟨ht, _⟩ := sendSlot_taken A now send r
      exact ⟨ht.answer.trans hr.1, ht.state.trans hr.2⟩
  obtain ⟨hsame, _⟩ := loop_exit hturn fuel { wire := w } out ⟨rfl, rfl⟩ hout
  obtain ⟨due, hpeek⟩ := knockPeek_eq A out.wire
  simpa [hpeek] using hsame

/-- A wire that has moved only its knock. -/
theorem WireNoted.moved {w w' : ReacKnockWire μ κ} {h : AnswerLedger μ κ} (hw : WireNoted A w h)
    (hanswer : w'.answer = w.answer) (hstate : w'.state = w.state)
    (hcounts : SpellCounts A h.pushes₀ h.spell w') : WireNoted A w' h :=
  ⟨hanswer ▸ hw.numbered, by rw [hanswer, hstate]; exact hw.answered,
    by rw [hstate]; exact hw.ended, hcounts⟩

theorem WireNoted.none_kept {w : ReacKnockWire μ κ} {h : AnswerLedger μ κ}
    (hw : WireNoted A w h) (hnil : w.answer = []) : h.kept = [] := by
  have := hw.numbered
  rw [hnil] at this
  simpa using this

theorem poll_noted {w : ReacKnockWire μ κ} {h : AnswerLedger μ κ} (now : Nat) (trunkNow : Bool)
    (hw : WireNoted A w h) (hl : LedgerApart h)
    (hclean : trunkNow = true → w.state ≠ .trunk → w.answer = []) :
    let r := reacKnockWireStep A K w false now trunkNow
    WireNoted A r.1 (notePoll h w r.2 now) ∧ LedgerApart (notePoll h w r.2 now) ∧
      (notePoll h w r.2 now).opens = h.opens := by
  simp only
  rcases reacKnockWireStep_answer (A := A) (K := K) w now trunkNow with
    ⟨hact, hnil, hstate, hhead, hpushes⟩ | ⟨hact, htrunk, hwas, hstate, hans, ht⟩ |
      ⟨hknock, htrunk, hans, ht, hstate⟩
  · rw [hact]
    refine ⟨⟨by rw [hnil]; rfl, fun hne => absurd hnil hne, by simp [hstate], ?_⟩,
      hl.forget rfl rfl rfl rfl, rfl⟩
    refine ⟨by simp [hhead], ?_, ?_⟩
    · show w.pushes ≤ _
      rw [hpushes]
    · intro hlt
      exact absurd hlt (by show ¬ w.pushes < _; rw [hpushes]; exact Nat.lt_irrefl _)
  · have hnil := hclean htrunk hwas
    have hnone := hw.none_kept hnil
    rw [hact]
    refine ⟨⟨by rw [hans]; exact hw.numbered, fun hne => absurd (hans.trans hnil) hne,
      by simp [hstate], ?_⟩, hl.forget hnone rfl rfl rfl, rfl⟩
    exact hw.counts.congr ht.headSent ht.chunksSent ht.pushes
  · have hnote : notePoll h w (reacKnockWireStep A K w false now trunkNow).2 now = h := by
      unfold notePoll
      split
      · rename_i hc
        exact absurd hc hknock
      · rename_i hc
        exact absurd hc htrunk
      · rfl
    rw [hnote]
    refine ⟨?_, hl, rfl⟩
    have hcounts := hw.counts.congr ht.headSent ht.chunksSent ht.pushes
    rcases hstate with hsame | ⟨hwas, hnow⟩
    · exact hw.moved hans hsame hcounts
    · refine ⟨by rw [hans]; exact hw.numbered, ?_, by simp [hnow], hcounts⟩
      intro hne
      rw [hans] at hne
      exact absurd (hw.answered hne) (by simp [hwas])

theorem frame_noted {w : ReacKnockWire μ κ} {h : AnswerLedger μ κ} (isControl : Frame → Bool)
    (now : Nat) (f : Frame) (evidence : Bool) (hw : WireNoted A w h) (hl : LedgerApart h) :
    let r := reacKnockWireHeard K isControl w now (some f) evidence
    let h' := noteHeard (noteHush h r.2) r.1.answer.length f
    WireNoted A r.1 h' ∧ LedgerApart h' ∧ h'.opens = h.opens := by
  simp only
  obtain ⟨hans, hstate, ht⟩ := reacKnockWireHeard_answer (K := K) isControl w now f evidence
  obtain ⟨r, hr⟩ : ∃ r, r = reacKnockWireHeard K isControl w now (some f) evidence := ⟨_, rfl⟩
  rw [← hr] at hans hstate ht ⊢
  -- the hush first, then the frame itself
  obtain ⟨h₁, hh₁⟩ : ∃ h₁, h₁ = noteHush h r.2 := ⟨_, rfl⟩
  have hbase : h₁.kept.map (·.2) = (if r.2 = .hush then [] else w.answer) := by
    rw [hh₁, noteHush]
    split
    · rfl
    · exact hw.numbered
  have hended : r.1.state = .answered → h₁.ended = true := by
    intro hs
    rw [hh₁, noteHush]
    split
    · rfl
    · rename_i hno
      rw [if_neg hno] at hstate
      exact hw.ended (hstate ▸ hs)
  have hsame : h₁.pushes₀ = h.pushes₀ ∧ h₁.spell = h.spell ∧ h₁.opens = h.opens := by
    rw [hh₁, noteHush]
    split
    · exact ⟨rfl, rfl, rfl⟩
    · exact ⟨rfl, rfl, rfl⟩
  have hlen : (if r.2 = .hush then [] else w.answer).length = h₁.kept.length := by
    rw [← hbase, List.length_map]
  have hl₁ : LedgerApart h₁ := by
    rw [hh₁]
    exact noteHush_apart hl r.2
  rw [← hh₁]
  refine ⟨⟨?_, ?_, ?_, ?_⟩, ?_, hsame.2.2⟩
  · rcases hans with hnone | ⟨hadd, _⟩
    · rw [hnone, hlen]
      simp [noteHeard, hbase]
    · rw [hadd]
      simp [noteHeard, hlen, hbase]
  · intro hne
    rcases hans with hnone | ⟨_, hs⟩
    · rw [hnone] at hne
      by_cases hhush : r.2 = .hush
      · simp [hhush] at hne
      · rw [if_neg hhush] at hne hstate
        rw [hstate]
        exact hw.answered hne
    · exact hs
  · exact hended
  · show SpellCounts A h₁.pushes₀ h₁.spell r.1
    rw [hsame.1, hsame.2.1]
    exact hw.counts.congr ht.headSent ht.chunksSent ht.pushes
  · refine noteHeard_apart hl₁ _ f ?_
    intro hgrown
    rcases hans with hnone | ⟨_, hs⟩
    · rw [hnone, hlen] at hgrown
      omega
    · exact hended hs

/-! ### A run of acts -/

/-- Loaded, the carry is what the wire held, and the wire holds nothing. -/
theorem answerLoad_spec {s : KnockSegment μ κ} {w : ReacKnockWire μ κ}
    (hkn : s.knockAnswer = []) :
    let l := answerLoad s w
    l.carry = w.answer ∧ (w.answer ≠ [] → l.carryPushes = w.pushes) ∧ l.knockAnswer = [] ∧
      l.name = s.name ∧ l.L = s.L ∧ ∃ v, l.kw = some v ∧ v.answer = [] ∧
        (v.state = .answered → w.state = .answered) ∧ SameTransfer w v := by
  simp only
  unfold answerLoad
  by_cases hnil : w.answer = []
  · rw [if_neg (fun hne => hne hnil)]
    exact ⟨hnil.symm, fun hne => absurd hnil hne, hkn, rfl, rfl, w, rfl, hnil, id, rfl, rfl, rfl⟩
  · rw [if_pos hnil]
    refine ⟨rfl, fun _ => rfl, hkn, rfl, rfl, _, rfl, ?_⟩
    unfold reacKnockWireAnswerTaken
    split
    · exact ⟨rfl, by simp, rfl, rfl, rfl⟩
    · exact ⟨rfl, id, rfl, rfl, rfl⟩

theorem snifferKept_spec (s : KnockSegment μ κ) (keep : Bool) :
    let c := snifferKept s keep
    c.carry = s.carry ∧ c.carryPushes = s.carryPushes ∧ c.knockAnswer = s.knockAnswer ∧
      c.name = s.name ∧ c.L = s.L ∧ (c.kw = s.kw ∨ c.kw = none) := by
  simp only
  unfold snifferKept
  split
  · exact ⟨rfl, rfl, rfl, rfl, rfl, Or.inl rfl⟩
  · exact ⟨rfl, rfl, rfl, rfl, rfl, Or.inr rfl⟩

theorem noteOpen_same (h : AnswerLedger μ κ) (opened : Option AnswerOpen) :
    (noteOpen h opened).ended = h.ended ∧ (noteOpen h opened).pushes₀ = h.pushes₀ ∧
      (noteOpen h opened).spell = h.spell ∧ (noteOpen h opened).kept = h.kept := by
  cases opened with
  | none => exact ⟨rfl, rfl, rfl, rfl⟩
  | some o => exact ⟨rfl, rfl, rfl, rfl⟩

/-- What the ledger makes of a SERVE: the answer is off the wire, and its sniffer may be. -/
theorem AnswerSound.served {s s' : KnockSegment μ κ} {h : AnswerLedger μ κ}
    {opened : Option AnswerOpen} (hs : AnswerSound A s h) (hcarry : s'.carry = [])
    (hkn : s'.knockAnswer = [])
    (hall : ∀ o, opened = some o → (o.master = true → o.serve = true → o.handed = o.held) ∧
      (o.handed = [] ∨ o.handed = h.kept.map (·.2) ∧ (0 < o.pushes → WholeSent A h.spell)))
    (hwire : ∀ v, s'.kw = some v → ∃ w, s.kw = some w ∧ v.answer = [] ∧
      (v.state = .answered → w.state = .answered) ∧ SameTransfer w v) :
    AnswerSound A s' (if s'.kw.isSome then { noteOpen h opened with kept := [] }
      else (noteOpen h opened).fresh) := by
  obtain ⟨hl, hf⟩ := noteOpen_taken (A := A) hs.apart hs.opens hall
  obtain ⟨hended, hpushes, hspell, _⟩ := noteOpen_same h opened
  cases hkw : s'.kw with
  | none =>
      simp only [Option.isSome_none, Bool.false_eq_true, if_false]
      exact ⟨hcarry, hkn, by simp [hkw], fun _ => rfl, hl.forget rfl rfl rfl rfl, hf⟩
  | some v =>
      simp only [Option.isSome_some, if_true]
      refine ⟨hcarry, hkn, ?_, fun hno => by simp [hkw] at hno, hl, hf⟩
      intro v' hv'
      obtain rfl : v = v' := by simpa [hkw] using hv'
      obtain ⟨w, hw, hans, hstate, ht⟩ := hwire v hkw
      have hnoted := hs.wire w hw
      refine ⟨hans.symm, fun hne => absurd hans hne, ?_, ?_⟩
      · intro hst
        exact hended.trans (hnoted.ended (hstate hst))
      · show SpellCounts A (noteOpen h opened).pushes₀ (noteOpen h opened).spell v
        rw [hpushes, hspell]
        exact hnoted.counts.congr ht.headSent ht.chunksSent ht.pushes

theorem answerServe_sound {s : KnockSegment μ κ} {h : AnswerLedger μ κ} {hunt : Hunt}
    {pinned : Bool} {a : AnswerServe} (hs : AnswerSound A s h)
    (hclean : AnswerAct.Clean s h (.serve hunt pinned a)) :
    let r := hearingApplyServe s hunt pinned a
    AnswerSound A r.1 (if r.1.kw.isSome then { noteOpen h r.2 with kept := [] }
      else (noteOpen h r.2).fresh) := by
  simp only
  cases hkw : s.kw with
  | none =>
      obtain ⟨hkeep, hkn, hout⟩ := hearingServeAnswer_spec { s with carry := [] } [] none a
      have hr : hearingApplyServe s hunt pinned a =
          ({ (hearingServeAnswer { s with carry := [] } [] none a).1 with carry := [] },
            (hearingServeAnswer { s with carry := [] } [] none a).2) := by
        simp only [hearingApplyServe, hkw]
      rw [hr]
      refine hs.served rfl ?_ ?_ ?_
      · rcases hkn with hsame | hnil
        · exact hsame.trans hs.knockAnswer
        · exact hnil
      · intro o ho
        obtain ⟨hheld, hmaster, hhanded⟩ := hout o ho
        refine ⟨fun hm _ => (hmaster hm).trans hheld.symm, Or.inl ?_⟩
        rcases hhanded with hnil | ⟨hcarry, _⟩
        · exact hnil
        · exact hcarry
      · intro v hv
        have hnone := hkeep.trans hkw
        simp [hnone] at hv
  | some w =>
      have hw := hs.wire w hkw
      obtain ⟨hlcarry, hlpushes, hlkn, hlname, hlopen, v, hlv, hvans, hvstate, hvt⟩ :=
        answerLoad_spec (s := s) (w := w) hs.knockAnswer
      obtain ⟨hccarry, hcpushes, hckn, hcname, hcopen, hckw⟩ :=
        snifferKept_spec (answerLoad s w) (reacWatchKeep hunt.verdict pinned)
      obtain ⟨c, hc⟩ : ∃ c, c =
        snifferKept (answerLoad s w) (reacWatchKeep hunt.verdict pinned) := ⟨_, rfl⟩
      rw [← hc] at hccarry hcpushes hckn hcname hcopen hckw
      obtain ⟨hkeep, hkn, hout⟩ := hearingServeAnswer_spec c w.answer (some hunt) a
      have hr : hearingApplyServe s hunt pinned a =
          ({ (hearingServeAnswer c w.answer (some hunt) a).1 with carry := [] },
            (hearingServeAnswer c w.answer (some hunt) a).2) := by
        simp only [hearingApplyServe, hkw, hc]
      rw [hr]
      refine hs.served rfl ?_ ?_ ?_
      · rcases hkn with hsame | hnil
        · exact hsame.trans (hckn.trans hlkn)
        · exact hnil
      · intro o ho
        obtain ⟨hheld, hmaster, hhanded⟩ := hout o ho
        refine ⟨fun hm _ => ?_, ?_⟩
        · rw [hmaster hm, hccarry, hlcarry, hheld]
        rcases hhanded with hnil | ⟨hcar, hp, hmasters⟩
        · exact Or.inl hnil
        by_cases hnil : w.answer = []
        · exact Or.inl (by rw [hcar, hccarry, hlcarry, hnil])
        refine Or.inr ⟨by rw [hcar, hccarry, hlcarry, hw.numbered], ?_⟩
        intro hpos
        rw [hp, hcpushes, hlpushes hnil] at hpos
        rw [hcname, hlname] at hmasters
        obtain ⟨hshut, hslot⟩ := serve_opens ho
        rw [hcopen, hlopen] at hshut
        exact hw.counts.whole (hclean hshut hslot w hkw hmasters hnil hpos)
      · intro v' hv'
        have hv'' : c.kw = some v' := hkeep ▸ hv'
        rcases hckw with hopen | hshut
        · obtain rfl : v = v' := by
            have := hlv.symm.trans (hopen.symm.trans hv'')
            simpa using this
          exact ⟨w, hkw, hvans, hvstate, hvt⟩
        · simp [hshut] at hv''

theorem AnswerSound.quiet {s s' : KnockSegment μ κ} {h : AnswerLedger μ κ}
    (hs : AnswerSound A s h) (hcarry : s'.carry = s.carry)
    (hkn : s'.knockAnswer = s.knockAnswer) (hkw : s'.kw = s.kw) : AnswerSound A s' h := by
  refine ⟨hcarry.trans hs.carry, hkn.trans hs.knockAnswer, ?_, ?_, hs.apart, hs.opens⟩
  · rw [hkw]
    exact hs.wire
  · rw [hkw]
    exact hs.closed

/-- A sniffer closed, or opened afresh. -/
theorem AnswerSound.fresh {s s' : KnockSegment μ κ} {h : AnswerLedger μ κ}
    (hs : AnswerSound A s h) (hcarry : s'.carry = s.carry)
    (hkn : s'.knockAnswer = s.knockAnswer)
    (hkw : ∀ w, s'.kw = some w → w.answer = [] ∧ w.state = .listening ∧ w.headSent = false ∧
      w.pushes = 0) : AnswerSound A s' h.fresh := by
  refine ⟨hcarry.trans hs.carry, hkn.trans hs.knockAnswer, ?_, fun _ => rfl,
    hs.apart.forget rfl rfl rfl rfl, hs.opens⟩
  intro w hw
  obtain ⟨hans, hstate, hhead, hpushes⟩ := hkw w hw
  refine ⟨by rw [hans]; rfl, fun hne => absurd hans hne, by simp [hstate], ?_⟩
  refine ⟨by simp [hhead], Nat.zero_le _, fun hlt => ?_⟩
  rw [hpushes] at hlt
  exact absurd hlt (Nat.lt_irrefl 0)

/-- An open that was handed nothing leaves the wire as it was. -/
theorem AnswerSound.opened {s s' : KnockSegment μ κ} {h : AnswerLedger μ κ}
    {opened : Option AnswerOpen} (hs : AnswerSound A s h) (hcarry : s'.carry = [])
    (hkn : s'.knockAnswer = []) (hkw : s'.kw = s.kw)
    (hnone : ∀ o, opened = some o → o.handed = [] ∧
      (o.master = true → o.serve = true → o.held = [])) :
    AnswerSound A s' (noteOpen h opened) := by
  obtain ⟨hl, hf⟩ := noteOpen_nothing (A := A) hs.apart hs.opens hnone
  obtain ⟨hended, hpushes, hspell, hkept⟩ := noteOpen_same h opened
  refine ⟨hcarry, hkn, ?_, ?_, hl, hf⟩
  · intro w hw
    have hnoted := hs.wire w (hkw ▸ hw)
    refine ⟨by rw [hkept]; exact hnoted.numbered, hnoted.answered, ?_, ?_⟩
    · rw [hended]
      exact hnoted.ended
    · rw [hpushes, hspell]
      exact hnoted.counts
  · intro hno
    rw [hkept]
    exact hs.closed (hkw ▸ hno)

/-- A wire that moved, and the ledger with it. -/
theorem AnswerSound.moved {s s' : KnockSegment μ κ} {h h' : AnswerLedger μ κ}
    {w : ReacKnockWire μ κ} (hs : AnswerSound A s h) (hcarry : s'.carry = s.carry)
    (hkn : s'.knockAnswer = s.knockAnswer) (hkw : s'.kw = some w) (hw : WireNoted A w h')
    (hl : LedgerApart h') (hopens : h'.opens = h.opens) : AnswerSound A s' h' := by
  refine ⟨hcarry.trans hs.carry, hkn.trans hs.knockAnswer, ?_, fun hno => ?_, hl,
    by rw [hopens]; exact hs.opens⟩
  · intro v hv
    obtain rfl : w = v := by simpa [hkw] using hv
    exact hw
  · rw [hkw] at hno
    cases hno

theorem answerListen_sound {s : KnockSegment μ κ} {h : AnswerLedger μ κ} (isControl : Frame → Bool)
    (src : List UInt8) (fps now : Nat) (hs : AnswerSound A s h) :
    let act : AnswerAct := .listen src fps now
    let r := answerAct A K isControl s act
    AnswerSound A r.1 (noteAnswer h s act r.1 r.2) := by
  cases hkw : s.kw with
  | some w =>
      unfold answerAct noteAnswer
      simp only [hkw, Option.isSome_some, if_true]
      exact hs
  | none =>
      unfold answerAct noteAnswer
      simp only [hkw, Option.isSome_none, Bool.false_eq_true, if_false]
      refine hs.fresh rfl rfl ?_
      intro w hw
      obtain rfl := Option.some.inj hw
      exact ⟨rfl, rfl, rfl, rfl⟩

theorem answerPoll_sound {s : KnockSegment μ κ} {h : AnswerLedger μ κ} (isControl : Frame → Bool)
    {trunkNow : Bool} {now : Nat} (hs : AnswerSound A s h)
    (hclean : AnswerAct.Clean s h (.poll trunkNow now)) :
    let act : AnswerAct := .poll trunkNow now
    let r := answerAct A K isControl s act
    AnswerSound A r.1 (noteAnswer h s act r.1 r.2) := by
  cases hkw : s.kw with
  | none =>
      unfold answerAct noteAnswer
      simp only [hkw]
      exact hs
  | some w =>
      unfold answerAct noteAnswer
      simp only [hkw]
      obtain ⟨hw, hl, hopens⟩ := poll_noted (K := K) now trunkNow (hs.wire w hkw) hs.apart
        (fun ht hne => hclean ht w hkw hne)
      exact hs.moved rfl rfl rfl hw hl hopens

theorem answerFrame_sound {s : KnockSegment μ κ} {h : AnswerLedger μ κ} (isControl : Frame → Bool)
    (f : Frame) (evidence : Bool) (now : Nat) (hs : AnswerSound A s h) :
    let act : AnswerAct := .frame f evidence now
    let r := answerAct A K isControl s act
    AnswerSound A r.1 (noteAnswer h s act r.1 r.2) := by
  cases hkw : s.kw with
  | none =>
      unfold answerAct noteAnswer
      simp only [hkw]
      exact hs
  | some w =>
      unfold answerAct noteAnswer
      simp only [hkw, KnockSegment.held]
      obtain ⟨hw, hl, hopens⟩ :=
        frame_noted (K := K) isControl now f evidence (hs.wire w hkw) hs.apart
      exact hs.moved rfl rfl rfl hw hl hopens

theorem answerKnockTimer_sound {s : KnockSegment μ κ} {h : AnswerLedger μ κ}
    (isControl : Frame → Bool) (send : Nat → Frame → Bool) (fuel now : Nat)
    (hs : AnswerSound A s h) :
    let act : AnswerAct := .knockTimer send fuel now
    let r := answerAct A K isControl s act
    AnswerSound A r.1 (noteAnswer h s act r.1 r.2) := by
  cases hkw : s.kw with
  | none =>
      unfold answerAct noteAnswer
      simp only [hkw, List.nil_append]
      exact hs
  | some w =>
      have hw := hs.wire w hkw
      cases hrun : reacKnockWireRun A fuel w now send with
      | none =>
          unfold answerAct noteAnswer
          simp only [hkw, hrun, List.nil_append]
          exact hs
      | some r =>
          unfold answerAct noteAnswer
          simp only [hkw, hrun]
          obtain ⟨hans, hstate⟩ := run_answer hrun
          refine hs.moved rfl rfl rfl ?_
            ⟨hs.apart.fresh, hs.apart.below, hs.apart.apart, hs.apart.given, hs.apart.once⟩ rfl
          exact ⟨by rw [hans]; exact hw.numbered, by rw [hans, hstate]; exact hw.answered,
            by rw [hstate]; exact hw.ended, run_counts hw.counts hrun⟩

theorem answerSetHost_sound {s : KnockSegment μ κ} {h : AnswerLedger μ κ} (isControl : Frame → Bool)
    (host : Bool) (hs : AnswerSound A s h) :
    let act : AnswerAct := .setHost host
    let r := answerAct A K isControl s act
    AnswerSound A r.1 (noteAnswer h s act r.1 r.2) := by
  unfold answerAct noteAnswer
  dsimp only
  refine ⟨hs.carry, hs.knockAnswer, ?_, ?_, hs.apart, hs.opens⟩
  · intro v hv
    obtain ⟨w, hw, rfl⟩ := Option.map_eq_some_iff.mp hv
    have hnoted := hs.wire w hw
    exact hnoted.moved rfl rfl (hnoted.counts.congr rfl rfl rfl)
  · intro hno
    exact hs.closed (by simpa using hno)

/-- A serve leaves the carry to its caller. -/
theorem hearingServeAnswer_carry (s : KnockSegment μ κ) (held : List Frame)
    (hunt : Option Hunt) (a : AnswerServe) :
    (hearingServeAnswer s held hunt a).1.carry = s.carry := by
  rw [hearingServeAnswer]
  split_ifs <;> rfl

theorem answerYield_sound {s : KnockSegment μ κ} {h : AnswerLedger μ κ} (isControl : Frame → Bool)
    {staleNs : Nat} {sniffer : Sniffer} {hunt : Hunt} {a : AnswerServe} {now : Nat}
    (hs : AnswerSound A s h)
    (hclean : AnswerAct.Clean s h (.yield staleNs sniffer hunt a now)) :
    let act : AnswerAct := .yield staleNs sniffer hunt a now
    let r := answerAct A K isControl s act
    AnswerSound A r.1 (noteAnswer h s act r.1 r.2) := by
  by_cases hact : yieldServes s staleNs sniffer hunt now = true
  · obtain ⟨down, hdown⟩ : ∃ down : KnockSegment μ κ,
        down = { s with L := { listenerClose s.L with opened := false } } := ⟨_, rfl⟩
    have hyield : answerAct A K isControl s (.yield staleNs sniffer hunt a now) =
        ((hearingServeAnswer down s.held (some hunt) a).1,
          { opened := (hearingServeAnswer down s.held (some hunt) a).2 }) := by
      unfold answerAct
      simp only [hact, if_true, hearingYieldServe, hdown]
    obtain ⟨hkeep, hkn, hout⟩ := hearingServeAnswer_spec down s.held (some hunt) a
    have hcarry : down.carry = [] := by rw [hdown]; exact hs.carry
    have hkna : down.knockAnswer = [] := by rw [hdown]; exact hs.knockAnswer
    simp only
    rw [hyield]
    refine hs.opened ((hearingServeAnswer_carry _ _ _ _).trans hcarry) ?_
      (hkeep.trans (by rw [hdown])) ?_
    · rcases hkn with hsame | hnil
      · exact hsame.trans hkna
      · exact hnil
    · intro o ho
      obtain ⟨hheld, hmaster, hhanded⟩ := hout o ho
      have hnil : o.handed = [] := by
        rcases hhanded with hnil | ⟨hcar, _⟩
        · exact hnil
        · exact hcar.trans hcarry
      refine ⟨hnil, fun hm _ => ?_⟩
      rw [hheld]
      have hmasters := serve_masters ho hm
      have hname : down.name = s.name := by rw [hdown]
      rw [hname] at hmasters
      exact hclean hact (serve_opens ho).2 hmasters
  · unfold answerAct noteAnswer
    simp only [hact]
    exact hs

theorem answerReopen_sound {s : KnockSegment μ κ} {h : AnswerLedger μ κ} (isControl : Frame → Bool)
    (change : ListenerCfg → ListenerCfg) (fits : Bool) (a : OpenAnswers)
    (hs : AnswerSound A s h) :
    let act : AnswerAct := .reopen change fits a
    let r := answerAct A K isControl s act
    AnswerSound A r.1 (noteAnswer h s act r.1 r.2) := by
  by_cases hopen : s.L.opened = true
  · unfold answerAct noteAnswer
    simp only [hopen, if_true]
    refine hs.opened hs.carry hs.knockAnswer rfl ?_
    intro o ho
    obtain rfl := Option.some.inj ho
    exact ⟨hs.knockAnswer, by simp⟩
  · unfold answerAct noteAnswer
    simp only [hopen]
    exact hs

/-- **One act keeps the invariant.** -/
theorem answerAct_sound {s : KnockSegment μ κ} {h : AnswerLedger μ κ} (isControl : Frame → Bool)
    (act : AnswerAct) (hs : AnswerSound A s h) (hclean : act.Clean s h) :
    let r := answerAct A K isControl s act
    AnswerSound A r.1 (noteAnswer h s act r.1 r.2) := by
  cases act with
  | listen src fps now => exact answerListen_sound isControl src fps now hs
  | unlisten => exact hs.fresh rfl rfl fun w hw => by cases hw
  | linkLost => exact hs.fresh rfl rfl fun w hw => by cases hw
  | dropped => exact hs.quiet rfl rfl rfl
  | poll trunkNow now => exact answerPoll_sound isControl hs hclean
  | frame f evidence now => exact answerFrame_sound isControl f evidence now hs
  | knockTimer send fuel now => exact answerKnockTimer_sound isControl send fuel now hs
  | setHost host => exact answerSetHost_sound isControl host hs
  | serve hunt pinned a => exact answerServe_sound hs hclean
  | yield staleNs sniffer hunt a now => exact answerYield_sound isControl hs hclean
  | reopen change fits a => exact answerReopen_sound isControl change fits a hs

variable (A K) in
/-- One segment, with the ledger beside it. -/
def answerRun (isControl : Frame → Bool) :
    StepMachine (KnockSegment μ κ × AnswerLedger μ κ) AnswerAct (AnswerOut μ κ) :=
  (answerMachine A K isControl).withHistory fun h s act out =>
    noteAnswer h s act (answerAct A K isControl s act).1 out

/-- **The answer is handed once, to the master it answered, and never stale**, over every run
of the segment's acts that are clean. -/
theorem answer_handed_once (isControl : Frame → Bool) (name : String) (run : List AnswerAct)
    (hclean : (answerRun A K isControl).Guarded (fun s act => act.Clean s.1 s.2)
      ({ name := name }, {}) run) :
    let s := (answerRun A K isControl).after ({ name := name }, {}) run
    AnswerFresh A s.1 s.2 := by
  have hstart : AnswerSound A ({ name := name } : KnockSegment μ κ) {} := by
    refine ⟨rfl, rfl, by simp, fun _ => rfl, ⟨by simp, by simp, by simp, by simp, by simp⟩, ?_⟩
    exact ⟨by simp, by simp, by simp⟩
  have hrun := (answerRun A K isControl).invariant_guarded
    (I := fun s => AnswerSound A s.1 s.2) (G := fun s act => act.Clean s.1 s.2)
    (fun s act hs hc => answerAct_sound (K := K) isControl act hs hc) run
    ({ name := name }, {}) hstart hclean
  exact hrun.answerFresh

end

/-! ### Where it goes wrong -/

/-- A master whose cycle is a transfer of one chunk. -/
def sceneMaster : MasterApi (Option Nat) where
  zeroed := none
  init _ _ := some 0
  cycleLen m := if m.isSome then 3 else 0
  cyclePos m := m.getD 0
  sub01Off _ := 0
  next m :=
    ({ emit := if m = some 0 then .sceneHead else if m = some 1 then .sceneChunk else .sceneTail,
       counter := 0, idx := 0 }, m.map fun p => (p + 1) % 3)
  downstreamBuild _ src := src
  stamp _ f _ _ := some f
  sceneChunks := 1

/-- A hunt that says so much and knows of nobody else. -/
def plainHunt (verdict : HuntVerdict) : Hunt :=
  { verdict := verdict, role := .master, boxRival := false, defersAsTap := false,
    heardAnything := true }

/-- A serve the world does not stand in the way of. -/
def plainServe : AnswerServe :=
  { conf := segmentCfg "eth0" .master, forcedRate := 0, slotFree := true, fits := true,
    answers := opensAt 48000 }

/-- A wire that is knocked on half a second after it came up. -/
def knockedWire : List AnswerAct :=
  [.listen [2, 0, 0, 0, 0, 1] 8000 0, .poll false 500000000]

/-- What a run of one segment leaves. -/
def afterActs (run : List AnswerAct) :
    KnockSegment (Option Nat) Nat × AnswerLedger (Option Nat) Nat :=
  (answerRun sceneMaster halfSecondLicence (fun _ => true)).after ({ name := "eth0" }, {}) run

/-- A knock answered after one transfer, and the master served on it. -/
def answeredActs : List AnswerAct :=
  knockedWire ++
    [.knockTimer (fun _ _ => true) 6 500300000, .frame [1] true 502000000,
      .serve (plainHunt .master) false plainServe]

theorem answer_handed_once_answered :
    AnswerFresh sceneMaster (afterActs answeredActs).1 (afterActs answeredActs).2 ∧
      ((afterActs answeredActs).2.opens.map fun g => (g.opened.handed, g.opened.pushes)) =
        [([[1]], 1)] := by
  refine ⟨?_, by decide⟩
  refine answer_handed_once (K := halfSecondLicence) (fun _ => true) "eth0" answeredActs ?_
  refine ⟨True.intro, fun h => absurd h Bool.false_ne_true, True.intro, True.intro, ?_,
    True.intro⟩
  intro _ _ w _ _ _ hpos
  exact hpos

/-- A trunk's tags over a kept answer. -/
def trunkActs : List AnswerAct :=
  knockedWire ++ [.frame [1] true 501000000, .poll true 700000000]

/-- A box that answers under a vacant door. -/
def doorActs : List AnswerAct :=
  knockedWire ++
    [.frame [0] false 600000000, .serve (plainHunt .hunting) false plainServe,
      .frame [1] true 3200000000,
      .yield 0 { verdict := .hunting, openedNs := 0, watched := false } (plainHunt .master)
        plainServe 3400000000]

/-- A second spell, answered before it sent anything. -/
def secondSpellActs : List AnswerAct :=
  knockedWire ++
    [.knockTimer (fun _ _ => true) 6 500300000, .frame [1] true 502000000,
      .serve (plainHunt .master) false plainServe, .dropped,
      .poll false 1100000000, .frame [2] true 1110000000,
      .serve (plainHunt .master) false plainServe]

/-- Frames kept over a trunk's tags, frames that reach no master, and a transfer credited that
was another spell's. -/
theorem answer_stale_or_lost :
    ¬ AnswerFresh sceneMaster (afterActs trunkActs).1 (afterActs trunkActs).2 ∧
    ¬ AnswerFresh sceneMaster (afterActs doorActs).1 (afterActs doorActs).2 ∧
    ¬ AnswerFresh sceneMaster (afterActs secondSpellActs).1 (afterActs secondSpellActs).2 := by
  refine ⟨?_, ?_, ?_⟩
  · intro hfresh
    have hsub := hfresh.fresh
    exact absurd hsub (by decide)
  · intro hfresh
    have hheld := hfresh.handed
    exact absurd hheld (by decide)
  · intro hfresh
    have hpushes := hfresh.pushes
    obtain ⟨g, hg, hgiven⟩ : ∃ g ∈ (afterActs secondSpellActs).2.opens,
        g.opened.handed = [[2]] ∧ 0 < g.opened.pushes ∧ g.spell.length = 1 :=
      ⟨_, List.mem_cons_self, by decide⟩
    obtain ⟨newer, older, t, hspell, _, _, newer', older', t', holder, _⟩ :=
      hpushes g hg (by simp [hgiven.1]) hgiven.2.1
    -- a whole transfer takes two slots at least, and this spell has its opening only
    have hlen := hgiven.2.2
    rw [hspell, holder] at hlen
    simp at hlen
    omega

end ReacPw
