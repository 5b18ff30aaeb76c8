/-
Whether an accepted role is carried out.

Two nodes of a segment take role assertions, and the poll reads one of them.
Which one it reads is chosen by the shape: the capture node when there is no sink,
or when the segment joined a box that masters its wire; the sink otherwise.  Which
ones accept is decided elsewhere, by the role and by what the slave sends.

The debt is ghost state: the roles accepted since the last poll.  Every write that
is accepted on the node the poll reads is owed and recorded alike, and the record
cannot be overwritten by another role, since the record of a running engine takes
no assertion of its own role and there are only two.  A write accepted on the other
node is recorded where nobody looks.
-/
import ReacPw.Segment
import ReacPw.Lib.Run

namespace ReacPw

/-- What happens to one segment: it is served, its nodes are written, it is polled. -/
inductive SegmentEvent where
  | serve (cfg : ListenerCfg) (fits : Bool) (a : OpenAnswers)
  | capture (bound : Bool) (role : ReacRole)
  | playback (role : ReacRole)
  | rate (hz : Nat) (accepted : Bool)
  | tick (t : TickAnswers)
  deriving DecidableEq, Repr

section

-- What `reac_role_swap_request` answers on a segment whose engine of the first role is
-- up, when the second is asserted.  The poll is a daemon's that hears, or does not.
variable (request : ReacRole → ReacRole → Bool) (hearing : Bool)

/-- A role asserted on this listener, with the role record's answer to it. -/
def Listener.asserted (L : Listener) (role : ReacRole) : RoleAssert :=
  { role := role, accepted := request L.cfg.role role }

def segmentStep (L : Listener) : SegmentEvent → Listener × Option TickAct
  | .serve cfg fits a => (if L.opened then L else (listenerServe cfg fits a).1, none)
  | .capture bound role =>
      (if L.opened then listenerCaptureWrite L bound (L.asserted request role) else L, none)
  | .playback role =>
      (if L.opened then listenerPlaybackWrite L (L.asserted request role) else L, none)
  | .rate hz accepted => (if L.opened then listenerRateWrite L hz accepted else L, none)
  | .tick t => ((rateReopenTick hearing L t).1, some (rateReopenTick hearing L t).2)

/-- The node whose live door a write lands on, if it lands on one. -/
def liveDoor (L : Listener) : SegmentEvent → Option PropsDoor
  | .capture bound _ =>
      if bound && L.adTimer then if L.sink.isSome then some .playback else none
      else if (L.src.map (·.roleSwap)).getD false then some .capture else none
  | .playback _ => if L.sink.isSome then some .playback else none
  | _ => none

/-- The role a write asserts. -/
def SegmentEvent.role : SegmentEvent → Option ReacRole
  | .capture _ role => some role
  | .playback role => some role
  | _ => none

/-- The role an event had accepted: a live door took it and the record said yes. -/
def acceptedRole (L : Listener) (e : SegmentEvent) : Option ReacRole :=
  if L.opened && (liveDoor L e).isSome then e.role.filter (request L.cfg.role) else none

/-- The roles accepted since the last poll. -/
def noteOwed (owed : List ReacRole) (L : Listener) (e : SegmentEvent) (_ : Option TickAct) :
    List ReacRole :=
  match e with
  | .tick _ => []
  | .serve _ _ _ => if L.opened then owed else []
  | .rate _ _ => owed
  | e => (acceptedRole request L e).toList ++ owed

/-- A segment with the debt beside it. -/
def segmentMachine : StepMachine (Listener × List ReacRole) SegmentEvent (Option TickAct) :=
  StepMachine.withHistory { step := segmentStep request hearing } (noteOwed request)

/-- The act carries that role out. -/
def TickAct.carriesOut (act : TickAct) (role : ReacRole) : Prop :=
  act = .reclassify role ∨ act = .reopenRole role

theorem TickAct.carriesOut_inj {act : TickAct} {a b : ReacRole} (ha : act.carriesOut a)
    (hb : act.carriesOut b) : a = b := by
  rcases ha with rfl | rfl <;> rcases hb with h | h
  · exact TickAct.reclassify.inj h
  · exact absurd h (by simp)
  · exact absurd h (by simp)
  · exact TickAct.reopenRole.inj h

/-- Every role accepted since the last poll is carried out, none other is, and a slave's
engine that owes none is answered for. -/
structure PromiseKept (L : Listener) (owed : List ReacRole) (act : TickAct) : Prop where
  carried : ∀ role ∈ owed, act.carriesOut role
  none_else : ∀ role, act.carriesOut role → role ∈ owed
  answered : L.slaveOpen = true → owed = [] → act = .publishSegment true

/-- What a poll owes an opened listener that is no tap. -/
def PollKeepsPromise (s : Listener × List ReacRole) : SegmentEvent → Prop
  | .tick t => s.1.opened = true → s.1.cfg.tap = false →
      PromiseKept s.1 s.2 (rateReopenTick hearing s.1 t).2
  | _ => True

/-- The node the poll reads. -/
def tickReads (L : Listener) : PropsDoor := if tickReadsCapture L then .capture else .playback

/-- A role is accepted on the node the poll reads; a poll finds the interface there, and
a slave's engine with the capture node to read. -/
def ReadWhereWritten (s : Listener × List ReacRole) : SegmentEvent → Prop
  | .tick t => s.1.opened = true → s.1.cfg.tap = false →
      ¬ (s.1.rxStarted = true ∧ t.ifaceLost = true) ∧
      (s.1.slaveOpen = true → tickReadsCapture s.1 = true)
  | e => (acceptedRole request s.1 e).isSome = true → liveDoor s.1 e = some (tickReads s.1)

instance (s : Listener × List ReacRole) (e : SegmentEvent) :
    Decidable (ReadWhereWritten request s e) := by
  cases e <;> (unfold ReadWhereWritten; infer_instance)

/-! ### The record and the debt -/

/-- The record the poll reads is the debt, and a slave's engine has a node to answer on. -/
structure DebtRecorded (s : Listener × List ReacRole) : Prop where
  owed : ∀ role ∈ s.2, pendingRole s.1 = some role
  pending : ∀ role, pendingRole s.1 = some role → role ∈ s.2
  other : ∀ role ∈ s.2, role ≠ s.1.cfg.role
  answers : s.1.slaveOpen = true → s.1.src.isSome = true ∧ s.1.cfg.doorOnly = false

/-- An opened listener that is no tap keeps its debt on record. -/
def SegmentInv (s : Listener × List ReacRole) : Prop :=
  s.1.opened = true → s.1.cfg.tap = false → DebtRecorded s

/-- An open leaves nothing on record, and a slave's engine with a node to answer on. -/
theorem listenerUp_doors {L M : Listener} {fits : Bool} {a : OpenAnswers}
    (hup : ListenerUp L fits a M) (htap : M.cfg.tap = false) :
    pendingRole M = none ∧
      (M.slaveOpen = true → M.src.isSome = true ∧ M.cfg.doorOnly = false) := by
  obtain ⟨-, -, -, htapP, hdoorP, -, -⟩ := listenerPrepared_cfg L a
  cases hup with
  | tap h => exact absurd htap (by simp [h])
  | vacant => exact ⟨pendingRole_none rfl rfl, fun h => absurd h Bool.false_ne_true⟩
  | door => exact ⟨pendingRole_none rfl rfl, fun h => absurd h Bool.false_ne_true⟩
  | master dev src htapL hasks hfits htx hrole hsrc =>
      refine ⟨pendingRole_none ?_ rfl, fun h => absurd h Bool.false_ne_true⟩
      rcases hsrc with rfl | rfl <;> rfl
  | slave dev sink slaveOpen htapL hdoor htx hrole hsink =>
      refine ⟨pendingRole_none rfl ?_, fun _ => ⟨rfl, ?_⟩⟩
      · rcases hsink with rfl | ⟨rfl, -⟩ <;> rfl
      · show (listenerPrepared L a).cfg.doorOnly = false
        rw [hdoorP, hdoor, htapL]
        rfl
  | silent htapL hdoor htx =>
      exact ⟨pendingRole_none rfl rfl, fun h => absurd h Bool.false_ne_true⟩

/-- A listener just opened owes nothing. -/
theorem segmentInv_opened {L M : Listener} {fits feeds : Bool} {a : OpenAnswers}
    (hup : ListenerUp L fits a M) :
    SegmentInv ({ M with opened := true, rxStarted := feeds }, []) := by
  intro _ htap
  obtain ⟨hpending, hanswers⟩ := listenerUp_doors hup htap
  refine ⟨fun role h => absurd h List.not_mem_nil, fun role h => ?_,
    fun role h => absurd h List.not_mem_nil, hanswers⟩
  exact absurd (hpending.symm.trans h) (by simp)

theorem segmentInv_reopen (L : Listener) (change : ListenerCfg → ListenerCfg) (fits : Bool)
    (a : OpenAnswers) : SegmentInv (listenerReopen L change fits a, []) := by
  rcases listenerReopen_cases L change fits a with hdown | ⟨M, hup, hres⟩
  · intro hopen
    exact absurd hopen (by rw [hdown]; exact Bool.false_ne_true)
  · rw [hres]
    exact segmentInv_opened hup

/-! ### One event -/

theorem acceptedRole_eq {L : Listener} {e : SegmentEvent} {role : ReacRole}
    (hopen : L.opened = true) (hrole : e.role = some role) :
    acceptedRole request L e =
      if (liveDoor L e).isSome = true ∧ request L.cfg.role role = true then some role
      else none := by
  unfold acceptedRole
  rw [hopen, hrole]
  cases (liveDoor L e).isSome <;> cases hreq : request L.cfg.role role <;>
    simp [Option.filter, hreq]

/-- A write on the sink, accepted only where the poll reads it, is what the poll finds. -/
theorem sinkWrite_found {L : Listener} {role : ReacRole}
    (hread : L.sink.isSome = true → request L.cfg.role role = true → tickReadsCapture L = false) :
    pendingRole (listenerPlaybackWrite L (L.asserted request role)) =
      (if L.sink.isSome = true ∧ request L.cfg.role role = true then some role else none).or
        (pendingRole L) := by
  rw [pendingRole_sinkWrite]
  by_cases hacc : L.sink.isSome = true ∧ request L.cfg.role role = true
  · rw [if_pos hacc, if_pos ⟨hread hacc.1 hacc.2, hacc.2⟩]
    rfl
  · have hkept : ¬ (tickReadsCapture L = false ∧
        (Listener.asserted request L role).accepted = true) := by
      intro h
      refine hacc ⟨?_, h.2⟩
      have hsome := h.1
      rw [tickReadsCapture, Bool.or_eq_false_iff, Option.isNone_eq_false_iff] at hsome
      exact hsome.1
    rw [if_neg hacc, if_neg hkept]
    rfl

/-- A write accepted on the node the poll reads is what the poll will find. -/
theorem pendingRole_write {s : Listener × List ReacRole} {e : SegmentEvent} {role : ReacRole}
    (hopen : s.1.opened = true) (hread : ReadWhereWritten request s e)
    (hrole : e.role = some role) :
    pendingRole (segmentStep request hearing s.1 e).1 =
      (acceptedRole request s.1 e).or (pendingRole s.1) := by
  obtain ⟨L, owed⟩ := s
  -- where the sink takes the write, the poll reads the sink
  have hsinkReads : liveDoor L e = (if L.sink.isSome then some .playback else none) →
      ((acceptedRole request L e).isSome = true → liveDoor L e = some (tickReads L)) →
      L.sink.isSome = true → request L.cfg.role role = true → tickReadsCapture L = false := by
    intro hlive hreads hsome hreq
    have hreads' := hreads (by
      rw [acceptedRole_eq request hopen hrole, hlive, hsome, hreq]
      rfl)
    rw [hlive, hsome] at hreads'
    unfold tickReads at hreads'
    cases hcap : tickReadsCapture L with
    | false => rfl
    | true => rw [hcap] at hreads'; exact absurd hreads' (by decide)
  rw [acceptedRole_eq request hopen hrole]
  cases e with
  | playback asserted =>
      obtain rfl := Option.some.inj hrole
      have hstep : (segmentStep request hearing L (.playback asserted)).1 =
          listenerPlaybackWrite L (L.asserted request asserted) := if_pos hopen
      show pendingRole (segmentStep request hearing L (.playback asserted)).1 = _
      rw [hstep, sinkWrite_found request (hsinkReads rfl hread)]
      have hlive : (liveDoor L (.playback asserted)).isSome = L.sink.isSome := by
        cases hsink : L.sink <;> simp [liveDoor, hsink]
      rw [hlive]
  | capture bound asserted =>
      obtain rfl := Option.some.inj hrole
      show pendingRole (segmentStep request hearing L (.capture bound asserted)).1 = _
      have hstep : (segmentStep request hearing L (.capture bound asserted)).1 =
          listenerCaptureWrite L bound (L.asserted request asserted) := if_pos hopen
      rw [hstep, listenerCaptureWrite]
      cases hb : (bound && L.adTimer) with
      | true =>
          have hlive : liveDoor L (.capture bound asserted) =
              if L.sink.isSome then some .playback else none := by
            simp only [liveDoor, hb, if_true]
          rw [if_pos rfl, sinkWrite_found request (hsinkReads hlive hread), hlive]
          cases L.sink <;> rfl
      | false =>
          have hlive : liveDoor L (.capture bound asserted) =
              if (L.src.map (·.roleSwap)).getD false then some .capture else none := by
            simp only [liveDoor, hb, Bool.false_eq_true, if_false]
          rw [if_neg Bool.false_ne_true, pendingRole_sourceWrite, hlive]
          cases hswap : (L.src.map (·.roleSwap)).getD false with
          | false => simp
          | true =>
              cases hreq : request L.cfg.role asserted with
              | false => simp [Listener.asserted, hreq]
              | true =>
                  have hread' := hread (by
                    rw [acceptedRole_eq request hopen rfl, hlive, hswap, hreq]
                    rfl)
                  rw [hlive, hswap] at hread'
                  have hcap : tickReadsCapture L = true := by
                    unfold tickReads at hread'
                    cases hcap : tickReadsCapture L with
                    | true => rfl
                    | false => rw [hcap] at hread'; exact absurd hread' (by decide)
                  simp [Listener.asserted, hreq, hcap]
  | _ => exact absurd hrole (by simp [SegmentEvent.role])

/-- There are two roles: what is not the running one is the other. -/
theorem reacRole_other {a b running : ReacRole} (ha : a ≠ running) (hb : b ≠ running) : a = b := by
  cases a <;> cases b <;> cases running <;> simp_all

/-- A write keeps the debt on record. -/
theorem segmentInv_write (hsame : ∀ r, request r r = false) {s : Listener × List ReacRole}
    {e : SegmentEvent} {role : ReacRole} (hrole : e.role = some role) (hinv : SegmentInv s)
    (hread : ReadWhereWritten request s e) :
    SegmentInv ((segmentStep request hearing s.1 e).1,
      (acceptedRole request s.1 e).toList ++ s.2) := by
  obtain ⟨L, owed⟩ := s
  have hkept : (segmentStep request hearing L e).1.cfg = L.cfg ∧
      (segmentStep request hearing L e).1.opened = L.opened ∧
      (segmentStep request hearing L e).1.slaveOpen = L.slaveOpen ∧
      (segmentStep request hearing L e).1.src.isSome = L.src.isSome := by
    cases e with
    | capture bound asserted =>
        simp only [segmentStep, listenerCaptureWrite, listenerPlaybackWrite]
        split
        · split <;> simp
        · simp
    | playback asserted =>
        simp only [segmentStep, listenerPlaybackWrite]
        split <;> simp
    | _ => exact absurd hrole (by simp [SegmentEvent.role])
  obtain ⟨hcfg, hopened, hslave, hsrc⟩ := hkept
  intro hopen htap
  have hopenL : L.opened = true := hopened ▸ hopen
  have hdebt : DebtRecorded (L, owed) := hinv hopenL (by rw [← hcfg]; exact htap)
  have hpending := pendingRole_write request hearing (s := (L, owed)) hopenL hread hrole
  -- an accepted role is not the running one
  have hother : ∀ r, acceptedRole request L e = some r → r ≠ L.cfg.role := by
    intro r hr hrun
    rw [acceptedRole_eq request hopenL hrole] at hr
    split at hr
    · rename_i hacc
      obtain rfl := Option.some.inj hr
      rw [hrun, hsame] at hacc
      exact absurd hacc.2 Bool.false_ne_true
    · exact absurd hr (by simp)
  refine ⟨?_, ?_, ?_, ?_⟩
  · intro r hr
    show pendingRole (segmentStep request hearing L e).1 = some r
    rw [hpending]
    cases hacc : acceptedRole request L e with
    | none =>
        rw [hacc] at hr
        exact hdebt.owed r hr
    | some a =>
        rw [hacc] at hr
        rcases List.mem_cons.mp hr with rfl | hmem
        · rfl
        · have hsameRole : a = r := reacRole_other (hother a hacc) (hdebt.other r hmem)
          rw [hsameRole]
          rfl
  · intro r hr
    have hr' : (acceptedRole request L e).or (pendingRole L) = some r := hpending ▸ hr
    cases hacc : acceptedRole request L e with
    | none =>
        rw [hacc] at hr'
        exact hdebt.pending r hr'
    | some a =>
        rw [hacc] at hr'
        obtain rfl := Option.some.inj hr'
        exact List.mem_cons_self
  · intro r hr
    show r ≠ (segmentStep request hearing L e).1.cfg.role
    rw [hcfg]
    rcases List.mem_append.mp hr with hmem | hmem
    · exact hother r (Option.mem_toList.mp hmem)
    · exact hdebt.other r hmem
  · show (segmentStep request hearing L e).1.slaveOpen = true → _
    rw [hslave]
    intro hopenSlave
    have hans := hdebt.answers hopenSlave
    exact ⟨hsrc.trans hans.1, by rw [hcfg]; exact hans.2⟩

/-- With nothing on record nothing is owed. -/
theorem DebtRecorded.nothing {L : Listener} {owed : List ReacRole}
    (hdebt : DebtRecorded (L, owed)) (hnone : pendingRole L = none) : owed = [] := by
  cases owed with
  | nil => rfl
  | cons r rest =>
      have hrec : pendingRole L = some r := hdebt.owed r List.mem_cons_self
      exact absurd (hnone.symm.trans hrec) (by simp)

/-- The role on record is carried out, and it is all that was owed. -/
theorem takeRole_keeps {L : Listener} {owed : List ReacRole} {role : ReacRole} (t : TickAnswers)
    (hdebt : DebtRecorded (L, owed)) (hrole : pendingRole L = some role) :
    SegmentInv ((listenerTakeRole hearing L role t).1, []) ∧
      PromiseKept L owed (listenerTakeRole hearing L role t).2 := by
  have hact : (listenerTakeRole hearing L role t).2.carriesOut role := by
    unfold listenerTakeRole
    split
    · exact Or.inl rfl
    · exact Or.inr rfl
  have hmem : role ∈ owed := hdebt.pending role hrole
  refine ⟨?_, ?_, ?_, ?_⟩
  · unfold listenerTakeRole
    split
    · intro hdropped
      exact absurd hdropped Bool.false_ne_true
    · exact segmentInv_reopen L _ t.fits t.reopen
  · intro r hr
    have heq : r = role := Option.some.inj ((hdebt.owed r hr).symm.trans hrole)
    rw [heq]
    exact hact
  · intro r hr
    rw [TickAct.carriesOut_inj hr hact]
    exact hmem
  · intro _ hempty
    rw [hempty] at hmem
    exact absurd hmem List.not_mem_nil

/-- An act that is no role's keeps the promise of a listener that owes none. -/
theorem promiseKept_nothing {L : Listener} {act : TickAct}
    (hact : ∀ role, ¬ act.carriesOut role)
    (hanswered : L.slaveOpen = true → act = .publishSegment true) : PromiseKept L [] act :=
  ⟨fun _ h => absurd h List.not_mem_nil, fun r h => absurd h (hact r),
    fun hslave _ => hanswered hslave⟩

/-- The poll of a listener that is up leaves no debt and keeps its promise. -/
theorem listenerTick_keeps {L : Listener} {owed : List ReacRole} (t : TickAnswers)
    (hdebt : DebtRecorded (L, owed)) (hcapture : L.slaveOpen = true → tickReadsCapture L = true) :
    SegmentInv ((listenerTick hearing L t).1, []) ∧
      PromiseKept L owed (listenerTick hearing L t).2 := by
  rcases listenerTick_cases hearing L t with
    ⟨role, hrole, hres⟩ | ⟨hnone, -, hres⟩ | ⟨hnone, hreads, hres⟩
  · rw [hres]
    exact takeRole_keeps hearing t hdebt hrole
  · obtain rfl := hdebt.nothing hnone
    rw [hres]
    refine ⟨fun _ _ => hdebt, promiseKept_nothing ?_ ?_⟩
    · rintro r (h | h) <;> exact absurd h (by simp [listenerPublishSegment])
    · intro hslave
      obtain ⟨hsrc, hdoor⟩ : L.src.isSome = true ∧ L.cfg.doorOnly = false := hdebt.answers hslave
      simp [listenerPublishSegment, hsrc, hdoor]
  · obtain rfl := hdebt.nothing hnone
    have hnoSlave : L.slaveOpen = true → False := by
      intro hslave
      rw [hcapture hslave] at hreads
      exact Bool.false_ne_true hreads.symm
    rcases hres with hres | ⟨hz, hres⟩
    · rw [hres]
      refine ⟨fun _ _ => hdebt, promiseKept_nothing ?_ fun h => (hnoSlave h).elim⟩
      rintro r (h | h) <;> exact absurd h (by simp)
    · rw [hres]
      refine ⟨segmentInv_reopen L _ t.fits t.reopen,
        promiseKept_nothing ?_ fun h => (hnoSlave h).elim⟩
      rintro r (h | h) <;> exact absurd h (by simp)

/-- A poll leaves no debt: what was owed is carried out, and a listener that is still
the same has nothing on record. -/
theorem segmentInv_tick {s : Listener × List ReacRole} {t : TickAnswers} (hinv : SegmentInv s)
    (hread : ReadWhereWritten request s (.tick t)) :
    SegmentInv ((rateReopenTick hearing s.1 t).1, []) ∧
      PollKeepsPromise hearing s (.tick t) := by
  obtain ⟨L, owed⟩ := s
  by_cases hlive : L.opened = true ∧ L.cfg.tap = false
  · obtain ⟨hopen, htap⟩ := hlive
    obtain ⟨hup, hcapture⟩ := hread hopen htap
    have hlost : ¬ (L.rxStarted && t.ifaceLost) = true := by
      intro h
      exact hup ((Bool.and_eq_true_iff).mp h)
    have htick : rateReopenTick hearing L t = listenerTick hearing L t := by
      simp only [rateReopenTick, hopen, htap, if_neg hlost]
      rfl
    obtain ⟨hinv', hkept⟩ := listenerTick_keeps hearing t (hinv hopen htap) hcapture
    refine ⟨by rw [htick]; exact hinv', fun _ _ => ?_⟩
    show PromiseKept L owed (rateReopenTick hearing L t).2
    rw [htick]
    exact hkept
  · -- a closed listener, or a tap: the poll changes nothing
    have hkept : (rateReopenTick hearing L t).1 = L := by
      simp only [rateReopenTick]
      split
      · rfl
      · split
        · rfl
        · split
          · rfl
          · rename_i hopen _ htap
            exact absurd ⟨by simpa using hopen, by simpa using htap⟩ hlive
    refine ⟨fun hopen htap => ?_, fun hopen htap => absurd ⟨hopen, htap⟩ hlive⟩
    rw [show (rateReopenTick hearing L t).1 = L from hkept] at hopen htap
    exact absurd ⟨hopen, htap⟩ hlive

/-- Every event keeps the debt on record. -/
theorem segmentStep_inv (hsame : ∀ r, request r r = false) (s : Listener × List ReacRole)
    (e : SegmentEvent) (hinv : SegmentInv s) (hread : ReadWhereWritten request s e) :
    SegmentInv ((segmentMachine request hearing).step s e).1 := by
  obtain ⟨L, owed⟩ := s
  cases e with
  | serve cfg fits a =>
      show SegmentInv (if L.opened then L else _, if L.opened then owed else [])
      split
      · exact hinv
      · rcases listenerServe_cases cfg fits a with hdown | ⟨M, feeds, hup, hres⟩
        · rw [hdown]
          intro hopen
          exact absurd hopen Bool.false_ne_true
        · rw [hres]
          exact segmentInv_opened hup
  | capture bound role => exact segmentInv_write request hearing hsame rfl hinv hread
  | playback role => exact segmentInv_write request hearing hsame rfl hinv hread
  | rate hz accepted =>
      show SegmentInv (if L.opened then listenerRateWrite L hz accepted else L, owed)
      split
      · intro hopen htap
        obtain ⟨howed, hpending, hother, hanswers⟩ : DebtRecorded (L, owed) := hinv hopen htap
        have hrec : pendingRole (listenerRateWrite L hz accepted) = pendingRole L :=
          pendingRole_rateWrite L hz accepted
        exact ⟨fun r hr => hrec.trans (howed r hr), fun r hr => hpending r (hrec.symm.trans hr),
          hother, hanswers⟩
      · exact hinv
  | tick t => exact (segmentInv_tick request hearing hinv hread).1

/-- **Every accepted role is carried out by the next poll, and every slave's engine is
answered for**, in every run whose roles are accepted where the poll reads them. -/
theorem accepted_roles_carried_out (hsame : ∀ r, request r r = false) (run : List SegmentEvent)
    (e : SegmentEvent)
    (hread : (segmentMachine request hearing).Guarded (ReadWhereWritten request) (.zeroed, [])
      (run ++ [e])) :
    PollKeepsPromise hearing ((segmentMachine request hearing).after (.zeroed, []) run) e := by
  obtain ⟨hguard, hnow⟩ := (StepMachine.guarded_concat _ _ _ _ _).mp hread
  have hstart : SegmentInv (Listener.zeroed, []) := fun hopen =>
    absurd hopen Bool.false_ne_true
  have hinv := (segmentMachine request hearing).invariant_guarded
    (segmentStep_inv request hearing hsame) run _ hstart hguard
  cases e with
  | tick t => exact (segmentInv_tick request hearing hinv hnow).2
  | _ => exact True.intro

end

/-! ### Three shapes of a slave -/

/-- `role = box`: a row presented to the mixer. -/
def boxCfg (ifname : String) : ListenerCfg :=
  { segmentCfg ifname .slave with rolePinned := true, boxModel := true }

/-- A poll with the interface there. -/
def quietTick : TickAnswers := { ifaceLost := false, fits := true, reopen := opensAt 48000 }

/-- The role record of a running engine takes the other role. -/
def takesOther (running asserted : ReacRole) : Bool := asserted != running

/-- A desk's slave asked to be the master is dropped, to be classified again. -/
theorem accepted_roles_carried_out_desk_slave :
    PollKeepsPromise true
      ((segmentMachine takesOther true).after (.zeroed, [])
        [.serve (segmentCfg "enp1s0" .slave) true (opensAt 48000), .tick quietTick,
          .capture false .master])
      (.tick quietTick) :=
  accepted_roles_carried_out takesOther true (fun r => by cases r <;> rfl) _ _ (by decide)

/-- `role = box`: the capture node accepts the role, and the poll reads the sink. -/
theorem box_role_assertion_lost :
    ¬ PollKeepsPromise true
      ((segmentMachine takesOther true).after (.zeroed, [])
        [.serve (boxCfg "enp1s0") true (opensAt 48000), .capture false .master])
      (.tick quietTick) := by
  intro hkept
  have hcarried := (hkept (by decide) (by decide)).carried .master (by decide)
  rcases hcarried with h | h <;> exact absurd h (by decide)

end ReacPw
