/-
Every linked wire is listened to, and nothing listens to a wire that is gone.

A state of the interface table orders something of the interface's ears: a linked wire is to
have its sniffer, one that is down or away neither sniffer nor tap, and a segment is its
listener's business.  The events are the words in which the orders reach the daemon, and the
two are kept in step (`Orders.InStep`) by every act, since each of them that moves the table
queues its word and each that carries a word out obeys it.

Three things break the step.  A sniffer that does not open is not tried again.  A segment
switched on again after its event was passed over has nobody to tell of it.  And a wire may be
heard again that the table does not hold as a segment and has nothing to say of.  A run is
guarded at these.
-/
import ReacPw.Lib.Orders
import ReacPw.Listening
import ReacPw.Proofs.Stranded

namespace ReacPw

/-! ### Orders -/

inductive EarOrder where
  | listen
  | close
  /-- A segment's sniffer is kept or closed by its serve. -/
  | leave
  deriving DecidableEq, Repr

def IfState.order : IfState → EarOrder
  | .linked => .listen
  | .absent | .down => .close
  | .segment | .hold => .leave

def IfVerb.order : IfVerb → Option EarOrder
  | .listen => some .listen
  | .unlisten | .drop => some .close
  | .serve => some .leave
  | .kept => none

def earWord (name : String) (e : IfEvent) : Option EarOrder :=
  if e.name = name then e.verb.order else none

/-- What the daemon has of one interface's ears, and whether its conf says to pass it over. -/
structure EarRecord where
  sniffed : Bool
  tapped : Bool
  ignored : Bool

def EarOrder.Obeyed : EarOrder → EarRecord → Prop
  | .listen, r => r.sniffed = true ∨ r.ignored = true
  | .close, r => r.sniffed = false ∧ r.tapped = false
  | .leave, _ => True

theorem earWord_self (e : IfEvent) : earWord e.name e = e.verb.order := if_pos rfl

theorem earWord_other {name : String} {e : IfEvent} (hne : e.name ≠ name) : earWord name e = none :=
  if_neg hne

/-- **An interface's own steps say what they have come to.** -/
theorem IfTold.tells {st st' : IfState} {verbs : List IfVerb} (htold : IfTold st verbs st') :
    Orders.Tells (fun _ v => IfVerb.order v) verbs () st.order st'.order := by
  induction htold with
  | andThen _ _ ihfirst ihrest => exact ihfirst.trans _ ihrest
  | linked hout => rcases hout with rfl | rfl <;> rfl
  | unlinked hout => rcases hout with rfl | rfl <;> rfl
  | dropped hin hout => rcases hin with rfl | rfl <;> rcases hout with rfl | rfl <;> rfl
  | _ => rfl

theorem lastWord_verbsOf (name : String) (events : List IfEvent) :
    Orders.lastWord earWord events name =
      Orders.lastWord (fun _ v => IfVerb.order v) (verbsOf name events) () := by
  unfold Orders.lastWord verbsOf
  rw [List.filterMap_map, List.filterMap_filter]
  congr 2
  funext e
  unfold earWord
  by_cases hname : e.name = name
  · simp [hname]
  · simp [hname]

section
variable {σ : Type*} {n : Nat} (S : IfScan σ)

/-- The table has moved, and the words for it are queued. -/
def TableTells (s s' : σ) : Prop :=
  ∃ extra, S.events s' = S.events s ++ extra ∧
    ∀ name, Orders.Tells earWord extra name (S.state s name).order (S.state s' name).order

/-- The same of the daemon's tables, whose conf has not changed. -/
structure SaysMoves (h h' : Hearing σ n) : Prop where
  tells : TableTells S h.scan h'.scan
  ignored : h'.ignored = h.ignored

def Listening.record (L : Listening σ n) (name : String) : EarRecord :=
  { sniffed := L.sniffed name, tapped := L.tapped name, ignored := L.table.ignored name }

/-- The last word about an interface's ears. -/
def Listening.lastWord (L : Listening σ n) (name : String) : Option EarOrder :=
  Orders.lastWord earWord (S.events L.table.scan) name

def EarsInStep (L : Listening σ n) : Prop :=
  ∀ name, Orders.InStep earWord EarOrder.Obeyed (S.events L.table.scan) name
    (S.state L.table.scan name).order (L.record name)

/-- The table holds a wire as a segment, or is about to say something of it. -/
def Listening.Spoken (L : Listening σ n) (name : String) : Prop :=
  (S.state L.table.scan name).order = .leave ∨ L.lastWord S name ≠ none

/-- The act leaves no wire deaf. -/
def HearsOn (L : Listening σ n) (x : ListenInput n) : Prop :=
  match L.popped S x.act with
  | some (e, _) => e.verb = .listen → L.sniffed e.name = false →
      x.sniffOpens = true ∨ L.table.ignored e.name = true
  | none => (∀ name ∈ rehearsOn L.table x.act, L.Spoken S name) ∧
      match x.act with
      | .confEdit ignored => ∀ name, S.state L.table.scan name = .linked →
          L.table.ignored name = true → ignored name = false →
          L.sniffed name = true ∨ L.lastWord S name ≠ none
      | _ => True

variable {S}

/-! ### What moves the table -/

theorem tableTells_refl (s : σ) : TableTells S s s :=
  ⟨[], (List.append_nil _).symm, fun _ => Orders.tells_nothing _ _ _⟩

theorem tableTells_trans {s s' s'' : σ} (hfirst : TableTells S s s')
    (hrest : TableTells S s' s'') : TableTells S s s'' := by
  obtain ⟨extra, hevents, htells⟩ := hfirst
  obtain ⟨more, hevents', htells'⟩ := hrest
  refine ⟨extra ++ more, ?_, fun name => (htells name).trans _ (htells' name)⟩
  rw [hevents', hevents, List.append_assoc]

theorem tableTells_told {s s' : σ} (htold : S.Told s s') : TableTells S s s' := by
  obtain ⟨extra, hevents, hsteps⟩ := htold
  refine ⟨extra, hevents, fun name => ?_⟩
  unfold Orders.Tells
  rw [lastWord_verbsOf]
  exact (hsteps name).tells

/-- One interface moves, and its word is queued. -/
theorem tableTells_one {s s' : σ} {name : String} {verb : IfVerb}
    (hword : verb.order = some (S.state s' name).order)
    (hothers : ∀ k, k ≠ name → S.state s' k = S.state s k)
    (hevents : S.events s' = S.events s ++ [⟨verb, name⟩]) : TableTells S s s' := by
  refine ⟨_, hevents, fun k => ?_⟩
  unfold Orders.Tells
  rw [Orders.lastWord_cons, Orders.lastWord_nil, Option.none_or]
  by_cases hk : k = name
  · subst hk
    rw [earWord_self ⟨verb, k⟩, hword]
    rfl
  · rw [earWord_other (Ne.symm hk), hothers k hk]
    rfl

theorem saysMoves_refl (h : Hearing σ n) : SaysMoves S h h := ⟨tableTells_refl _, rfl⟩

theorem saysMoves_trans {h h' h'' : Hearing σ n} (hfirst : SaysMoves S h h')
    (hrest : SaysMoves S h' h'') : SaysMoves S h h'' :=
  ⟨tableTells_trans hfirst.tells hrest.tells, hrest.ignored.trans hfirst.ignored⟩

theorem setSlot_moves (h : Hearing σ n) (i : Fin n) (L : Listener) :
    SaysMoves S h (h.setSlot i L) :=
  ⟨tableTells_refl _, rfl⟩

theorem hearingDrop_moves (h : Hearing σ n) (name : String) :
    SaysMoves S h (hearingDrop h name) := by
  rcases hearingDrop_cases h name with ⟨-, hres⟩ | ⟨i, -, hres⟩
  · rw [hres]
    exact saysMoves_refl h
  · rw [hres]
    exact setSlot_moves h i _

theorem scan_moves {h : Hearing σ n} {scan : σ} (htells : TableTells S h.scan scan) :
    SaysMoves S h { h with scan := scan } :=
  ⟨htells, rfl⟩

variable (hlawful : S.Lawful) (hvoiced : S.Voiced)
include hlawful

theorem heard_tells (s : σ) (name : String) (now : Nat) : TableTells S s (S.heard s name now) := by
  rcases hlawful.heard s name now with ⟨hevents, hstate⟩ | ⟨-, hsegment, hothers, hevents⟩
  · refine ⟨[], by rw [hevents, List.append_nil], fun k => ?_⟩
    rw [hstate k]
    exact Orders.tells_nothing _ _ _
  · exact tableTells_one (by rw [hsegment]; rfl) hothers hevents

include hvoiced

theorem serveFailed_moves (h : Hearing σ n) (name : String) (now : Nat) :
    SaysMoves S h (h.serveFailed S name now) := by
  have hothers := (hlawful.serveFailed h.scan name now).2.1
  refine scan_moves ?_
  rcases hvoiced.serveFailed h.scan name now with ⟨hstate, hevents⟩ | ⟨-, hlinked, hevents⟩
  · refine ⟨[], by rw [hevents, List.append_nil], fun k => ?_⟩
    have hsame : S.state (S.serveFailed h.scan name now) k = S.state h.scan k := by
      by_cases hk : k = name
      · rw [hk, hstate]
      · exact hothers k hk
    rw [hsame]
    exact Orders.tells_nothing _ _ _
  · exact tableTells_one (by rw [hlinked]; rfl) hothers hevents

theorem hearingRehear_moves (h : Hearing σ n) (name : String) (now : Nat) :
    SaysMoves S h (hearingRehear S h name now) :=
  saysMoves_trans (hearingDrop_moves h name) (serveFailed_moves hlawful hvoiced _ name now)

theorem linkBudgetYield_moves (now : Nat) :
    ∀ (names : List String) (h : Hearing σ n), SaysMoves S h (linkBudgetYield S h names now) := by
  intro names
  induction names with
  | nil => exact saysMoves_refl
  | cons name rest ih =>
      intro h
      exact saysMoves_trans (hearingRehear_moves hlawful hvoiced h name now) (ih _)

variable (speed : String → Nat)

theorem slotAdmitted_moves (h : Hearing σ n) (i : Fin n) (a : SlotAnswers n) :
    SaysMoves S h (slotAdmitted S speed h i a).1 :=
  linkBudgetYield_moves hlawful hvoiced a.now _ h

theorem slotReopen_moves (h : Hearing σ n) (i : Fin n) (change : ListenerCfg → ListenerCfg)
    (a : SlotAnswers n) : SaysMoves S h (slotReopen S speed h i change a) :=
  saysMoves_trans (setSlot_moves h i _)
    (saysMoves_trans (slotAdmitted_moves hlawful hvoiced speed _ i a) (setSlot_moves _ i _))

theorem hearingServe_moves (h : Hearing σ n) (name : String) (cfg : ListenerCfg)
    (a : SlotAnswers n) : SaysMoves S h (hearingServe S speed h name cfg a) := by
  unfold hearingServe
  split
  · exact saysMoves_refl h
  · cases freeSlot h with
    | none => exact serveFailed_moves hlawful hvoiced h name a.now
    | some i =>
        dsimp only
        have hopened : ∀ L L', SaysMoves S h
            ((slotAdmitted S speed (h.setSlot i L) i a).1.setSlot i L') := fun L L' =>
          saysMoves_trans (setSlot_moves h i L)
            (saysMoves_trans (slotAdmitted_moves hlawful hvoiced speed _ i a)
              (setSlot_moves _ i L'))
        split
        · exact hopened _ _
        · exact saysMoves_trans (hopened _ _) (serveFailed_moves hlawful hvoiced _ name a.now)

theorem hearingReserve_moves (h : Hearing σ n) (name : String) (hunt : Hunt) (s : ServeArgs n) :
    SaysMoves S h (hearingReserve S speed h name hunt s) :=
  saysMoves_trans (hearingDrop_moves h name) (hearingServe_moves hlawful hvoiced speed _ name _ _)

theorem slotTick_moves (h : Hearing σ n) (i : Fin n) (ifaceLost : Bool) (a : SlotAnswers n) :
    SaysMoves S h (slotTick S speed h i ifaceLost a) := by
  unfold slotTick
  cases slotAsked h i ifaceLost a with
  | reclassify role => exact hearingRehear_moves hlawful hvoiced h _ a.now
  | reopenRole role => exact slotReopen_moves hlawful hvoiced speed h i _ a
  | reopenRate hz => exact slotReopen_moves hlawful hvoiced speed h i _ a
  | _ => exact saysMoves_refl h

/-- What carrying an event out does to the tables, the event gone from the queue. -/
theorem hearingApply_moves {h : Hearing σ n} {e : IfEvent} {scan : σ}
    (hnext : S.next h.scan = some (e, scan)) (hunt : Option Hunt) (s : ServeArgs n) :
    SaysMoves S { h with scan := scan } (hearingApply S speed h hunt s) := by
  unfold hearingApply
  rw [hnext]
  dsimp only
  cases e.verb with
  | serve =>
      dsimp only
      split
      · exact saysMoves_refl _
      · exact hearingServe_moves hlawful hvoiced speed _ _ _ _
  | drop => exact hearingDrop_moves _ _
  | _ => exact saysMoves_refl _

/-- Every other act queues its words behind what is there. -/
theorem hearStep_moves (h : Hearing σ n) (act : HearAct n)
    (happly : ∀ hunt s, act ≠ .apply hunt s) (hconf : ∀ ignored, act ≠ .confEdit ignored) :
    SaysMoves S h (hearStep S speed h act) := by
  cases act with
  | slotTick i ifaceLost a => exact slotTick_moves hlawful hvoiced speed h i ifaceLost a
  | ifaceGone i now =>
      dsimp only [hearStep]
      split
      · exact scan_moves (tableTells_told (hvoiced.gone _ _ now))
      · exact saysMoves_refl h
  | hunt name now =>
      dsimp only [hearStep]
      split
      · exact scan_moves (heard_tells hlawful _ name now)
      · exact saysMoves_refl h
  | join i hunt s =>
      dsimp only [hearStep]
      split
      · exact saysMoves_refl h
      · split
        · exact hearingReserve_moves hlawful hvoiced speed h _ hunt s
        · exact saysMoves_refl h
  | reevaluate i now =>
      dsimp only [hearStep]
      split
      · exact saysMoves_refl h
      · split
        · exact hearingRehear_moves hlawful hvoiced h _ now
        · exact saysMoves_refl h
  | rehearEmpty i now obs =>
      dsimp only [hearStep]
      split
      · exact hearingRehear_moves hlawful hvoiced h _ now
      · exact setSlot_moves h i _
  | yield v now =>
      dsimp only [hearStep]
      split
      · exact saysMoves_refl h
      · split
        · exact saysMoves_refl h
        · exact hearingReserve_moves hlawful hvoiced speed h _ v.hunt v.serve
  | scanTick now => exact scan_moves (tableTells_told (hvoiced.tick _ now))
  | apply hunt s => exact absurd rfl (happly hunt s)
  | trunk name => exact hearingDrop_moves h name
  | write i w =>
      dsimp only [hearStep]
      split
      · exact setSlot_moves h i _
      · exact saysMoves_refl h
  | drain bytes now => exact scan_moves (tableTells_told (hvoiced.drain _ bytes now))
  | confEdit ignored => exact absurd rfl (hconf ignored)

end

/-! ### The ears -/

section
variable {σ : Type*} {n : Nat} {S : IfScan σ}

/-- The tables have moved with their words, the ears as they are. -/
theorem earsInStep_moves {L : Listening σ n} {table : Hearing σ n} (hinv : EarsInStep S L)
    (hmoves : SaysMoves S L.table table) : EarsInStep S { L with table := table } := by
  obtain ⟨extra, hevents, htells⟩ := hmoves.tells
  intro name
  have hrecord : ({ L with table := table } : Listening σ n).record name = L.record name := by
    simp only [Listening.record, hmoves.ignored]
  rw [hrecord]
  show Orders.InStep _ _ (S.events table.scan) name (S.state table.scan name).order _
  rw [hevents]
  exact (hinv name).told (htells name)

/-- A wire that is a segment, or of which there is word, has its sniffer changed. -/
theorem earsInStep_fresh {L : Listening σ n} {name : String} {sniffed : Bool}
    (hinv : EarsInStep S L) (hspoken : L.Spoken S name) :
    EarsInStep S { L with sniffed := Function.update L.sniffed name sniffed } := by
  intro k
  refine (hinv k).record fun hnone hobeyed => ?_
  by_cases hk : k = name
  · subst hk
    rcases hspoken with hleave | hword
    · show (S.state L.table.scan k).order.Obeyed _
      rw [hleave]
      exact True.intro
    · exact absurd hnone hword
  · have hsame : ({ L with sniffed := Function.update L.sniffed name sniffed } :
        Listening σ n).record k = L.record k := by
      simp only [Listening.record, Function.update_of_ne hk]
    rw [hsame]
    exact hobeyed

/-- An event leaves the ears of its interface as it orders. -/
theorem onEvent_obeyed (L : Listening σ n) (e : IfEvent) (hunt : Option Hunt) (x : ListenInput n)
    (hopens : e.verb = .listen → L.sniffed e.name = false →
      x.sniffOpens = true ∨ L.table.ignored e.name = true) :
    ∀ w, e.verb.order = some w → w.Obeyed ((L.onEvent e hunt x).record e.name) := by
  intro w hword
  unfold Listening.onEvent
  cases hverb : e.verb with
  | listen =>
      rw [hverb] at hword
      obtain rfl : EarOrder.listen = w := Option.some.inj hword
      dsimp only
      split
      · rename_i hignored
        exact Or.inr hignored
      · rename_i hwanted
        refine Or.inl ?_
        show Function.update L.sniffed e.name _ e.name = true
        rw [Function.update_self]
        cases hsniffed : L.sniffed e.name with
        | true => rfl
        | false => exact (hopens hverb hsniffed).resolve_right hwanted
  | unlisten =>
      rw [hverb] at hword
      obtain rfl : EarOrder.close = w := Option.some.inj hword
      exact ⟨Function.update_self _ _ _, Function.update_self _ _ _⟩
  | drop =>
      rw [hverb] at hword
      obtain rfl : EarOrder.close = w := Option.some.inj hword
      exact ⟨Function.update_self _ _ _, Function.update_self _ _ _⟩
  | serve =>
      rw [hverb] at hword
      obtain rfl : EarOrder.leave = w := Option.some.inj hword
      exact True.intro
  | kept =>
      rw [hverb] at hword
      exact absurd hword (by simp [IfVerb.order])

/-- And those of the others as they were. -/
theorem onEvent_other (L : Listening σ n) (e : IfEvent) (hunt : Option Hunt) (x : ListenInput n)
    {k : String} (hk : earWord k e = none) : (L.onEvent e hunt x).record k = L.record k := by
  unfold Listening.onEvent
  by_cases hname : e.name = k
  · subst hname
    rw [earWord_self] at hk
    cases hverb : e.verb with
    | kept => rfl
    | _ => exact absurd (hverb ▸ hk) (by simp [IfVerb.order])
  · have hsame : ∀ (f : String → Bool) (b : Bool), Function.update f e.name b k = f k :=
      fun f b => Function.update_of_ne (Ne.symm hname) _ _
    cases e.verb with
    | listen => dsimp only; split <;> simp [Listening.record, hsame]
    | serve => dsimp only; split <;> simp [Listening.record, hsame]
    | _ => simp [Listening.record, hsame]

theorem onEvent_table (L : Listening σ n) (e : IfEvent) (hunt : Option Hunt) (x : ListenInput n) :
    (L.onEvent e hunt x).table = L.table := by
  unfold Listening.onEvent
  cases e.verb with
  | listen => dsimp only; split <;> rfl
  | serve => dsimp only; split <;> rfl
  | _ => rfl

/-- **An event is carried out.** -/
theorem earsInStep_event (hlawful : S.Lawful) {L : Listening σ n} {e : IfEvent} {scan : σ}
    (hunt : Option Hunt) (x : ListenInput n) (hinv : EarsInStep S L)
    (hnext : S.next L.table.scan = some (e, scan))
    (hopens : e.verb = .listen → L.sniffed e.name = false →
      x.sniffOpens = true ∨ L.table.ignored e.name = true) :
    EarsInStep S { L.onEvent e hunt x with table := { L.table with scan := scan } } := by
  obtain ⟨hevents, hstate⟩ := hlawful.next_some _ _ _ hnext
  intro k
  have hin := hinv k
  rw [hevents] at hin
  have hrecord : ({ L.onEvent e hunt x with table := { L.table with scan := scan } } :
      Listening σ n).record k = (L.onEvent e hunt x).record k := by
    unfold Listening.record
    rw [onEvent_table]
  rw [hrecord]
  show Orders.InStep _ _ (S.events scan) k (S.state scan k).order _
  rw [hstate k]
  refine hin.carried (fun w hword => ?_) (onEvent_other L e hunt x)
  by_cases hname : e.name = k
  · subst hname
    rw [earWord_self] at hword
    exact onEvent_obeyed L e hunt x hopens w hword
  · rw [earWord_other hname] at hword
    exact absurd hword (by simp)

/-! ### One act -/

/-- Only `apply` pops an event. -/
theorem popped_none (L : Listening σ n) {act : HearAct n}
    (happly : ∀ hunt s, act ≠ .apply hunt s) : L.popped S act = none ∧ L.seenBy S act = act := by
  cases act with
  | apply hunt s => exact absurd rfl (happly hunt s)
  | _ => exact ⟨rfl, rfl⟩

variable (speed : String → Nat) (hlawful : S.Lawful) (hvoiced : S.Voiced)
include hlawful hvoiced

theorem apply_inStep {L : Listening σ n} {x : ListenInput n} {hunt : Option Hunt}
    {s : ServeArgs n} (hact : x.act = .apply hunt s) (hinv : EarsInStep S L)
    (hears : HearsOn S L x) :
    EarsInStep S { L.ears S x with table := hearStep S speed L.table (L.seenBy S x.act) } := by
  unfold HearsOn at hears
  unfold Listening.ears
  rw [hact] at hears ⊢
  cases hnext : S.next L.table.scan with
  | none =>
      have hpopped : L.popped S (.apply hunt s) = none := by
        unfold Listening.popped
        rw [hnext]
        rfl
      have hstill : hearStep S speed L.table (L.seenBy S (.apply hunt s)) = L.table := by
        show hearingApply S speed L.table _ s = L.table
        unfold hearingApply
        rw [hnext]
      rw [hpopped, hstill]
      exact hinv
  | some p =>
      obtain ⟨e, scan⟩ := p
      have hpopped : L.popped S (.apply hunt s) = some (e, hunt) := by
        unfold Listening.popped
        rw [hnext]
        rfl
      rw [hpopped] at hears ⊢
      have hevent := earsInStep_event hlawful hunt x hinv hnext hears
      have hcarried := earsInStep_moves hevent (hearingApply_moves hlawful hvoiced speed hnext
        (hunt.filter fun _ => (S.next L.table.scan).any fun p => L.sniffed p.1.name) s)
      exact hcarried

/-- **One act keeps the ears in step**, unless it is one of the three. -/
theorem listenStep_inStep (L : Listening σ n) (x : ListenInput n) (hinv : EarsInStep S L)
    (hears : HearsOn S L x) : EarsInStep S (listenStep S speed L x) := by
  unfold listenStep
  split
  · exact hinv
  by_cases happly : ∃ hunt s, x.act = .apply hunt s
  · obtain ⟨hunt, s, hact⟩ := happly
    exact apply_inStep speed hlawful hvoiced hact hinv hears
  have hother : ∀ hunt s, x.act ≠ .apply hunt s := fun hunt s h => happly ⟨hunt, s, h⟩
  obtain ⟨hpopped, hseen⟩ := popped_none (S := S) L hother
  unfold HearsOn at hears
  unfold Listening.ears
  rw [hpopped] at hears ⊢
  rw [hseen]
  by_cases hconf : ∃ ignored, x.act = .confEdit ignored
  · obtain ⟨ignored, hact⟩ := hconf
    rw [hact] at hears ⊢
    intro k
    refine (hinv k).record fun hnone hobeyed => ?_
    cases hstate : S.state L.table.scan k with
    | linked =>
        rw [hstate] at hobeyed
        rcases hobeyed with hsniffed | hignored
        · exact Or.inl hsniffed
        · cases hnow : ignored k with
          | true => exact Or.inr hnow
          | false =>
              rcases hears.2 k hstate hignored hnow with hsniffed | hword
              · exact Or.inl hsniffed
              · exact absurd hnone hword
    | _ =>
        rw [hstate] at hobeyed
        exact hobeyed
  · have hmoves := hearStep_moves hlawful hvoiced speed L.table x.act hother
      fun ignored h => hconf ⟨ignored, h⟩
    cases hrehears : rehearsOn L.table x.act with
    | none => exact earsInStep_moves hinv hmoves
    | some name => exact earsInStep_moves (earsInStep_fresh hinv (hears.1 name hrehears)) hmoves

/-! ### A whole run -/

omit hlawful hvoiced in
/-- Nothing is listened to, and the first dump has told of every wire. -/
theorem earsInStep_start {L : Listening σ n} (hdumped : S.Dumped L.table.scan)
    (hquiet : ∀ name, L.sniffed name = false ∧ L.tapped name = false) : EarsInStep S L := by
  intro k
  have hblank : Orders.InStep earWord EarOrder.Obeyed [] k .close (L.record k) := hquiet k
  have htells : Orders.Tells earWord (S.events L.table.scan) k .close
      (S.state L.table.scan k).order := by
    unfold Orders.Tells
    rw [lastWord_verbsOf]
    exact (hdumped k).tells
  exact hblank.told htells

/-- **Every linked wire is listened to, and nothing listens to a wire that is gone**, or the
last word queued about it says so. -/
theorem wires_listened (L : Listening σ n) (hdumped : S.Dumped L.table.scan)
    (hquiet : ∀ name, L.sniffed name = false ∧ L.tapped name = false)
    (run : List (ListenInput n))
    (hears : (listenMachine S speed).Guarded (HearsOn S) L run) (name : String) :
    let L' := (listenMachine S speed).after L run
    (S.state L'.table.scan name = .linked →
      L'.sniffed name = true ∨ L'.table.ignored name = true ∨
        L'.lastWord S name = some .listen) ∧
    (S.state L'.table.scan name = .down ∨ S.state L'.table.scan name = .absent →
      (L'.sniffed name = false ∧ L'.tapped name = false) ∨
        L'.lastWord S name = some .close) := by
  have hinv := (listenMachine S speed).invariant_guarded
    (listenStep_inStep speed hlawful hvoiced) run L (earsInStep_start hdumped hquiet) hears name
  dsimp only
  generalize (listenMachine S speed).after L run = L' at hinv ⊢
  refine ⟨fun hlinked => ?_, fun hout => ?_⟩
  · rw [hlinked] at hinv
    rcases hinv.obeyed with (hsniffed | hignored) | hword
    · exact Or.inl hsniffed
    · exact Or.inr (Or.inl hignored)
    · exact Or.inr (Or.inr hword)
  · have horder : (S.state L'.table.scan name).order = .close := by
      rcases hout with hdown | habsent
      · rw [hdown]; rfl
      · rw [habsent]; rfl
    rw [horder] at hinv
    rcases hinv.obeyed with hshut | hword
    · exact Or.inl hshut
    · exact Or.inr hword

end

/-! ### A cable that is pulled -/

/-- One interface moves by a step of its own. -/
theorem told_one {σ : Type*} {S : IfScan σ} {s s' : σ} {name : String} {verb : IfVerb}
    (hstep : IfTold (S.state s name) [verb] (S.state s' name))
    (hothers : ∀ k, k ≠ name → S.state s' k = S.state s k)
    (hevents : S.events s' = S.events s ++ [⟨verb, name⟩]) : S.Told s s' := by
  refine ⟨_, hevents, fun k => ?_⟩
  by_cases hk : k = name
  · subst hk
    have hverbs : verbsOf k [⟨verb, k⟩] = [verb] := by simp [verbsOf]
    rw [hverbs]
    exact hstep
  · have hverbs : verbsOf k [⟨verb, name⟩] = [] := by
      simp [verbsOf, beq_eq_false_iff_ne.mpr (Ne.symm hk)]
    rw [hverbs, hothers k hk]
    exact .still _

theorem told_still {σ : Type*} {S : IfScan σ} (s : σ) : S.Told s s :=
  ⟨[], (List.append_nil _).symm, fun _ => .still _⟩

theorem scanTable_voiced : scanTable.Voiced where
  gone t name now := by
    have hothers : ∀ dest verb k, k ≠ name → (t.move name dest verb).state k = t.state k := by
      intro dest verb k hk
      rw [ScanTable.move_state, if_neg hk]
    have hmoved : ∀ verb, IfTold (t.state name) [verb] .absent →
        scanTable.Told t (t.move name .absent verb) := by
      intro verb hstep
      refine told_one ?_ (hothers .absent verb) rfl
      show IfTold _ _ ((t.move name .absent verb).state name)
      rw [ScanTable.move_state, if_pos rfl]
      exact hstep
    show scanTable.Told t (if _ then _ else if _ then _ else _)
    split
    · rename_i hin
      exact hmoved .drop (.dropped hin (Or.inl rfl))
    · split
      · rename_i hlinked
        exact hmoved .unlisten (hlinked ▸ .unlinked (Or.inl rfl))
      · exact told_still t
  tick t _ := told_still t
  drain t _ _ := told_still t
  serveFailed t name now := by
    by_cases hseg : t.state name = .segment
    · have hmoved : scanTable.serveFailed t name now = t.move name .linked .listen := if_pos hseg
      refine Or.inr ⟨Or.inl hseg, ?_, ?_⟩
      · rw [hmoved]
        show (t.move name .linked .listen).state name = .linked
        rw [ScanTable.move_state, if_pos rfl]
      · rw [hmoved]
        rfl
    · have hsame : scanTable.serveFailed t name now = t := if_neg hseg
      exact Or.inl ⟨by rw [hsame], by rw [hsame]⟩

/-- One interface with link, which the first dump has told of. -/
def firstDump : Listening ScanTable 1 :=
  { table := { oneLinkedInterface with
      scan := { ifs := [("enp1s0", .linked)], queue := [⟨.listen, "enp1s0"⟩] } }
    sniffed := fun _ => false, tapped := fun _ => false }

theorem firstDump_dumped : scanTable.Dumped firstDump.table.scan := by
  intro name
  show IfTold .absent (verbsOf name [⟨.listen, "enp1s0"⟩])
    ((List.lookup name [("enp1s0", IfState.linked)]).getD .absent)
  by_cases hname : name = "enp1s0"
  · subst hname
    exact .linked (Or.inl rfl)
  · have hverbs : verbsOf name [⟨.listen, "enp1s0"⟩] = [] := by
      simp [verbsOf, beq_eq_false_iff_ne.mpr (Ne.symm hname)]
    rw [hverbs, List.lookup_cons, beq_eq_false_iff_ne.mpr hname]
    exact .still _

def boxServe : ServeArgs 1 :=
  { conf := segmentCfg "enp1s0" .master, forcedRate := 0, answers := slotAnswers 48000 1000000000 }

/-- The interface is listened to and served, its sniffer kept, and the cable is pulled. -/
def unplugRun : List (ListenInput 1) :=
  [.apply none boxServe, .hunt "enp1s0" 1000000000, .apply (some boxHunt) boxServe,
    .ifaceGone (Fin.last 0) 2000000000, .apply none boxServe].map
    fun act => { act := act, sniffOpens := true, tapOpens := true, pinned := false }

theorem wires_listened_unplugged :
    let L := (listenMachine scanTable (fun _ => 0)).after firstDump (unplugRun.take 4)
    let L' := (listenMachine scanTable (fun _ => 0)).after firstDump unplugRun
    L.sniffed "enp1s0" = true ∧ L.tapped "enp1s0" = true ∧
      L'.sniffed "enp1s0" = false ∧ L'.tapped "enp1s0" = false := by
  have hears : (listenMachine scanTable (fun _ => 0)).Guarded (HearsOn scanTable) firstDump
      unplugRun :=
    ⟨fun _ _ => Or.inl rfl, ⟨fun _ h => absurd h (Option.not_mem_none _), trivial⟩,
      fun h => absurd h (by decide), ⟨fun _ h => absurd h (Option.not_mem_none _), trivial⟩,
      fun h => absurd h (by decide), trivial⟩
  have hgone := (wires_listened (fun _ => 0) scanTable_lawful scanTable_voiced firstDump
    firstDump_dumped (fun _ => ⟨rfl, rfl⟩) unplugRun hears "enp1s0").2
  obtain ⟨hsniffed, htapped⟩ := (hgone (Or.inr (by decide))).resolve_right (by decide)
  exact ⟨by decide, by decide, hsniffed, htapped⟩

/-- A sniffer that does not open is not tried again: the wire is linked, nothing is said of it,
and what its hunt would ask is not asked. -/
example :
    let L := (listenMachine scanTable (fun _ => 0)).after firstDump
      (unplugRun.map fun x => { x with sniffOpens := false })
    scanTable.state L.table.scan "enp1s0" = .linked ∧ L.sniffed "enp1s0" = false ∧
      L.table.ignored "enp1s0" = false ∧ L.lastWord scanTable "enp1s0" = none := by
  decide

end ReacPw
