/-
Whether every link taken down is brought back up.

An edge is two writes a second and more apart, and all that is left of it in
between is one field: the time the link comes back.  A link that is down has that
field on record somewhere, in the context of an opened listener whose timer runs
or in a ladder of the knock's, and every turn of the two drivers keeps it so.

What does not is a close.  Closing a listener stops its timer, opening one zeroes
its context, and the daemon's end abandons the ladders.  So the record is kept in
every run in which no listener is closed, re-opened or made to yield with its edge
in flight, and a clean end finds nothing down when no edge is.
-/
import ReacPw.Daemon

namespace ReacPw

variable {σ : Type*} {n : Nat}

/-- The listener's edge is in flight, and its timer will finish it. -/
def edgeInFlight (L : Listener) : Bool := L.opened && L.adTimer && L.adc.upAtNs != 0

/-- A ladder of the knock's has that link's edge on record. -/
def LadderRecords (ladders : List KnockLadder) (name : String) : Prop :=
  ∃ kl ∈ ladders, kl.name = name ∧ kl.upAtNs ≠ 0

/-- A listener has that link's edge on record. -/
def ListenerRecords (h : Hearing σ n) (name : String) : Prop :=
  ∃ i, edgeInFlight (h.listeners i) = true ∧ (h.listeners i).adc.ifname = name

/-- Every link that is down is on record, or kept by something else. -/
def Recorded (kept : String → Prop) (ladders : List KnockLadder) (down : String → Bool) : Prop :=
  ∀ name, down name = true → kept name ∨ LadderRecords ladders name

/-- **Every link the daemon took down has its edge on record.** -/
def EdgesRecorded (d : Daemon σ n) : Prop :=
  Recorded (ListenerRecords d.hear) d.ladders d.down

/-- Nothing is left to finish. -/
def NoEdgeInFlight (d : Daemon σ n) : Prop :=
  (∀ i, edgeInFlight (d.hear.listeners i) = false) ∧ ∀ kl ∈ d.ladders, kl.upAtNs = 0

instance (d : Daemon σ n) : Decidable (NoEdgeInFlight d) :=
  inferInstanceAs (Decidable (_ ∧ _))

/-! ### The writes of a turn -/

theorem linkWrites_up (name : String) (down : String → Bool) (k : String) :
    linkWrites name down [⟨true, true⟩] k = if k = name then false else down k := by
  simp only [linkWrites, List.foldl_cons, List.foldl_nil, linkAdmin, if_true, Bool.not_true,
    Function.update_apply]

theorem linkWrites_down (name : String) (down : String → Bool) (k : String) :
    linkWrites name down [⟨false, true⟩] k = if k = name then true else down k := by
  simp only [linkWrites, List.foldl_cons, List.foldl_nil, linkAdmin, if_true, Bool.not_false,
    Function.update_apply]

/-! ### The knock's ladders -/

/-- Finishing an edge brings its link up and takes its record away. -/
theorem knockFinish_recorded {kept : String → Prop} {kl : KnockLadder} {rest : List KnockLadder}
    {down : String → Bool} (now : Nat) (hrec : Recorded kept (kl :: rest) down) :
    Recorded kept ((knockFinish kl now true).1 :: rest)
      (linkWrites kl.name down (knockFinish kl now true).2) := by
  unfold knockFinish
  split
  · exact hrec
  · intro name hdown
    rw [linkWrites_up] at hdown
    split at hdown
    · exact absurd hdown Bool.false_ne_true
    · rename_i hne
      rcases hrec name hdown with hkept | ⟨k, hk, hname, hup⟩
      · exact Or.inl hkept
      · rcases List.mem_cons.mp hk with rfl | hmem
        · exact absurd hname.symm hne
        · exact Or.inr ⟨k, List.mem_cons_of_mem _ hmem, hname, hup⟩

theorem laddersFinish_recorded (now : Nat) (upOk : String → Bool) :
    ∀ (ladders : List KnockLadder) (kept : String → Prop) (down : String → Bool),
      (∀ kl ∈ ladders, upOk kl.name = true) → Recorded kept ladders down →
      Recorded kept (laddersFinish now upOk ladders down).1
        (laddersFinish now upOk ladders down).2 := by
  intro ladders
  induction ladders with
  | nil => intro kept down _ hrec; exact hrec
  | cons kl rest ih =>
      intro kept down hup hrec
      have hfirst := knockFinish_recorded now hrec
      rw [← hup kl List.mem_cons_self] at hfirst
      -- the first ladder's record is something else's for the rest
      have hrest := ih (fun name => kept name ∨
          ((knockFinish kl now (upOk kl.name)).1.name = name ∧
            (knockFinish kl now (upOk kl.name)).1.upAtNs ≠ 0)) _
        (fun k hk => hup k (List.mem_cons_of_mem _ hk)) (by
        intro name hdown
        rcases hfirst name hdown with hkept | ⟨k, hk, hname, hne⟩
        · exact Or.inl (Or.inl hkept)
        · rcases List.mem_cons.mp hk with rfl | hmem
          · exact Or.inl (Or.inr ⟨hname, hne⟩)
          · exact Or.inr ⟨k, hmem, hname, hne⟩)
      intro name hdown
      rcases hrest name hdown with (hkept | ⟨hname, hne⟩) | ⟨k, hk, hname, hne⟩
      · exact Or.inl hkept
      · exact Or.inr ⟨_, List.mem_cons_self, hname, hne⟩
      · exact Or.inr ⟨k, List.mem_cons_of_mem _ hk, hname, hne⟩

/-- A ladder put back records its own edge. -/
theorem putLadder_own (kl : KnockLadder) (hup : kl.upAtNs ≠ 0) :
    ∀ ladders : List KnockLadder, LadderRecords (putLadder ladders kl) kl.name := by
  intro ladders
  induction ladders with
  | nil => exact ⟨kl, List.mem_cons_self, rfl, hup⟩
  | cons k rest ih =>
      unfold putLadder
      split
      · exact ⟨kl, List.mem_cons_self, rfl, hup⟩
      · obtain ⟨k', hk', hname, hup'⟩ := ih
        exact ⟨k', List.mem_cons_of_mem _ hk', hname, hup'⟩

/-- A ladder put back loses no edge, unless its slot's own. -/
theorem putLadder_others {kl : KnockLadder} {name : String} :
    ∀ ladders : List KnockLadder,
      (∀ k, ladders.find? (fun k => k.name == kl.name) = some k → k.upAtNs ≠ 0 → kl.upAtNs ≠ 0) →
      LadderRecords ladders name → LadderRecords (putLadder ladders kl) name := by
  intro ladders
  induction ladders with
  | nil =>
      rintro - ⟨k, hk, -⟩
      exact absurd hk List.not_mem_nil
  | cons k rest ih =>
      rintro hslot ⟨k', hk', hname, hup⟩
      unfold putLadder
      cases hsame : k.name == kl.name with
      | true =>
          rw [if_pos rfl]
          rcases List.mem_cons.mp hk' with rfl | hmem
          · have hkl := hslot k' (by simp [hsame]) hup
            exact ⟨kl, List.mem_cons_self, (beq_iff_eq.mp hsame).symm.trans hname, hkl⟩
          · exact ⟨k', List.mem_cons_of_mem _ hmem, hname, hup⟩
      | false =>
          rw [if_neg Bool.false_ne_true]
          rcases List.mem_cons.mp hk' with rfl | hmem
          · exact ⟨k', List.mem_cons_self, hname, hup⟩
          · have hfind : (k :: rest).find? (fun k => k.name == kl.name) =
                rest.find? (fun k => k.name == kl.name) := by
              simp [hsame]
            rw [hfind] at hslot
            obtain ⟨k'', hk'', hname', hup'⟩ := ih hslot ⟨k', hmem, hname, hup⟩
            exact ⟨k'', List.mem_cons_of_mem _ hk'', hname', hup'⟩

theorem edgeUpAt_ne (now : Nat) : edgeUpAt now ≠ 0 := by
  unfold edgeUpAt reacWakeDownMs
  omega

/-- One turn of a ladder: it leaves its edge in flight, makes one, or touches nothing. -/
theorem knockTurn_cases (kl : KnockLadder) {sn : KnockSniff} (now : Nat)
    (hok : sn.downOk = true) :
    (knockTurn kl sn now).1.name = kl.name ∧
    ((knockTurn kl sn now).2.writes = [] ∧ (knockTurn kl sn now).1.upAtNs = kl.upAtNs ∨
      (knockTurn kl sn now).2.writes = [⟨false, true⟩] ∧
        (knockTurn kl sn now).1.upAtNs = edgeUpAt now) := by
  unfold knockTurn
  by_cases hup : kl.upAtNs ≠ 0
  · rw [if_pos hup]
    exact ⟨rfl, Or.inl ⟨rfl, rfl⟩⟩
  · rw [if_neg hup]
    refine ⟨knockCarryOut_name kl sn now, ?_⟩
    have hwrites := knockCarryOut_writes kl sn now
    have hat := knockCarryOut_upAtNs kl sn now
    rw [hok] at hwrites hat
    by_cases hbounce : (reacWakeStep (knockAsked kl sn now).1 now (knockAsked kl sn now).2).2 =
        .bounce
    · rw [if_pos hbounce] at hwrites
      rw [if_pos ⟨hbounce, rfl⟩] at hat
      exact Or.inr ⟨hwrites, hat⟩
    · rw [if_neg hbounce] at hwrites
      rw [if_neg (fun h => hbounce h.1)] at hat
      exact Or.inl ⟨hwrites, hat⟩

theorem knockLadderOf_some {maxLadders : Nat} {ladders : List KnockLadder} {name : String}
    {kl : KnockLadder} (hof : knockLadderOf maxLadders ladders name = some kl) :
    kl.name = name ∧ ∀ k, ladders.find? (fun k => k.name == name) = some k → k = kl := by
  unfold knockLadderOf at hof
  split at hof
  · rename_i k hk
    obtain rfl := Option.some.inj hof
    exact ⟨by simpa using List.find?_some hk, fun k' hk' => Option.some.inj (hk'.symm.trans hk)⟩
  · rename_i hnone
    split at hof
    · obtain rfl := Option.some.inj hof
      exact ⟨rfl, fun k' hk' => absurd (hk'.symm.trans hnone) (by simp)⟩
    · exact absurd hof (by simp)

/-- One sniffer's turn keeps every record, and puts its own edge on record. -/
theorem knockSniffer_recorded {kept : String → Prop} {maxLadders now : Nat}
    {s : List KnockLadder × (String → Bool)} {sn : KnockSniff} (hok : sn.downOk = true)
    (hrec : Recorded kept s.1 s.2) :
    Recorded kept (knockSniffer maxLadders now s sn).1 (knockSniffer maxLadders now s sn).2 := by
  unfold knockSniffer
  split
  · exact hrec
  cases hof : knockLadderOf maxLadders s.1 sn.name with
  | none => exact hrec
  | some kl =>
      obtain ⟨hname, hslot⟩ := knockLadderOf_some hof
      obtain ⟨hsame, hturn⟩ := knockTurn_cases kl now hok
      dsimp only
      have hput : ∀ name, LadderRecords s.1 name →
          LadderRecords (putLadder s.1 (knockTurn kl sn now).1) name := by
        intro name
        refine putLadder_others s.1 ?_
        rw [hsame, hname]
        intro k hk hup
        rw [hslot k hk] at hup
        rcases hturn with ⟨-, hat⟩ | ⟨-, hat⟩
        · rw [hat]; exact hup
        · rw [hat]; exact edgeUpAt_ne now
      rcases hturn with ⟨hwrites, -⟩ | ⟨hwrites, hat⟩
      · rw [hwrites]
        intro name hdown
        exact (hrec name hdown).imp_right (hput name)
      · rw [hwrites]
        intro name hdown
        rw [linkWrites_down] at hdown
        split at hdown
        · rename_i heq
          have hown := putLadder_own (knockTurn kl sn now).1
            (by rw [hat]; exact edgeUpAt_ne now) s.1
          rw [hsame, hname, ← heq] at hown
          exact Or.inr hown
        · exact (hrec name hdown).imp_right (hput name)

/-- A poll of the knock's driver keeps every record. -/
theorem hearingKnockWake_recorded {maxLadders : Nat} {d : Daemon σ n} {p : LadderPoll}
    (hup : ∀ kl ∈ d.ladders, p.upOk kl.name = true) (hdown : ∀ sn ∈ p.sniffs, sn.downOk = true)
    (hrec : EdgesRecorded d) : EdgesRecorded (hearingKnockWake maxLadders d p) := by
  have hfin := laddersFinish_recorded p.now p.upOk d.ladders _ d.down hup hrec
  have hsniffs : ∀ (sniffs : List KnockSniff) (s : List KnockLadder × (String → Bool)),
      (∀ sn ∈ sniffs, sn.downOk = true) → Recorded (ListenerRecords d.hear) s.1 s.2 →
      Recorded (ListenerRecords d.hear) (sniffs.foldl (knockSniffer maxLadders p.now) s).1
        (sniffs.foldl (knockSniffer maxLadders p.now) s).2 := by
    intro sniffs
    induction sniffs with
    | nil => intro s _ hs; exact hs
    | cons sn rest ih =>
        intro s hok hs
        exact ih _ (fun k hk => hok k (List.mem_cons_of_mem _ hk))
          (knockSniffer_recorded (hok sn List.mem_cons_self) hs)
  unfold hearingKnockWake
  split
  · exact hrec
  · unfold EdgesRecorded
    dsimp only
    split
    · exact hsniffs p.sniffs _ hdown hfin
    · exact hfin

/-! ### A master's timer -/

/-- One turn of a master's timer: it leaves its edge as it was, finishes it, or makes one
where none was in flight. -/
theorem wakeStep_edge (c : AutodetectCtx) {t : WakeTurn} (hdown : t.downOk = true)
    (hup : t.upOk = true) :
    (wakeStep c t).1.ifname = c.ifname ∧
    ((wakeStep c t).2.writes = [] ∧ (wakeStep c t).1.upAtNs = c.upAtNs ∨
      (wakeStep c t).2.writes = [⟨true, true⟩] ∧ (wakeStep c t).1.upAtNs = 0 ∨
      (wakeStep c t).2.writes = [⟨false, true⟩] ∧ c.upAtNs = 0 ∧
        (wakeStep c t).1.upAtNs = edgeUpAt t.now) := by
  rcases wakeStep_cases c t with hnone | ⟨-, -, hfin⟩ | ⟨p, -, hzero, hctx, hrep⟩
  · rw [hnone]
    exact ⟨rfl, Or.inl ⟨rfl, rfl⟩⟩
  · rw [hfin, hup]
    exact ⟨rfl, Or.inr (Or.inl ⟨rfl, rfl⟩)⟩
  · obtain ⟨-, hname, hat⟩ := wakeAsked_frame c t p
    have hkept := (wakeCarryOut_frame (wakeAsked c t p).1 t (wakeAsked c t p).2).2
    have hwrites : (wakeStep c t).2.writes =
        (wakeCarryOut (wakeAsked c t p).1 t (wakeAsked c t p).2).2.writes := by rw [hrep]
    rw [hctx, hwrites, hkept, wakeCarryOut_writes, wakeCarryOut_upAtNs, hname, hat, hdown]
    refine ⟨rfl, ?_⟩
    by_cases hbounce : (reacWakeStep (wakeAsked c t p).1.wake t.now (wakeAsked c t p).2).2 =
        .bounce
    · exact Or.inr (Or.inr ⟨if_pos hbounce, hzero, if_pos ⟨hbounce, rfl⟩⟩)
    · exact Or.inl ⟨if_neg hbounce, if_neg fun h => hbounce h.1⟩

/-- A listener's record is about its own link. -/
theorem listenerRecords_setSlot {h : Hearing σ n} {i : Fin n} {L' : Listener} {name : String}
    (hrec : ListenerRecords h name)
    (hslot : edgeInFlight (h.listeners i) = true → (h.listeners i).adc.ifname = name →
      edgeInFlight L' = true ∧ L'.adc.ifname = name) :
    ListenerRecords (h.setSlot i L') name := by
  obtain ⟨j, hflight, hname⟩ := hrec
  by_cases hj : j = i
  · subst hj
    obtain ⟨hflight', hname'⟩ := hslot hflight hname
    exact ⟨j, by rw [setSlot_same]; exact hflight', by rw [setSlot_same]; exact hname'⟩
  · exact ⟨j, by rw [setSlot_ne _ _ hj]; exact hflight, by rw [setSlot_ne _ _ hj]; exact hname⟩

/-- A turn of a master's timer keeps every record. -/
theorem listenerTimer_recorded {d : Daemon σ n} {i : Fin n} {t : WakeTurn}
    (hdown : t.downOk = true) (hup : t.upOk = true) (hrec : EdgesRecorded d) :
    EdgesRecorded (listenerTimer d i t) := by
  unfold listenerTimer
  dsimp only
  split
  · exact hrec
  rename_i hrun
  have hlive : (d.hear.listeners i).opened = true ∧ (d.hear.listeners i).adTimer = true := by
    cases ho : (d.hear.listeners i).opened <;> cases ha : (d.hear.listeners i).adTimer <;>
      simp_all
  have hflight : ∀ c : AutodetectCtx,
      edgeInFlight { d.hear.listeners i with adc := c } = (c.upAtNs != 0) := by
    intro c
    simp [edgeInFlight, hlive.1, hlive.2]
  have hnow : edgeInFlight (d.hear.listeners i) = ((d.hear.listeners i).adc.upAtNs != 0) := by
    simp [edgeInFlight, hlive.1, hlive.2]
  obtain ⟨hname, hturn⟩ := wakeStep_edge (d.hear.listeners i).adc hdown hup
  intro name hd
  have hd' : linkWrites (d.hear.listeners i).adc.ifname d.down
      (wakeStep (d.hear.listeners i).adc t).2.writes name = true := hd
  rcases hturn with ⟨hwrites, hat⟩ | ⟨hwrites, hat⟩ | ⟨hwrites, hzero, hat⟩
  · -- the edge is as it was
    rw [hwrites] at hd'
    refine (hrec name hd').imp_left fun hl => listenerRecords_setSlot hl fun hf hn => ?_
    exact ⟨by rw [hflight, hat, ← hnow]; exact hf, hname.trans hn⟩
  · -- finished: its own link is up, and it records no other
    rw [hwrites, linkWrites_up] at hd'
    split at hd'
    · exact absurd hd' Bool.false_ne_true
    · rename_i hne
      refine (hrec name hd').imp_left fun hl => listenerRecords_setSlot hl fun _ hn => ?_
      exact absurd hn.symm hne
  · -- made: its own link is down and on record
    rw [hwrites, linkWrites_down] at hd'
    split at hd'
    · rename_i heq
      refine Or.inl ⟨i, ?_, ?_⟩
      · show edgeInFlight ((d.hear.setSlot i _).listeners i) = true
        rw [setSlot_same, hflight, hat]
        exact bne_iff_ne.mpr (edgeUpAt_ne t.now)
      · show ((d.hear.setSlot i _).listeners i).adc.ifname = name
        rw [setSlot_same, heq]
        exact hname
    · refine (hrec name hd').imp_left fun hl => listenerRecords_setSlot hl fun hf _ => ?_
      rw [hnow, hzero] at hf
      exact absurd hf Bool.false_ne_true

/-! ### The table -/

variable (maxLadders : Nat) (S : IfScan σ) (speed : String → Nat)

/-- One of those sources is the listener's. -/
def servesAny (names : List String) (L : Listener) : Bool := names.any (serves L)

/-- The slots an act closes or re-opens, the neighbours that yield among them. -/
def actTouches (h : Hearing σ n) : TableAct n → Fin n → Bool
  | .serve name conf hunt forcedRate a, j =>
      h.enabled && (hearingListener h name).isNone &&
        ((freeSlot h).map fun i => servesAny
          (slotYielders speed
            (h.setSlot i { Listener.zeroed with cfg := serveCfg name conf hunt forcedRate }) i a)
          (h.listeners j)).getD false
  | .drop name, j => hearingListener h name == some j
  | .reopenRate i hz a, j =>
      (h.listeners i).opened && (j == i || servesAny
        (slotYielders speed
          (h.setSlot i (listenerReopening (h.listeners i) (rateChange hz))) i a) (h.listeners j))
  | .reopenRole i role a, j =>
      (h.listeners i).opened && (j == i || servesAny
        (slotYielders speed
          (h.setSlot i (listenerReopening (h.listeners i) (roleChange role))) i a) (h.listeners j))
  | .openLive i a, j =>
      !(h.enabled || (h.listeners i).opened) && servesAny (slotYielders speed h i a) (h.listeners j)
  | .startLive i ok, j => !h.enabled && !ok && j == i

/-- An admission leaves alone the slots that yield nothing and are not being opened. -/
theorem slotAdmitted_untouched {h : Hearing σ n} {i j : Fin n} {a : SlotAnswers n}
    (hstay : servesAny (slotYielders speed h i a) (h.listeners j) = false) :
    (slotAdmitted S speed h i a).1.listeners j = h.listeners j := by
  rcases slotAdmitted_slot S speed h i a j with hkept | ⟨⟨name, hmem, hserves⟩, -⟩
  · exact hkept
  · have hany : servesAny (slotYielders speed h i a) (h.listeners j) = true :=
      List.any_eq_true.mpr ⟨name, hmem, hserves⟩
    rw [hstay] at hany
    exact absurd hany Bool.false_ne_true

theorem hearingDrop_untouched {h : Hearing σ n} {name : String} {j : Fin n}
    (hnot : hearingListener h name ≠ some j) :
    (hearingDrop h name).listeners j = h.listeners j := by
  unfold hearingDrop
  cases hfound : hearingListener h name with
  | none => rfl
  | some i =>
      refine setSlot_ne _ _ ?_
      rintro rfl
      exact hnot hfound

/-- A re-open leaves alone the slots it is not of and that yield nothing to it. -/
theorem slotReopen_untouched {h : Hearing σ n} {i j : Fin n}
    {change : ListenerCfg → ListenerCfg} {a : SlotAnswers n}
    (hout : (j == i || servesAny
      (slotYielders speed (h.setSlot i (listenerReopening (h.listeners i) change)) i a)
      (h.listeners j)) = false) :
    (slotReopen S speed h i change a).listeners j = h.listeners j := by
  rw [Bool.or_eq_false_iff, beq_eq_false_iff_ne] at hout
  obtain ⟨hne, hyield⟩ := hout
  have hbare : (h.setSlot i (listenerReopening (h.listeners i) change)).listeners j =
      h.listeners j := setSlot_ne _ _ hne
  rw [← hbare] at hyield
  unfold slotReopen
  dsimp only
  rw [setSlot_ne _ _ hne, slotAdmitted_untouched S speed hyield, hbare]

/-- A serve leaves alone the slots that are opened and yield nothing to it. -/
theorem hearingServe_untouched {h : Hearing σ n} {name : String} {cfg : ListenerCfg}
    {a : SlotAnswers n} {j : Fin n} (hopen : (h.listeners j).opened = true)
    (hstay : (hearingListener h name).isNone = true → ∀ i, freeSlot h = some i →
      servesAny (slotYielders speed (h.setSlot i { Listener.zeroed with cfg := cfg }) i a)
        (h.listeners j) = false) :
    (hearingServe S speed h name cfg a).listeners j = h.listeners j := by
  unfold hearingServe
  split
  · rfl
  · rename_i hnone
    cases hfree : freeSlot h with
    | none => rfl
    | some i =>
        have hne : j ≠ i := by
          rintro rfl
          rw [freeSlot_some hfree] at hopen
          exact Bool.false_ne_true hopen
        have hbare : (h.setSlot i { Listener.zeroed with cfg := cfg }).listeners j =
            h.listeners j := setSlot_ne _ _ hne
        have hyield := hstay (by simpa using hnone) i hfree
        rw [← hbare] at hyield
        have hkept := (slotAdmitted_untouched S speed hyield).trans hbare
        dsimp only
        split
        · rw [setSlot_ne _ _ hne, hkept]
        · show (Hearing.setSlot _ i _).listeners j = _
          rw [setSlot_ne _ _ hne, hkept]

/-- A slot an act does not touch keeps its edge in flight. -/
theorem tableStep_untouched {h : Hearing σ n} {act : TableAct n} {j : Fin n}
    (hflight : edgeInFlight (h.listeners j) = true) (hstay : actTouches speed h act j = false) :
    edgeInFlight ((tableStep S speed h act).listeners j) = true ∧
      ((tableStep S speed h act).listeners j).adc.ifname = (h.listeners j).adc.ifname := by
  have hopen : (h.listeners j).opened = true := by
    rw [edgeInFlight, Bool.and_eq_true, Bool.and_eq_true] at hflight
    exact hflight.1.1
  have hsame : ∀ h' : Hearing σ n, h'.listeners j = h.listeners j →
      edgeInFlight (h'.listeners j) = true ∧
        (h'.listeners j).adc.ifname = (h.listeners j).adc.ifname := by
    intro h' heq
    rw [heq]
    exact ⟨hflight, rfl⟩
  cases act with
  | serve name conf hunt forcedRate a =>
      refine hsame _ ?_
      show (if h.enabled = true then hearingServe S speed h name _ a else h).listeners j = _
      split
      · rename_i hen
        refine hearingServe_untouched S speed hopen fun hnone i hfree => ?_
        simpa [actTouches, hen, hnone, hfree] using hstay
      · rfl
  | drop name =>
      refine hsame _ (hearingDrop_untouched ?_)
      simpa [actTouches] using hstay
  | reopenRate i hz a =>
      refine hsame _ ?_
      show (if (h.listeners i).opened = true then _ else h).listeners j = _
      split
      · rename_i hi
        exact slotReopen_untouched S speed (by simpa [actTouches, hi] using hstay)
      · rfl
  | reopenRole i role a =>
      refine hsame _ ?_
      show (if (h.listeners i).opened = true then _ else h).listeners j = _
      split
      · rename_i hi
        exact slotReopen_untouched S speed (by simpa [actTouches, hi] using hstay)
      · rfl
  | openLive i a =>
      refine hsame _ ?_
      show (if (h.enabled || (h.listeners i).opened) = true then h else _).listeners j = _
      split
      · rfl
      · rename_i hlive
        have hlive' : (h.enabled || (h.listeners i).opened) = false := by simpa using hlive
        have hne : j ≠ i := by
          rintro rfl
          rw [hopen, Bool.or_true] at hlive'
          exact Bool.false_ne_true hlive'.symm
        unfold slotOpenLive
        dsimp only
        rw [setSlot_ne _ _ hne, slotAdmitted_untouched S speed]
        simpa [actTouches, hlive'] using hstay
  | startLive i ok =>
      show edgeInFlight ((if _ then h else if _ then _ else _ : Hearing σ n).listeners j) = true ∧
        ((if _ then h else if _ then _ else _ : Hearing σ n).listeners j).adc.ifname = _
      split
      · exact hsame _ rfl
      · rename_i hskip
        split
        · by_cases hj : j = i
          · subst hj
            rw [setSlot_same]
            exact ⟨hflight, rfl⟩
          · exact hsame _ (setSlot_ne _ _ hj)
        · rename_i hok
          have hen : h.enabled = false := by
            rw [Bool.or_eq_true, not_or] at hskip
            simpa using hskip.1
          have hj : j ≠ i := by
            simpa [actTouches, hen, hok] using hstay
          exact hsame _ (setSlot_ne _ _ hj)

/-! ### A whole run -/

/-- The kernel takes every write, and no act closes or re-opens a listener whose edge is
in flight. -/
def NoEdgeAbandoned (d : Daemon σ n) : DaemonAct n → Prop
  | .timer _ t => t.downOk = true ∧ t.upOk = true
  | .poll p =>
      (∀ kl ∈ d.ladders, p.upOk kl.name = true) ∧ ∀ sn ∈ p.sniffs, sn.downOk = true
  | .table act =>
      ∀ j, edgeInFlight (d.hear.listeners j) = true → actTouches speed d.hear act j = false

instance (d : Daemon σ n) (act : DaemonAct n) : Decidable (NoEdgeAbandoned speed d act) := by
  cases act <;> (unfold NoEdgeAbandoned; infer_instance)

/-- Every act that abandons no edge keeps every link that is down on record. -/
theorem daemonStep_recorded (d : Daemon σ n) (act : DaemonAct n) (hrec : EdgesRecorded d)
    (hkeeps : NoEdgeAbandoned speed d act) :
    EdgesRecorded (daemonStep maxLadders S speed d act) := by
  cases act with
  | timer i t => exact listenerTimer_recorded hkeeps.1 hkeeps.2 hrec
  | poll p => exact hearingKnockWake_recorded hkeeps.1 hkeeps.2 hrec
  | table act =>
      intro name hdown
      refine (hrec name hdown).imp_left ?_
      rintro ⟨j, hflight, hname⟩
      obtain ⟨hflight', hname'⟩ := tableStep_untouched S speed hflight (hkeeps j hflight)
      exact ⟨j, hflight', hname'.trans hname⟩

/-- **A link that is down has its edge on record, and a clean end with no edge in flight
leaves no link down**, in every run that abandons none. -/
theorem links_come_back (d : Daemon σ n) (hstart : ∀ name, d.down name = false)
    (run : List (DaemonAct n))
    (hkeeps : (daemonMachine maxLadders S speed).Guarded (NoEdgeAbandoned speed) d run) :
    EdgesRecorded ((daemonMachine maxLadders S speed).after d run) ∧
    (NoEdgeInFlight ((daemonMachine maxLadders S speed).after d run) →
      ∀ name, (daemonStop ((daemonMachine maxLadders S speed).after d run)).down name = false) := by
  have hnone : EdgesRecorded d := by
    intro name hdown
    rw [hstart name] at hdown
    exact absurd hdown Bool.false_ne_true
  have hrec := (daemonMachine maxLadders S speed).invariant_guarded
    (daemonStep_recorded maxLadders S speed) run d hnone hkeeps
  refine ⟨hrec, fun hquiet name => ?_⟩
  show ((daemonMachine maxLadders S speed).after d run).down name = false
  cases hdown : ((daemonMachine maxLadders S speed).after d run).down name with
  | false => rfl
  | true =>
      rcases hrec name hdown with ⟨i, hflight, -⟩ | ⟨kl, hkl, -, hup⟩
      · rw [hquiet.1 i] at hflight
        exact absurd hflight Bool.false_ne_true
      · exact absurd (hquiet.2 kl hkl) hup

/-! ### An edge on a master's link -/

/-- A hearing with one slot and one interface, which has just been heard. -/
def oneHeardInterface : Daemon ScanTable 1 :=
  { hear :=
      { enabled := true, listeners := fun _ => .zeroed
        scan := { ifs := [("enp1s0", .segment)], queue := [] }, ignored := fun _ => false }
    ladders := [], ladderPolls := 0, down := fun _ => false }

def masterHunt : Hunt :=
  { verdict := .master, role := .master, boxRival := false, defersAsTap := false,
    heardAnything := true }

def oneSlot (rate now : Nat) : SlotAnswers 1 :=
  { facts := fun _ => { heard := false, pastProbing := false, recognizedBox := false }
    open_ := opensAt rate, now := now }

/-- A turn of a master that is sending scenes nobody answers. -/
def unanswered (now : Nat) (scenes frames : UInt64) : WakeTurn :=
  { now := now
    pacer := some { probing := true, rxBoxFrames := 0, sceneComplete := scenes, txFrames := frames }
    carrier := .up, siblingsServed := false, ownerRead := .bare, downOk := true, upOk := true }

/-- The segment is served and its master takes the link down, 14 s on. -/
def untilEdge : List (DaemonAct 1) :=
  [.table (.serve "enp1s0" (segmentCfg "enp1s0" .master) (some masterHunt) 0
      (oneSlot 48000 1000000000)),
    .timer 0 (unanswered 1200000000 0 100), .timer 0 (unanswered 15000000000 4 90000)]

/-- The next turns bring it back up. -/
theorem links_come_back_unanswered :
    (daemonStop ((daemonMachine 8 scanTable (fun _ => 0)).after oneHeardInterface
      (untilEdge ++ [.timer 0 (unanswered 15400000000 4 90000),
        .timer 0 (unanswered 16200000000 4 90000)]))).down "enp1s0" = false :=
  (links_come_back 8 scanTable (fun _ => 0) oneHeardInterface (fun _ => rfl) _
    (by decide)).2 (by decide) "enp1s0"

/-- A turn of the new master, whose link is down. -/
def onDownedLink (now : Nat) : WakeTurn :=
  { unanswered now 0 0 with carrier := .down }

/-- A rate accepted 0.4 s into the edge: the re-open binds a new autodetect context, and
its turns find no edge to finish, a minute on or at a clean end. -/
theorem link_left_down_by_reopen :
    ¬ ∀ name, (daemonStop ((daemonMachine 8 scanTable (fun _ => 0)).after oneHeardInterface
      (untilEdge ++ [.table (.reopenRate 0 96000 (oneSlot 96000 15400000000)),
        .timer 0 (onDownedLink 16200000000), .timer 0 (onDownedLink 75000000000)]))).down name =
      false := by
  intro hback
  exact absurd (hback "enp1s0") (by decide)

end ReacPw
