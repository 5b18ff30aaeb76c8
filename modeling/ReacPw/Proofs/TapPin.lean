/-
A segment that the file pins `tap` sends nothing.

Two parties can put a frame on its wire: the listener that serves it, through an engine,
and the sniffer that hears it, through the knock.  The pin reaches the listener with every
serve, whatever the hunt says of the wire, and a listener on it comes up as a tap or as a
door: it keeps what was opened (`SendsNothing`) over re-opens and writes.  It reaches the
sniffer with every opening, and a sniffer that was told not to watch for silence never
opens its sender.

The first half is an instance of a rule for single listeners: what a closed listener has,
and serves, re-opens, writes and polls keep, every listener of the table has in every run
(`hearStep_each`).
-/
import ReacPw.Proofs.KnockHands
import ReacPw.Proofs.Placed
import ReacPw.SegmentCfg

namespace ReacPw

section
variable {σ : Type*} {n : Nat} (S : IfScan σ) (speed : String → Nat)

/-! ### One listener of the table -/

/-- A write or a poll: the listener keeps its configuration and its engine. -/
structure EngineKept (L L' : Listener) : Prop where
  opened : L'.opened = L.opened
  cfg : L'.cfg = L.cfg
  sink : L'.sink.isSome = L.sink.isSome
  slave : L'.slaveOpen = L.slaveOpen
  timer : L'.adTimer = L.adTimer

theorem listenerWrite_engine (L : Listener) (w : NodeWrite) :
    EngineKept L (listenerWrite L w) := by
  obtain ⟨hopened, hcfg⟩ := listenerWrite_shape L w
  have hplayback : ∀ r, EngineKept L (listenerPlaybackWrite L r) := fun r =>
    ⟨rfl, rfl, Option.isSome_map, rfl, rfl⟩
  cases w with
  | capture bound r =>
      by_cases hsink : (bound && L.adTimer) = true
      · simp only [listenerWrite, listenerCaptureWrite, hsink, if_true]
        exact hplayback r
      · simp only [listenerWrite, listenerCaptureWrite, hsink]
        exact ⟨rfl, rfl, rfl, rfl, rfl⟩
  | playback r => exact hplayback r
  | rate hz accepted => exact ⟨hopened, hcfg, Option.isSome_map, rfl, rfl⟩

theorem rehearEmptyMaster_engine {L : Listener} {now : Nat} {obs : Option EngineObs}
    (hkeeps : (rehearEmptyMaster L now obs).2 = false) :
    EngineKept L (rehearEmptyMaster L now obs).1 := by
  obtain ⟨-, hres⟩ | ⟨-, hres⟩ | ⟨o, -, -, hres⟩ | ⟨o, hobs, happlies, hopen, hsnd, -⟩ :=
    rehearEmptyMaster_cases L now obs
  · rw [hres]
    exact ⟨rfl, rfl, rfl, rfl, rfl⟩
  · rw [hres]
    exact ⟨rfl, rfl, rfl, rfl, rfl⟩
  · rw [hres]
    exact ⟨rfl, rfl, rfl, rfl, rfl⟩
  · subst hobs
    rw [hsnd] at hkeeps
    have hres : (rehearEmptyMaster L now (some o)).1 =
        { L with empty := (reacEmptyMasterStep L.empty now o.rxBoxFrames o.pastProbing).1 } := by
      simp [rehearEmptyMaster, happlies, hopen, hkeeps]
    rw [hres]
    exact ⟨rfl, rfl, rfl, rfl, rfl⟩

/-- A re-open's change: where the listener is and how it came up stay. -/
structure PinsKept (change : ListenerCfg → ListenerCfg) : Prop where
  source : ∀ c, (change c).source = c.source
  tap : ∀ c, (change c).tap = c.tap
  door : ∀ c, (change c).doorOnly = c.doorOnly

/-- **What the table keeps of single listeners**, but for a serve. -/
structure KeptByTable (P : Listener → Prop) : Prop where
  closed : ∀ L, L.opened = false → P L
  engine : ∀ L L', EngineKept L L' → P L → P L'
  reopen : ∀ L change fits a, L.opened = true → PinsKept change → P L →
    P (listenerReopen L change fits a)

/-- The interface an act may serve, and the configuration it starts from. -/
def servedConf (h : Hearing σ n) : HearAct n → Option (String × ListenerCfg)
  | .join i _ s => (h.listeners i).cfg.source.map fun name => (name, s.conf)
  | .yield v _ => some (v.name, v.serve.conf)
  | .apply _ s => (S.next h.scan).map fun popped => (popped.1.name, s.conf)
  | _ => none

section
variable {P : Listener → Prop}

theorem setSlot_each {h : Hearing σ n} {i : Fin n} {L : Listener}
    (hall : ∀ j, P (h.listeners j)) (hL : P L) : ∀ j, P ((h.setSlot i L).listeners j) := by
  intro j
  by_cases hj : j = i
  · subst hj
    rw [setSlot_same]
    exact hL
  · rw [setSlot_ne _ _ hj]
    exact hall j

variable (hP : KeptByTable P)
include hP

theorem KeptByTable.keptOrDropped {h h' : Hearing σ n} {names : List String}
    (hall : ∀ j, P (h.listeners j)) (hkept : ∀ j, KeptOrDropped h h' names j) :
    ∀ j, P (h'.listeners j) := by
  intro j
  obtain heq | ⟨-, hdropped⟩ := hkept j
  · rw [heq]
    exact hall j
  · rw [hdropped]
    exact hP.closed _ rfl

theorem KeptByTable.drop {h : Hearing σ n} (hall : ∀ j, P (h.listeners j)) (name : String) :
    ∀ j, P ((hearingDrop h name).listeners j) :=
  hP.keptOrDropped hall (hearingDrop_slot h name)

theorem KeptByTable.serve {h : Hearing σ n} (hall : ∀ j, P (h.listeners j)) (name : String)
    {cfg : ListenerCfg} (hserve : ∀ fits a, P (listenerServe cfg fits a).1) (a : SlotAnswers n) :
    ∀ j, P ((hearingServe S speed h name cfg a).listeners j) := by
  unfold hearingServe
  split
  · exact hall
  · cases hslot : freeSlot h with
    | none => exact hall
    | some i =>
        dsimp only
        have hfree := setSlot_each (i := i) hall (hP.closed { Listener.zeroed with cfg := cfg } rfl)
        have hadmitted := hP.keptOrDropped hfree (slotAdmitted_slot S speed _ i a)
        split
        · exact setSlot_each hadmitted (hserve _ _)
        · exact setSlot_each hadmitted (hserve _ _)

theorem KeptByTable.slotReopen {h : Hearing σ n} (hall : ∀ j, P (h.listeners j)) {i : Fin n}
    {change : ListenerCfg → ListenerCfg} (hchange : PinsKept change)
    (hopened : (h.listeners i).opened = true) (a : SlotAnswers n) :
    ∀ j, P ((slotReopen S speed h i change a).listeners j) := by
  have hclosing := setSlot_each (i := i) hall
    (hP.closed (listenerReopening (h.listeners i) change) rfl)
  have hadmitted := hP.keptOrDropped hclosing (slotAdmitted_slot S speed _ i a)
  exact setSlot_each hadmitted (hP.reopen _ change _ _ hopened hchange (hall i))

theorem KeptByTable.slotTick {h : Hearing σ n} (hall : ∀ j, P (h.listeners j)) (i : Fin n)
    (ifaceLost : Bool) (a : SlotAnswers n) :
    ∀ j, P ((slotTick S speed h i ifaceLost a).listeners j) := by
  unfold ReacPw.slotTick
  cases hopened : (h.listeners i).opened with
  | false =>
      rw [slotAsked_closed hopened]
      exact hall
  | true =>
      cases slotAsked h i ifaceLost a with
      | reclassify role => exact hP.drop hall _
      | reopenRole role =>
          refine hP.slotReopen S speed hall ?_ hopened a
          exact ⟨fun _ => rfl, fun _ => rfl, fun _ => rfl⟩
      | reopenRate hz =>
          refine hP.slotReopen S speed hall ?_ hopened a
          exact ⟨fun _ => rfl, fun _ => rfl, fun _ => rfl⟩
      | _ => exact hall

/-- **Every act keeps it of every listener**, when what it serves has it. -/
theorem hearStep_each {h : Hearing σ n} (hall : ∀ j, P (h.listeners j)) (act : HearAct n)
    (hserve : ∀ name conf, servedConf S h act = some (name, conf) → ∀ hunt rate fits a,
      P (listenerServe (serveCfg name conf hunt rate) fits a).1) :
    ∀ j, P ((hearStep S speed h act).listeners j) := by
  have hreserve : ∀ name hunt s, servedConf S h act = some (name, s.conf) →
      ∀ j, P ((hearingReserve S speed h name hunt s).listeners j) := fun name hunt s hconf =>
    hP.serve S speed (hP.drop hall name) name (hserve name s.conf hconf _ _) s.answers
  cases act with
  | slotTick i ifaceLost a => exact hP.slotTick S speed hall i ifaceLost a
  | ifaceGone i now =>
      dsimp only [hearStep]
      split <;> exact hall
  | hunt name now =>
      dsimp only [hearStep]
      split <;> exact hall
  | join i hunt s =>
      dsimp only [hearStep]
      split
      · exact hall
      · rename_i name hsource
        split
        · exact hreserve name hunt s (by simp [servedConf, hsource])
        · exact hall
  | reevaluate i now =>
      dsimp only [hearStep]
      split
      · exact hall
      · split
        · exact hP.drop hall _
        · exact hall
  | rehearEmpty i now obs =>
      dsimp only [hearStep]
      split
      · exact hP.drop hall _
      · rename_i hkeeps
        exact setSlot_each hall (hP.engine _ _
          (rehearEmptyMaster_engine (by simpa using hkeeps)) (hall i))
  | yield v now =>
      dsimp only [hearStep]
      split
      · exact hall
      · split
        · exact hall
        · exact hreserve v.name v.hunt v.serve rfl
  | scanTick now => exact hall
  | apply hunt s =>
      dsimp only [hearStep]
      unfold hearingApply
      cases hnext : S.next h.scan with
      | none => exact hall
      | some popped =>
          obtain ⟨e, scan⟩ := popped
          have hconf : servedConf S h (.apply hunt s) = some (e.name, s.conf) := by
            simp [servedConf, hnext]
          dsimp only
          cases e.verb with
          | serve =>
              dsimp only
              split
              · exact hall
              · exact hP.serve S speed (h := { h with scan := scan }) hall e.name
                  (hserve _ _ hconf hunt s.forcedRate) s.answers
          | drop => exact hP.drop (h := { h with scan := scan }) hall e.name
          | _ => exact hall
  | trunk name => exact hP.drop hall name
  | write i w =>
      dsimp only [hearStep]
      split
      · exact setSlot_each hall (hP.engine _ _ (listenerWrite_engine _ w) (hall i))
      · exact hall
  | drain bytes now => exact hall
  | confEdit ignored => exact hall

end

/-! ### A tap -/

/-- No engine, no send, and no timer of a master's. -/
structure TransmitsNothing (L : Listener) : Prop where
  sink : L.sink = none
  slave : L.slaveOpen = false
  timer : L.adTimer = false

/-- On that interface the listener is a tap, and transmits nothing. -/
def SendsNothing (name : String) (L : Listener) : Prop :=
  serves L name = true → L.cfg.tap = true ∧ TransmitsNothing L

/-- A tap comes up with nothing to send through. -/
theorem ListenerUp.tap_transmits {L M : Listener} {fits : Bool} {a : OpenAnswers}
    (hup : ListenerUp L fits a M) (htap : L.cfg.tap = true) :
    M.cfg.tap = true ∧ TransmitsNothing M := by
  have htapR : (listenerReceiving L a).cfg.tap = true :=
    (listenerPrepared_cfg L a).2.2.2.1.trans htap
  cases hup with
  | tap => exact ⟨htap, rfl, rfl, rfl⟩
  | vacant => exact ⟨htapR, rfl, rfl, rfl⟩
  | door => exact ⟨htapR, rfl, rfl, rfl⟩
  | master _ _ hno => exact absurd htap (by simp [hno])
  | slave _ _ _ hno => exact absurd htap (by simp [hno])
  | silent hno => exact absurd htap (by simp [hno])

theorem sendsNothing_kept (name : String) : KeptByTable (SendsNothing name) where
  closed L hclosed hserves := by
    rw [(serves_iff.mp hserves).1] at hclosed
    cases hclosed
  engine L L' hkept hL hserves := by
    obtain ⟨hopened, hsource⟩ := serves_iff.mp hserves
    obtain ⟨htap, hquiet⟩ := hL (serves_iff.mpr ⟨hkept.opened ▸ hopened, hkept.cfg ▸ hsource⟩)
    refine ⟨hkept.cfg ▸ htap, ?_, hkept.slave.trans hquiet.slave, hkept.timer.trans hquiet.timer⟩
    have hsink := hkept.sink
    rw [hquiet.sink] at hsink
    exact Option.isSome_eq_false_iff.mp hsink |> Option.isNone_iff_eq_none.mp
  reopen L change fits a hopened hchange hL hserves := by
    obtain hclosed | ⟨M, hup, hres⟩ := listenerReopen_cases L change fits a
    · rw [(serves_iff.mp hserves).1] at hclosed
      cases hclosed
    · have hcfg : (listenerReopening L change).cfg = change L.cfg := by
        unfold listenerReopening
        rw [if_pos hopened]
        rfl
      rw [hres] at hserves ⊢
      have hsource : L.cfg.source = some name := by
        rw [← hchange.source, ← hcfg, ← listenerUp_source hup]
        exact (serves_iff.mp hserves).2
      have htap := (hL (serves_iff.mpr ⟨hopened, hsource⟩)).1
      rw [← hchange.tap, ← hcfg] at htap
      obtain ⟨htapM, hquiet⟩ := hup.tap_transmits htap
      exact ⟨htapM, hquiet.sink, hquiet.slave, hquiet.timer⟩

/-- What the hunt says of the wire unpins no tap. -/
theorem serveCfg_tap {name : String} {conf : ListenerCfg} (htap : conf.tap = true)
    (hunt : Option Hunt) (forcedRate : Nat) : (serveCfg name conf hunt forcedRate).tap = true := by
  cases hunt with
  | none => exact htap
  | some w => simp [serveCfg, cfgOnHunt, cfgOnVerdict, htap]

/-- A listener served as a tap sends nothing, and one on another interface is none of its. -/
theorem listenerServe_sendsNothing {name other : String} {conf : ListenerCfg}
    (htap : other = name → conf.tap = true) (hunt : Option Hunt) (forcedRate : Nat) (fits : Bool)
    (a : OpenAnswers) :
    SendsNothing name (listenerServe (serveCfg other conf hunt forcedRate) fits a).1 := by
  obtain hdown | ⟨M, feeds, hup, hres⟩ :=
    listenerServe_cases (serveCfg other conf hunt forcedRate) fits a
  · rw [hdown]
    exact (sendsNothing_kept name).closed _ rfl
  · rw [hres]
    intro hserves
    have hsource := listenerUp_source hup
    rw [(serves_iff.mp hserves).2] at hsource
    have hother : other = name := (Option.some.inj hsource).symm
    obtain ⟨htapM, hquiet⟩ := hup.tap_transmits (serveCfg_tap (htap hother) hunt forcedRate)
    exact ⟨htapM, hquiet.sink, hquiet.slave, hquiet.timer⟩

end

/-! ### The sniffer's side -/

section
variable {μ κ : Type*} (A : MasterApi μ) (K : LicenceApi κ) (isControl : Frame → Bool)

theorem knockArm_watch (sn : KnockSniffer μ κ) :
    (knockArm sn).watchSilence = sn.watchSilence := by
  unfold knockArm
  split <;> rfl

theorem drainFrame_watch (now : Nat) (sn : KnockSniffer μ κ) (f : HeardFrame) :
    (drainFrame K isControl now sn f).watchSilence = sn.watchSilence := by
  unfold drainFrame
  dsimp only
  split
  · exact knockArm_watch _
  · rfl

theorem snifferDrain_watch (now : Nat) (frames : List HeardFrame) :
    ∀ sn : KnockSniffer μ κ,
      (snifferDrain K isControl now sn frames).watchSilence = sn.watchSilence := by
  induction frames with
  | nil => intro sn; rfl
  | cons f frames ih =>
      intro sn
      exact (ih (drainFrame K isControl now sn f)).trans (drainFrame_watch K isControl now sn f)

/-- A sniffer that does not watch for silence is not asked for a knock. -/
theorem hearingHuntKnock_unwatched {sn : KnockSniffer μ κ} (hwatch : sn.watchSilence = false)
    (p : HuntPoll) : (hearingHuntKnock A K isControl sn p).watchSilence = false := by
  have hdrained := (snifferDrain_watch K isControl p.drainedAt p.queued sn).trans hwatch
  unfold hearingHuntKnock
  by_cases hlinked : p.linked = true
  · simp only [hlinked, hdrained, Bool.not_true, Bool.not_false, Bool.false_eq_true, if_false,
      if_true, Bool.or_true]
    split <;> exact hdrained
  · rw [if_pos (by simp [hlinked])]
    exact hwatch

/-- A sound sniffer that does not watch for silence keeps still, whatever happens. -/
theorem handsOn_unwatched {s : KnockSniffer μ κ} {e : HandsEvent}
    {r : Option (KnockSniffer μ κ) × List (KnockEvent μ κ)} (hs : HandsSound s)
    (hwatch : s.watchSilence = false) (hr : handsOn A K isControl s e = some r) :
    (∀ s' ∈ r.1, s'.watchSilence = false) ∧ r.2 = [] := by
  have hsilent : r.2 = [] := by
    by_contra hdid
    obtain ⟨now, send, -, hopen, -⟩ := (handsOn_sound A K isControl hs hr).2 hdid
    rw [(hs.opened hopen).2] at hwatch
    cases hwatch
  refine ⟨?_, hsilent⟩
  have hkept : ∀ {s' : KnockSniffer μ κ}, s'.watchSilence = false →
      ∀ t ∈ some s', t.watchSilence = false := fun {s'} h t ht => Option.some.inj ht ▸ h
  cases e with
  | listen l =>
      obtain rfl := Option.some.inj hr
      exact hkept hwatch
  | close =>
      obtain rfl := Option.some.inj hr
      exact fun s' hs' => by simp at hs'
  | io frames now =>
      obtain rfl := Option.some.inj hr
      exact hkept ((snifferDrain_watch K isControl now frames s).trans hwatch)
  | poll p =>
      obtain rfl := Option.some.inj hr
      exact hkept (hearingHuntKnock_unwatched A K isControl hwatch p)
  | wake hosts =>
      simp only [handsOn] at hr
      split at hr <;> obtain rfl := Option.some.inj hr <;> exact hkept hwatch
  | served =>
      simp only [handsOn] at hr
      split at hr <;> obtain rfl := Option.some.inj hr <;> exact hkept hwatch
  | timer now send =>
      simp only [handsOn] at hr
      split at hr
      · obtain rfl := Option.some.inj hr
        exact hkept hwatch
      · split at hr
        · obtain rfl := Option.some.inj hr
          exact hkept hwatch
        · obtain ⟨out, hout, rfl⟩ := Option.map_eq_some_iff.mp hr
          -- a closed sender's timer does nothing
          have hclosed : s.txOpen = false := by
            by_contra hopen
            rw [(hs.opened (eq_true_of_ne_false hopen)).2] at hwatch
            cases hwatch
          rw [onKnockTimer, if_pos (by simp [hclosed])] at hout
          obtain rfl := Option.some.inj hout
          exact hkept hwatch

theorem snifferOpenEx_unwatched {l : ListenAs}
    (hl : (l.pinned || l.tapPinned || l.wireless) = true) :
    (snifferOpenEx A K l).watchSilence = false := by
  simp only [snifferOpenEx]
  revert hl
  cases l.pinned <;> cases l.tapPinned <;> cases l.wireless <;> simp

/-- **A sniffer that is never told to watch for silence never sends**, however often it is
opened again. -/
theorem hands_unwatched (run : List HandsEvent)
    (hlisten : ∀ l, .listen l ∈ run → (l.pinned || l.tapPinned || l.wireless) = true) :
    ∀ out ∈ (handsMachine A K isControl).outputs {} run, out = [] := by
  refine (handsMachine A K isControl).outputs_of_invariant
    (I := fun h => ∀ s ∈ h.sn, HandsSound s ∧ s.watchSilence = false)
    (G := fun e => ∀ l, e = .listen l → (l.pinned || l.tapPinned || l.wireless) = true)
    ?_ run {} (fun s hs => by simp at hs) fun e he l hl => hlisten l (hl ▸ he)
  intro h e hh hpin
  show (∀ s ∈ (handsStep A K isControl h e).1.sn, _) ∧ (handsStep A K isControl h e).2 = []
  obtain ⟨-, hstep | ⟨l, he, hstep⟩⟩ | ⟨s, -, hsn, ⟨-, hstep⟩ | ⟨r, hon, hstep⟩⟩ :=
    handsStep_cases A K isControl h e
  · rw [hstep]
    exact ⟨hh, rfl⟩
  · rw [hstep]
    refine ⟨fun s hs => ?_, rfl⟩
    obtain rfl := Option.some.inj hs
    exact ⟨(snifferOpenEx_sound A K l).1, snifferOpenEx_unwatched A K (hpin l he)⟩
  · rw [hstep]
    exact ⟨fun t ht => hh t (hsn.trans ht), rfl⟩
  · rw [hstep]
    obtain ⟨hsound, hwatch⟩ := hh s hsn
    obtain ⟨hstays, hsilent⟩ := handsOn_unwatched A K isControl hsound hwatch hon
    exact ⟨fun t ht => ⟨(handsOn_sound A K isControl hsound hon).1 t ht, hstays t ht⟩, hsilent⟩

end

/-! ### The file's pin -/

section
variable (fromIntent : RoleIntent → ReacRole) (inCatalogue : Text → Bool)

/-- The configuration is what a file that pins the segment `tap` makes of it. -/
def FromTapPin (name : String) (conf : ListenerCfg) : Prop :=
  ∃ c tx, reacSegconfRole c (txt name) = some .tap ∧
    conf = listenerCfgFromConf fromIntent inCatalogue c name tx

/-- So are the sniffer's pins. -/
def ListensToTapPin (name : String) (l : ListenAs) : Prop :=
  ∃ c wireless src fps now, reacSegconfRole c (txt name) = some .tap ∧
    l = segmentListen fromIntent c name wireless src fps now

theorem FromTapPin.tap {name : String} {conf : ListenerCfg}
    (hpin : FromTapPin fromIntent inCatalogue name conf) : conf.tap = true := by
  obtain ⟨c, tx, hrole, rfl⟩ := hpin
  simp [listenerCfgFromConf, hrole, cfgOnIntent]

theorem ListensToTapPin.tapPinned {name : String} {l : ListenAs}
    (hpin : ListensToTapPin fromIntent name l) : l.tapPinned = true := by
  obtain ⟨c, wireless, src, fps, now, hrole, rfl⟩ := hpin
  simp [segmentListen, segmentTapPin, hrole]

/-- **A segment that the file pins `tap` sends nothing.**  In every run in which it is served
and listened to on such a file only, no listener on it has an engine, a send or a master's
timer, and nothing its sniffer's knock could send goes out: whatever the hunt says of the wire,
however often it is served, re-opened and written to, and however the file changes
otherwise. -/
theorem tap_pin_sends_nothing {σ : Type*} {n : Nat} (S : IfScan σ) (speed : String → Nat)
    {μ κ : Type*} (A : MasterApi μ) (K : LicenceApi κ) (isControl : Frame → Bool) (name : String)
    (h : Hearing σ n) (hclosed : ∀ i, (h.listeners i).opened = false) (run : List (HearAct n))
    (hpin : (hearMachine S speed).Guarded (fun h act => ∀ conf,
      servedConf S h act = some (name, conf) → FromTapPin fromIntent inCatalogue name conf) h run)
    (events : List HandsEvent)
    (hlisten : ∀ l, .listen l ∈ events → ListensToTapPin fromIntent name l) :
    (∀ i, serves (((hearMachine S speed).after h run).listeners i) name = true →
      TransmitsNothing (((hearMachine S speed).after h run).listeners i)) ∧
    ∀ out ∈ (handsMachine A K isControl).outputs {} events, out = [] := by
  constructor
  · have hall : ∀ i, SendsNothing name (((hearMachine S speed).after h run).listeners i) := by
      refine (hearMachine S speed).invariant_guarded
        (I := fun h => ∀ i, SendsNothing name (h.listeners i)) ?_ run h
        (fun i => (sendsNothing_kept name).closed _ (hclosed i)) hpin
      intro h act hall hserved
      refine hearStep_each S speed (sendsNothing_kept name) hall act ?_
      intro other conf hconf hunt rate fits a
      refine listenerServe_sendsNothing ?_ hunt rate fits a
      rintro rfl
      exact (hserved conf hconf).tap
    exact fun i hserves => (hall i hserves).2
  · refine hands_unwatched A K isControl events fun l hl => ?_
    have htap := (hlisten l hl).tapPinned
    simp [htap]

end

/-- A file that pins one segment. -/
def tapFile : Segconf := { seg := [{ name := txt "enp1s0", role := .tap, roleSet := true }] }

def intentRole : RoleIntent → ReacRole
  | .slave | .tap | .box => .slave
  | _ => .master

/-- A box is heard on the wire, and the segment is served. -/
def tapServedRun : List (HearAct 1) :=
  [.hunt "enp1s0" 1000000000, .apply (some boxHunt)
    { conf := listenerCfgFromConf intentRole (fun _ => false) tapFile "enp1s0" none
      forcedRate := 0, answers := slotAnswers 48000 1000000000 }]

/-- The wire falls silent for as long as an unpinned one is listened to, and the timer runs. -/
def tapSilentRun : List HandsEvent :=
  [.listen (segmentListen intentRole tapFile "enp1s0" false [2, 0, 0, 0, 0, 1] 8000 1),
    .poll { now := 600000000, linked := true, queued := [], drainedAt := 600000000,
            trunkNow := false, waits := false, hosts := false, opens := true, timerOk := true },
    .timer 600000000 (fun _ _ => true)]

theorem tap_pin_sends_nothing_box :
    (serves (((hearMachine scanTable (fun _ => 0)).after oneLinkedInterface
        tapServedRun).listeners 0) "enp1s0" = true ∧
      TransmitsNothing (((hearMachine scanTable (fun _ => 0)).after oneLinkedInterface
        tapServedRun).listeners 0)) ∧
    ∀ out ∈ (handsMachine fourSlotMaster halfSecondLicence (fun _ => true)).outputs {} tapSilentRun,
      out = [] := by
  have hrole : reacSegconfRole tapFile (txt "enp1s0") = some .tap := by decide
  have hserved : serves (((hearMachine scanTable (fun _ => 0)).after oneLinkedInterface
      tapServedRun).listeners 0) "enp1s0" = true := by decide
  have hlisten : ∀ l, .listen l ∈ tapSilentRun → ListensToTapPin intentRole "enp1s0" l := by
    intro l hl
    simp only [tapSilentRun, List.mem_cons, HandsEvent.listen.injEq, reduceCtorEq,
      List.not_mem_nil, or_false] at hl
    exact ⟨tapFile, _, _, _, _, hrole, hl⟩
  have hpin : (hearMachine scanTable (fun _ => 0)).Guarded (fun h act => ∀ conf,
      servedConf scanTable h act = some ("enp1s0", conf) →
        FromTapPin intentRole (fun _ => false) "enp1s0" conf) oneLinkedInterface tapServedRun := by
    refine ⟨fun conf hconf => ?_, fun conf hconf => ?_, trivial⟩
    · cases hconf
    · obtain ⟨-, rfl⟩ := Prod.mk.inj (Option.some.inj hconf)
      exact ⟨tapFile, none, hrole, rfl⟩
  obtain ⟨hlistener, hknock⟩ := tap_pin_sends_nothing intentRole (fun _ => false) scanTable
    (fun _ => 0) fourSlotMaster halfSecondLicence (fun _ => true) "enp1s0" oneLinkedInterface
    (fun _ => rfl) tapServedRun hpin tapSilentRun hlisten
  exact ⟨⟨hserved, hlistener 0 hserved⟩, hknock⟩

end ReacPw
