/-
One open, told twice.

The listener of the other modules is opened by what decides its engine and its doors;
a holder is opened resource by resource.  On one configuration and the same answers of
the world both come up or neither does, and what comes up has the same engine and the
same nodes.
-/
import ReacPw.Proofs.Holdings

namespace ReacPw

variable {m : Nat}

/-- Whether the nodes of an open's last part come up, for the shape they are of. -/
def HolderAnswers.nodesUp (a : HolderAnswers m) (cfg : ListenerCfg) : Bool :=
  if cfg.doorOnly || cfg.tap then a.doorNode
  else if cfg.role = .master ∧ cfg.txIf.isSome then a.pinSource && a.pinSink
  else a.capture

/-- The same answers, as the listener's open reads them. -/
def HolderAnswers.openAnswers (a : HolderAnswers m) (cfg : ListenerCfg)
    (resolvedRate sampleRate : Nat) : OpenAnswers :=
  { tap :=
      if !a.tapOpens then .failed
      else if (a.streams : Nat) = 0 then .vacant
      else if ((List.finRange m).take a.streams).all a.tapNode && a.tapStarts then .up
      else .failed
    resolvedRate := resolvedRate
    rxOpens := a.rxOpens
    sampleRate := sampleRate
    claim := a.claim
    sinkMade := if cfg.role = .master then a.sinkMade else a.sendMade
    slaveOpens := a.slaveOpens
    slaveStarts := a.slaveStarts
    nodesEnsured := a.nodesUp cfg
    rxStarts := a.rxStarts }

namespace Holder

/-- A holder and a listener on one configuration, rate aside, with the same engine and nodes. -/
structure Agrees (H : Holder m) (L : Listener) : Prop where
  cfg : L.cfg = { H.cfg with forcedRate := L.cfg.forcedRate }
  src : .src ∈ H.own.held ↔ L.src.isSome = true
  sink : .sink ∈ H.own.held ↔ L.sink.isSome = true
  slave : H.slaveOpen = L.slaveOpen

/-- Both opens come up, with the same engine and nodes, or neither does. -/
def OpenAgrees (r : Holder m × Bool) (q : Listener × Bool) : Prop :=
  r.2 = q.2 ∧ (r.2 = true → Agrees r.1 q.1)

theorem OpenAgrees.down (H : Holder m) (L : Listener) : OpenAgrees (H, false) (L, false) :=
  ⟨rfl, fun h => absurd h Bool.false_ne_true⟩

/-- A resource that is no node. -/
theorem Agrees.taken {H : Holder m} {L : Listener} (hsame : Agrees H L) (given : List (Resource m))
    {t : Resource m} (hsrc : t ≠ .src) (hsink : t ≠ .sink) :
    Agrees (H.books (Account.take given t)) L where
  cfg := hsame.cfg
  src := by simpa [Ne.symm hsrc] using hsame.src
  sink := by simpa [Ne.symm hsink] using hsame.sink
  slave := hsame.slave

theorem Agrees.src_taken {H : Holder m} {L : Listener} (hsame : Agrees H L)
    (given : List (Resource m)) (node : SourceNode) :
    Agrees (H.books (Account.take given .src)) { L with src := some node } where
  cfg := hsame.cfg
  src := by simp
  sink := by simpa using hsame.sink
  slave := hsame.slave

theorem Agrees.sink_taken {H : Holder m} {L : Listener} (hsame : Agrees H L)
    (given : List (Resource m)) (node : SinkNode) :
    Agrees (H.books (Account.take given .sink)) { L with sink := some node } where
  cfg := hsame.cfg
  src := by simpa using hsame.src
  sink := by simp
  slave := hsame.slave

theorem listenerFinish_agrees {H : Holder m} {L : Listener} (hsame : Agrees H L)
    (hdoor : (H.cfg.doorOnly || H.cfg.tap) = false)
    (htx : H.cfg.role = .master → (.sink ∈ H.own.held ↔ H.cfg.txIf.isSome = true))
    (a : HolderAnswers m) (resolvedRate sampleRate : Nat) :
    OpenAgrees (listenerFinish H a)
      (ReacPw.listenerFinish L (a.openAnswers H.cfg resolvedRate sampleRate)) := by
  have hrole : L.cfg.role = H.cfg.role := by rw [hsame.cfg]
  have hpin : L.cfg.pinModel = H.cfg.pinModel := by rw [hsame.cfg]
  have hnodes : (a.openAnswers H.cfg resolvedRate sampleRate).nodesEnsured = a.nodesUp H.cfg := rfl
  have htouched : ∀ K : Holder m,
      (K = if .sink ∈ H.own.held then H.books (Account.touch [.sink, .rx]) else H) →
      K.own.held = H.own.held ∧ K.cfg = H.cfg ∧ Agrees K L := by
    rintro K rfl
    split
    · exact ⟨rfl, rfl, hsame.cfg, hsame.src, hsame.sink, hsame.slave⟩
    · exact ⟨rfl, rfl, hsame⟩
  unfold listenerFinish ReacPw.listenerFinish
  generalize hK : (if .sink ∈ H.own.held then H.books (Account.touch [.sink, .rx]) else H) = K
  obtain ⟨hheld, hcfg, hsameK⟩ := htouched K hK.symm
  dsimp only
  rw [hheld, hcfg, hrole, hpin, hnodes]
  by_cases hmaster : H.cfg.role = .master ∧ .sink ∈ H.own.held
  · have hL : H.cfg.role = .master ∧ L.sink.isSome = true := ⟨hmaster.1, hsame.sink.mp hmaster.2⟩
    rw [if_pos hmaster, if_pos hL]
    have hup : a.nodesUp H.cfg = (a.pinSource && a.pinSink) := by
      unfold HolderAnswers.nodesUp
      rw [hdoor, if_neg (by simp), if_pos ⟨hmaster.1, (htx hmaster.1).mp hmaster.2⟩]
    have htimed : ∀ M : Holder m,
        (M = if a.timerMade then K.books (Account.take [.sink] .adTimer) else K) →
        M.cfg = H.cfg ∧ Agrees M L := by
      rintro M rfl
      split
      · exact ⟨hcfg, hsameK.taken _ (by simp) (by simp)⟩
      · exact ⟨hcfg, hsameK⟩
    generalize hM : (if a.timerMade then K.books (Account.take [.sink] .adTimer) else K) = M
    obtain ⟨hcfgM, hsameM⟩ := htimed M hM.symm
    rw [hcfgM, hup]
    cases H.cfg.pinModel with
    | false => exact ⟨rfl, fun _ => ⟨hsameM.cfg, hsameM.src, hsameM.sink, hsameM.slave⟩⟩
    | true =>
        cases a.pinSource with
        | false => exact .down _ _
        | true =>
            cases a.pinSink with
            | false => exact .down _ _
            | true =>
                have htaken := hsameM.src_taken ([.ring, .rx] ++
                  if .sink ∈ H.own.held then [Resource.sink] else []) .blank
                exact ⟨rfl, fun _ => ⟨htaken.cfg, htaken.src, htaken.sink, htaken.slave⟩⟩
  · have hL : ¬ (H.cfg.role = .master ∧ L.sink.isSome = true) := fun h =>
      hmaster ⟨h.1, hsame.sink.mpr h.2⟩
    have hup : a.nodesUp H.cfg = a.capture := by
      unfold HolderAnswers.nodesUp
      rw [hdoor, if_neg (by simp), if_neg]
      exact fun h => hmaster ⟨h.1, (htx h.1).mpr h.2⟩
    rw [if_neg hmaster, if_neg hL, hup]
    cases a.capture with
    | false => exact .down _ _
    | true =>
        have htaken := hsameK.src_taken ([.ring, .rx] ++
          if .sink ∈ H.own.held then [Resource.sink] else [])
          { SourceNode.blank with roleSwap := H.cfg.role = .slave }
        exact ⟨rfl, fun _ => ⟨htaken.cfg, htaken.src, htaken.sink, htaken.slave⟩⟩

theorem listenerMaster_agrees {H : Holder m} {L : Listener} (hsame : Agrees H L)
    (hdoor : (H.cfg.doorOnly || H.cfg.tap) = false) (hrole : H.cfg.role = .master)
    (htx : H.cfg.txIf.isSome = true) (a : HolderAnswers m) (resolvedRate sampleRate : Nat) :
    OpenAgrees (listenerMaster H a)
      (match listenerMasterEngine a.fits (a.openAnswers H.cfg resolvedRate sampleRate) with
        | none => (L, false)
        | some sink => ReacPw.listenerFinish { L with sink := some sink }
            (a.openAnswers H.cfg resolvedRate sampleRate)) := by
  have hmade : (a.openAnswers H.cfg resolvedRate sampleRate).sinkMade = a.sinkMade := if_pos hrole
  have hclaim : (a.openAnswers H.cfg resolvedRate sampleRate).claim = a.claim := rfl
  unfold listenerMaster listenerMasterEngine
  rw [hmade, hclaim]
  dsimp only
  cases a.fits with
  | false => exact .down _ _
  | true =>
      by_cases hheld : a.claim = .held
      · simp only [Bool.not_true, Bool.false_eq_true, if_false, if_pos hheld]
        exact .down _ _
      · simp only [Bool.not_true, Bool.false_eq_true, if_false, if_neg hheld]
        have hring : Agrees ({ H.books (Account.take [] .txRing) with txRingInit := true } : Holder m)
            L := by
          have htaken := hsame.taken [] (t := .txRing) (by simp) (by simp)
          exact ⟨htaken.cfg, htaken.src, htaken.sink, htaken.slave⟩
        have hcfgR : ({ H.books (Account.take [] .txRing) with txRingInit := true } : Holder m).cfg =
            H.cfg := rfl
        generalize ({ H.books (Account.take [] .txRing) with txRingInit := true } : Holder m) = R
          at hring hcfgR ⊢
        have hlocked : ∀ M : Holder m,
            (M = if a.claim = .claimed then R.books (Account.take [] .seglock) else R) →
            M.cfg = H.cfg ∧ Agrees M L := by
          rintro M rfl
          split
          · exact ⟨hcfgR, hring.taken _ (by simp) (by simp)⟩
          · exact ⟨hcfgR, hring⟩
        generalize hM : (if a.claim = .claimed then R.books (Account.take [] .seglock) else R) = M
        obtain ⟨hcfg, hsameM⟩ := hlocked M hM.symm
        cases a.sinkMade with
        | false => exact .down _ _
        | true =>
            have hsink := hsameM.sink_taken [.txRing] (.fresh false)
            have hbooks : (M.books (Account.take [.txRing] .sink)).cfg = H.cfg := hcfg
            have hfinish := listenerFinish_agrees hsink (by rw [hbooks]; exact hdoor)
              (fun _ => ⟨fun _ => by rw [hbooks]; exact htx, fun _ => by simp⟩) a resolvedRate sampleRate
            rw [hbooks] at hfinish
            exact hfinish

theorem listenerSlave_agrees {H : Holder m} {L : Listener} (hsame : Agrees H L)
    (hnosink : L.sink = none) (hnoslave : L.slaveOpen = false) (hrole : H.cfg.role = .slave)
    (a : HolderAnswers m) (resolvedRate sampleRate : Nat) :
    (listenerSlave H a).cfg = H.cfg ∧
    Agrees (listenerSlave H a) { L with
      sink := (listenerSlaveEngine L (a.openAnswers H.cfg resolvedRate sampleRate)).1
      slaveOpen := (listenerSlaveEngine L (a.openAnswers H.cfg resolvedRate sampleRate)).2 } := by
  have hmade : (a.openAnswers H.cfg resolvedRate sampleRate).sinkMade = a.sendMade :=
    if_neg (by rw [hrole]; simp)
  have hopens : (a.openAnswers H.cfg resolvedRate sampleRate).slaveOpens = a.slaveOpens := rfl
  have hstarts : (a.openAnswers H.cfg resolvedRate sampleRate).slaveStarts = a.slaveStarts := rfl
  have hjoin : L.cfg.joinBoxMaster = H.cfg.joinBoxMaster := by rw [hsame.cfg]
  have hbox : L.cfg.boxModel = H.cfg.boxModel := by rw [hsame.cfg]
  have hidle : ∀ K : Holder m, K.cfg = H.cfg → (.src ∈ K.own.held ↔ .src ∈ H.own.held) →
      .sink ∉ K.own.held → K.slaveOpen = false → K.cfg = H.cfg ∧
      Agrees K { L with sink := none, slaveOpen := false } := by
    intro K hcfg hsrc hsink hslave
    exact ⟨hcfg, by rw [hcfg]; exact hsame.cfg, hsrc.trans hsame.src, by simp [hsink], hslave⟩
  have hsink : .sink ∉ H.own.held := by
    rw [hsame.sink, hnosink]
    simp
  have hslave : H.slaveOpen = false := hsame.slave.trans hnoslave
  unfold listenerSlave listenerSlaveEngine
  rw [hmade, hopens, hstarts, hjoin, hbox]
  dsimp only
  cases a.slaveOpens with
  | false =>
      exact hidle _ rfl (by simp) (by simpa using hsink) hslave
  | true =>
      cases a.slaveStarts with
      | false =>
          refine hidle _ rfl ?_ ?_ rfl
          · simp [Account.stop]
          · simpa [Account.stop] using hsink
      | true =>
          have hrun : Agrees
              (({ ({ H.books (Account.take [] .txRing) with txRingInit := true } : Holder m).books
                (Account.take [.txRing] .slave) with slaveOpen := true } : Holder m).books
                (Account.take [.slave] .slaveThread)) { L with sink := none, slaveOpen := true } :=
            ⟨hsame.cfg, by simpa using hsame.src, by simpa using hsink, rfl⟩
          simp only [Bool.not_true, Bool.false_eq_true, if_false, and_self, if_true]
          by_cases hsend : (H.cfg.joinBoxMaster || H.cfg.boxModel) && a.sendMade
          · rw [if_pos (by simpa using hsend), if_pos (by simpa using hsend)]
            exact ⟨rfl, hrun.sink_taken _ _⟩
          · rw [if_neg (by simpa using hsend), if_neg (by simpa using hsend)]
            exact ⟨rfl, hrun⟩

/-- The streams' nodes come up when each of them does. -/
theorem tapServe_all (a : HolderAnswers m) :
    ∀ (is : List (Fin m)) (H : Holder m), (tapServe a is H).2 = is.all a.tapNode := by
  intro is
  induction is with
  | nil => intro H; rfl
  | cons i rest ih =>
      intro H
      unfold tapServe
      rw [List.all_cons]
      cases a.tapNode i with
      | true => exact ih _
      | false => rfl

theorem listenerOpenTap_found (H : Holder m) (a : HolderAnswers m) (cfg : ListenerCfg)
    (resolvedRate sampleRate : Nat) :
    (listenerOpenTap H a).2 = (a.openAnswers cfg resolvedRate sampleRate).tap := by
  unfold listenerOpenTap
  show _ = if !a.tapOpens then TapOpen.failed else _
  split
  · rfl
  · dsimp only
    split
    · rfl
    · rw [tapServe_all]
      split <;> rfl

/-- The open from the receiver on. -/
theorem listenerReceive_agrees {H : Holder m} {L : Listener} (hsame : Agrees H L)
    (hbare : L.src = none ∧ L.sink = none ∧ L.slaveOpen = false)
    (htap : H.cfg.tap = true → H.cfg.doorOnly = true) (a : HolderAnswers m)
    (resolvedRate sampleRate : Nat) :
    OpenAgrees (listenerReceive H a)
      (if !a.rxOpens then (L, false)
      else if L.cfg.doorOnly then
        ReacPw.listenerDoor L (a.openAnswers H.cfg resolvedRate sampleRate)
      else listenerEngine L a.fits (a.openAnswers H.cfg resolvedRate sampleRate)) := by
  obtain ⟨hnosrc, hnosink, hnoslave⟩ := hbare
  have hdoorOnly : L.cfg.doorOnly = H.cfg.doorOnly := by rw [hsame.cfg]
  have hvacant : L.cfg.doorVacant = H.cfg.doorVacant := by rw [hsame.cfg]
  have htxIf : L.cfg.txIf = H.cfg.txIf := by rw [hsame.cfg]
  have hrole : L.cfg.role = H.cfg.role := by rw [hsame.cfg]
  unfold listenerReceive
  cases a.rxOpens with
  | false => exact .down _ _
  | true =>
      simp only [Bool.not_true, Bool.false_eq_true, if_false]
      have hR : Agrees (H.books fun A => (A.take [] .ring).take [.ring] .rx) L :=
        ⟨hsame.cfg, by simpa using hsame.src, by simpa using hsame.sink, hsame.slave⟩
      have hcfg : (H.books fun A => (A.take [] .ring).take [.ring] .rx).cfg = H.cfg := rfl
      generalize (H.books fun A => (A.take [] .ring).take [.ring] .rx) = R at hR hcfg ⊢
      rw [hdoorOnly, hcfg]
      split
      · rename_i hdoor
        have hup : (a.openAnswers H.cfg resolvedRate sampleRate).nodesEnsured = a.doorNode := by
          show a.nodesUp H.cfg = _
          unfold HolderAnswers.nodesUp
          rw [if_pos (by simp [hdoor])]
        unfold listenerDoor ReacPw.listenerDoor
        rw [hup, hvacant, hcfg]
        split
        · exact ⟨rfl, fun _ => hR⟩
        · cases a.doorNode with
          | false => exact .down _ _
          | true => exact ⟨rfl, fun _ => hR.src_taken _ _⟩
      · rename_i hdoor
        have hwire : (R.cfg.doorOnly || R.cfg.tap) = false := by
          rw [hcfg]
          cases htap' : H.cfg.tap with
          | true => exact absurd (htap htap') hdoor
          | false => simpa using hdoor
        have hnosinkR : .sink ∉ R.own.held := by
          rw [hR.sink, hnosink]
          simp
        unfold listenerEngine
        rw [htxIf, hrole, ← hcfg]
        split
        · rename_i hnone
          exact listenerFinish_agrees hR hwire
            (fun _ => ⟨fun h => absurd h hnosinkR, fun h => by simp [hnone] at h⟩) a _ _
        · rename_i hsome
          have htx : R.cfg.txIf.isSome = true := Option.isSome_iff_ne_none.mpr hsome
          cases hroleR : R.cfg.role with
          | master => exact listenerMaster_agrees hR hwire hroleR htx a _ _
          | slave =>
              obtain ⟨hslaveCfg, hslave⟩ := listenerSlave_agrees hR hnosink hnoslave hroleR a
                resolvedRate sampleRate
              have hfinish := listenerFinish_agrees hslave (by rw [hslaveCfg]; exact hwire)
                (fun hmaster => by rw [hslaveCfg, hroleR] at hmaster; exact absurd hmaster (by simp)) a
                resolvedRate sampleRate
              rw [hslaveCfg] at hfinish
              exact hfinish

/-- A vacated tap reads the same answers. -/
theorem openAnswers_vacated (a : HolderAnswers m) (cfg : ListenerCfg)
    (resolvedRate sampleRate : Nat) :
    a.openAnswers (cfgVacated cfg) resolvedRate sampleRate =
      a.openAnswers cfg resolvedRate sampleRate := by
  unfold HolderAnswers.openAnswers HolderAnswers.nodesUp cfgVacated
  by_cases htap : cfg.tap = true <;> simp [htap]

/-- **Resource by resource or by its doors alone, an open comes up as the same listener.** -/
theorem listenerOpen_agrees {H : Holder m} {L : Listener} (hclear : H.Clear)
    (hcfg : L.cfg = { H.cfg with forcedRate := L.cfg.forcedRate }) (a : HolderAnswers m)
    (resolvedRate sampleRate : Nat) :
    OpenAgrees (listenerOpen H a)
      (ReacPw.listenerOpen L a.fits (a.openAnswers H.cfg resolvedRate sampleRate)) := by
  have htapL : L.cfg.tap = H.cfg.tap := by rw [hcfg]
  have hprepared : (listenerPrepared L (a.openAnswers H.cfg resolvedRate sampleRate)).cfg =
      { cfgVacated H.cfg with forcedRate :=
        (listenerPrepared L (a.openAnswers H.cfg resolvedRate sampleRate)).cfg.forcedRate } := by
    obtain ⟨hz, hrated⟩ := cfgRated_eq (cfgVacated L.cfg) resolvedRate
    show cfgRated (cfgVacated L.cfg) resolvedRate = { cfgVacated H.cfg with
      forcedRate := (cfgRated (cfgVacated L.cfg) resolvedRate).forcedRate }
    rw [hrated]
    unfold cfgVacated
    rw [htapL]
    split <;> rw [hcfg]
  have hfound := fun K : Holder m => listenerOpenTap_found K a H.cfg resolvedRate sampleRate
  unfold listenerOpen ReacPw.listenerOpen
  rw [hclear.cleared]
  generalize hR : ({ H with slaveOpen := false, txRingInit := false } : Holder m) = R
  obtain ⟨hclearR, hcfgR, hslaveR⟩ : R.Clear ∧ R.cfg = H.cfg ∧ R.slaveOpen = false := by
    rw [← hR]
    exact ⟨⟨hclear.own, hclear.tapOpen⟩, rfl, rfl⟩
  dsimp only
  rw [← hfound R, htapL, hcfgR]
  have hwire : ∀ K : Holder m, K.cfg = cfgVacated H.cfg → K.own = .straight ∅ →
      K.slaveOpen = false → OpenAgrees (listenerReceive K a)
        (let P := listenerPrepared L (a.openAnswers H.cfg resolvedRate sampleRate)
        if !a.rxOpens then (P, false)
        else
          let P := { P with sampleRate := sampleRate }
          if P.cfg.doorOnly then
            ReacPw.listenerDoor P (a.openAnswers H.cfg resolvedRate sampleRate)
          else listenerEngine P a.fits (a.openAnswers H.cfg resolvedRate sampleRate)) := by
    intro K hcfgK hownK hslaveK
    generalize hP : listenerPrepared L (a.openAnswers H.cfg resolvedRate sampleRate) = P at hprepared
    have hbareP : P.src = none ∧ P.sink = none ∧ P.slaveOpen = false := by
      rw [← hP]
      exact ⟨rfl, rfl, rfl⟩
    have hsame : Agrees K { P with sampleRate := sampleRate } :=
      { cfg := by rw [hcfgK]; exact hprepared
        src := by simp [hownK, hbareP.1]
        sink := by simp [hownK, hbareP.2.1]
        slave := hslaveK.trans hbareP.2.2.symm }
    have hreceive := listenerReceive_agrees hsame hbareP
      (by
        rw [hcfgK]
        unfold cfgVacated
        split
        · exact fun _ => rfl
        · rename_i hnot
          exact fun htap => absurd htap hnot) a resolvedRate sampleRate
    rw [hcfgK, openAnswers_vacated] at hreceive
    dsimp only
    cases hopens : a.rxOpens with
    | false =>
        rw [hopens] at hreceive
        exact ⟨hreceive.1, fun h => absurd (hreceive.1.symm.trans h) Bool.false_ne_true⟩
    | true =>
        rw [hopens] at hreceive
        exact hreceive
  by_cases htap : H.cfg.tap = true
  · rw [if_pos htap]
    rcases listenerOpenTap_cases hclearR a with ⟨hup, s, -, hs, hres⟩ | ⟨hnot, hres⟩
    · have hother : .src ∉ s ∧ .sink ∉ s :=
        ⟨fun h => by simpa using hs _ h, fun h => by simpa using hs _ h⟩
      rw [hup, hres, if_neg (by simp), if_pos (by simp [htap])]
      refine ⟨rfl, fun _ => ⟨?_, ?_, ?_, hslaveR⟩⟩
      · show L.cfg = { R.cfg with forcedRate := L.cfg.forcedRate }
        rw [hcfgR]
        exact hcfg
      · simp [hother.1]
      · simp [hother.2]
    · rw [hres]
      cases hkind : (listenerOpenTap R a).2 with
      | up => exact absurd hkind hnot
      | failed =>
          rw [if_pos (by simp [htap])]
          exact .down _ _
      | vacant =>
          rw [if_neg (by simp), if_neg (by simp)]
          exact hwire { R with cfg := cfgVacated R.cfg } (by rw [hcfgR]) hclearR.own hslaveR
  · rw [if_neg htap, if_neg (by simp [htap]), if_neg (by simp [htap])]
    refine hwire R ?_ hclearR.own hslaveR
    rw [hcfgR]
    unfold cfgVacated
    rw [if_neg htap]

end Holder

end ReacPw
