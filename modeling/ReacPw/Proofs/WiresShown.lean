/-
The roster shows the wires there are.

A tick of the roster reads the tables of the conf, the listeners and the sniffers, and none of
them knows what has link; that is the interface table's, which the roster does not read.  Three
results make up for it.  A linked wire has its sniffer (`Proofs/Listening.lean`), a segment its
listener (`Proofs/Stranded.lean`), and nothing is served or listened to on a wire that is gone
(`Proofs/ServedWires.lean`).  So once the events are carried out, every interface with link has
its row, and one without has none but for being switched off.

An add that is refused for its name loses no name: the row that was there first is of the same
interface.
-/
import ReacPw.Proofs.RosterTables
import ReacPw.Proofs.ServedWires

namespace ReacPw

/-! ### The names of the rows -/

theorem rosterCollectOne_refused {r : Roster} {f : RosterFound}
    (hrefused : (reacRosterAdd r f.name f.state f.model f.role f.source f.in_ f.out).2 = false) :
    (rosterCollectOne r f).want = r.want := by
  unfold rosterCollectOne
  unfold reacRosterAdd at hrefused ⊢
  split at hrefused
  · rename_i hnameless
    rw [if_pos hnameless]
  · rename_i hnamed
    rw [if_neg hnamed]
    split at hrefused
    · rename_i hfull
      rw [if_pos hfull]
    · rename_i hroom
      rw [if_neg hroom]
      split at hrefused
      · rfl
      · exact absurd hrefused (by simp)

theorem wantInv_nodup {want : List RosterSeg} (h : WantInv want) : (want.map (·.name)).Nodup := by
  refine List.Nodup.of_map IfName.text ?_
  rw [List.map_map]
  exact List.pairwise_map.mpr (h.sorted.imp fun hlt => ne_of_lt hlt)

/-- **One add leaves a row of its name**, its own or the one it was refused for. -/
theorem rosterCollectOne_names {r : Roster} (h : WantInv r.want) {f : RosterFound}
    (hnamed : f.name.text ≠ "")
    (hroom : f.name ∉ r.want.map (·.name) → r.want.length < reacRosterMax) (n : IfName) :
    n ∈ (rosterCollectOne r f).want.map (·.name) ↔ n = f.name ∨ n ∈ r.want.map (·.name) := by
  obtain ⟨hadded, hrow⟩ := rosterCollectOne_row h hnamed
  cases hadd : (reacRosterAdd r f.name f.state f.model f.role f.source f.in_ f.out).2 with
  | true =>
      have hperm := (hrow hadd).map (·.name)
      rw [hperm.mem_iff, List.map_cons, List.mem_cons, f.row_name]
  | false =>
      have hthere : f.name ∈ r.want.map (·.name) := by
        by_contra hfresh
        rw [hadded.mpr ⟨hroom hfresh, hfresh⟩] at hadd
        exact absurd hadd (by decide)
      rw [rosterCollectOne_refused hadd]
      refine ⟨Or.inr, fun hn => ?_⟩
      rcases hn with rfl | hn
      · exact hthere
      · exact hn

/-- **Every name found has its row**, as long as the names fit the roster. -/
theorem foldl_rosterCollectOne_names {all : List IfName} (hfew : all.length ≤ reacRosterMax) :
    ∀ (found : List RosterFound) (r : Roster), WantInv r.want →
      (∀ f ∈ found, f.name.text ≠ "" ∧ f.name ∈ all) → (∀ n ∈ r.want.map (·.name), n ∈ all) →
      ∀ n, n ∈ (found.foldl rosterCollectOne r).want.map (·.name) ↔
        n ∈ found.map (·.name) ∨ n ∈ r.want.map (·.name) := by
  intro found
  induction found with
  | nil => simp
  | cons f rest ih =>
      intro r h hfound hwant n
      obtain ⟨hnamed, hmem⟩ := hfound f List.mem_cons_self
      have hroom : f.name ∉ r.want.map (·.name) → r.want.length < reacRosterMax := by
        intro hfresh
        have hnodup := List.nodup_cons.mpr ⟨hfresh, wantInv_nodup h⟩
        have hsub : f.name :: r.want.map (·.name) ⊆ all := List.cons_subset.mpr ⟨hmem, hwant⟩
        have hle := (hnodup.subperm hsub).length_le
        rw [List.length_cons, List.length_map] at hle
        omega
      have hnames := rosterCollectOne_names h hnamed hroom
      rw [List.foldl_cons, ih _ (rosterCollectOne_want h f).1
        (fun f' hf' => hfound f' (List.mem_cons_of_mem f hf')) fun m hm => ?_, hnames,
        List.map_cons, List.mem_cons]
      · tauto
      · rcases (hnames m).mp hm with rfl | hm
        · exact hmem
        · exact hwant m hm

/-- **The rows are the interfaces'**, whether or not the tables are apart. -/
theorem rosterCollectTables_names (r : Roster) {t : RosterTables}
    (hbound : t.interfaces.dedup.length ≤ reacRosterMax) (n : IfName) :
    n ∈ (rosterCollectTables r t).1.want.map (·.name) ↔ n ∈ t.interfaces := by
  have hnames := foldl_rosterCollectOne_names hbound t.found (reacRosterBegin r)
    ⟨List.Pairwise.nil, Nat.zero_le _⟩
    (fun f hf => ⟨t.found_named f hf,
      List.mem_dedup.mpr ((t.mem_found_names _).mp (List.mem_map_of_mem hf))⟩)
    (fun n hn => absurd hn List.not_mem_nil) n
  rw [← t.mem_found_names]
  refine hnames.trans ⟨fun hn => ?_, Or.inl⟩
  exact hn.resolve_right List.not_mem_nil

/-! ### What a tick is shown -/

section
variable {σ : Type*} {n : Nat} {S : IfScan σ}

/-- The roster's tables are the daemon's. -/
structure ShowsTables (t : RosterTables) (L : Listening σ n) : Prop where
  hearing : t.hearing = true
  served : ∀ name : IfName,
    rosterHearingListener t.listeners name = true ↔ ServedOn L.table name.text
  /-- A listener the hearing opened has its interface. -/
  sourced : ∀ R ∈ t.listeners, R.opened = true → ∃ name, R.source = some name ∧ name.text ≠ ""
  sniffed : ∀ name : IfName, name ∈ t.sniffers.map (·.name) ∧ name.text ≠ "" ↔
    L.sniffed name.text = true
  ignored : ∀ name : IfName, name ∈ t.conf.ignored.map (·.1) ↔ L.table.ignored name.text = true

/-- The interfaces of a tick, in the daemon's own words. -/
theorem ShowsTables.interfaces {t : RosterTables} {L : Listening σ n} (h : ShowsTables t L)
    {name : IfName} (hname : name.text ≠ "") :
    name ∈ t.interfaces ↔ L.table.ignored name.text = true ∨ ServedOn L.table name.text ∨
      L.sniffed name.text = true := by
  have hserved : name ∈ t.served.map rosterSegName ↔ ServedOn L.table name.text := by
    rw [← h.served]
    refine ⟨fun hmem => ?_, served_of_hearingListener hname⟩
    obtain ⟨R, hR, rfl⟩ := List.mem_map.mp hmem
    obtain ⟨hR, hopened⟩ := List.mem_filter.mp hR
    have hopened := (Bool.and_eq_true _ _ ▸ hopened : _ ∧ _).1
    obtain ⟨source, hsource, hnamed⟩ := h.sourced R hR hopened
    have hseg : rosterSegName R = source := by
      unfold rosterSegName
      rw [hsource]
      exact if_pos hnamed
    exact List.any_eq_true.mpr ⟨R, hR, by rw [hopened, hseg, hsource]; simp⟩
  unfold RosterTables.interfaces
  rw [if_pos h.hearing, List.mem_append, List.mem_append, h.ignored, hserved, List.mem_filter,
    or_assoc, ← h.sniffed, decide_eq_true_iff]

/-! ### One act of the daemon -/

/-- Everything that is kept of the wires. -/
structure WiresKept (S : IfScan σ) (L : Listening σ n) : Prop where
  ears : EarsInStep S L
  answered : SegmentsAnswered S L.table
  engines : OnSegments S L.table
  serves : ServesSegments S L.table.scan

/-- The act leaves no wire deaf, strands no segment, and takes none back that is to be served. -/
structure KeepsWires (S : IfScan σ) (speed : String → Nat) (L : Listening σ n)
    (x : ListenInput n) : Prop where
  hears : HearsOn S L x
  strands : StrandsNothing S speed L.table (L.seenBy S x.act)
  serves : KeepsServes S speed L.table (L.seenBy S x.act)

variable (speed : String → Nat) (hlawful : S.Lawful) (hvoiced : S.Voiced)
include hlawful hvoiced

/-- **One act keeps the wires.** -/
theorem listenStep_kept (L : Listening σ n) (x : ListenInput n) (hinv : WiresKept S L)
    (hkeeps : KeepsWires S speed L x) : WiresKept S (listenStep S speed L x) := by
  have hears := listenStep_inStep speed hlawful hvoiced L x hinv.ears hkeeps.hears
  by_cases hhunt : (!L.hasHunt x.act) = true
  · have hsame : listenStep S speed L x = L := if_pos hhunt
    rw [hsame]
    exact hinv
  · have htable : (listenStep S speed L x).table = hearStep S speed L.table (L.seenBy S x.act) := by
      unfold listenStep
      rw [if_neg hhunt]
    obtain ⟨hengines, hserves⟩ := hearStep_segments speed hlawful hvoiced L.table _
      ⟨hinv.engines, hinv.serves⟩ hkeeps.serves
    rw [← htable] at hengines hserves
    exact ⟨hears, htable ▸ hearStep_answered hlawful speed L.table _ hinv.answered hkeeps.strands,
      hengines, hserves⟩

/-! ### A whole run -/

omit hlawful hvoiced in
/-- What was no segment becomes one by being heard, and not by a step of its own. -/
theorem IfTold.stays_out {st st' : IfState} {verbs : List IfVerb} (htold : IfTold st verbs st')
    (hout : st.isSegment = false) : st'.isSegment = false := by
  induction htold with
  | andThen _ _ ihfirst ihrest => exact ihrest (ihfirst hout)
  | still st => exact hout
  | unlinked hto => rcases hto with rfl | rfl <;> rfl
  | dropped _ hto => rcases hto with rfl | rfl <;> rfl
  | held => exact absurd hout (by decide)
  | kept => exact absurd hout (by decide)
  | _ => rfl

omit hlawful hvoiced in
/-- The daemon with its first dump read and nothing open. -/
theorem wiresKept_start {L : Listening σ n} (hen : L.table.enabled = true)
    (hclosed : ∀ i, (L.table.listeners i).opened = false) (hdumped : S.Dumped L.table.scan)
    (hquiet : ∀ name, L.sniffed name = false ∧ L.tapped name = false) : WiresKept S L where
  ears := earsInStep_start hdumped hquiet
  answered := by
    refine ⟨hen, fun name hseg => ?_⟩
    have hout := (hdumped name).stays_out rfl
    rw [hseg] at hout
    exact absurd hout (by decide)
  engines := onSegments_start hen hclosed
  serves := dumped_servesSegments hdumped

/-- **The roster shows the wires there are.**  Once the events are carried out, every interface
with link has its row; and one whose link is gone has a row only if the conf switches it off. -/
theorem wires_shown (L : Listening σ n) (hen : L.table.enabled = true)
    (hclosed : ∀ i, (L.table.listeners i).opened = false) (hdumped : S.Dumped L.table.scan)
    (hquiet : ∀ name, L.sniffed name = false ∧ L.tapped name = false)
    (run : List (ListenInput n))
    (hkeeps : (listenMachine S speed).Guarded (KeepsWires S speed) L run) (r : Roster)
    (t : RosterTables) (hshows : ShowsTables t ((listenMachine S speed).after L run))
    (hfew : t.interfaces.dedup.length ≤ reacRosterMax)
    (hidle : S.events ((listenMachine S speed).after L run).table.scan = []) (name : IfName)
    (hname : name.text ≠ "") :
    let L' := (listenMachine S speed).after L run
    let rows := (rosterCollectTables r t).1.want.map (·.name)
    (S.state L'.table.scan name.text = .linked ∨ S.state L'.table.scan name.text = .segment →
      name ∈ rows) ∧
    (S.state L'.table.scan name.text = .down ∨ S.state L'.table.scan name.text = .absent →
      (name ∈ rows ↔ L'.table.ignored name.text = true)) := by
  have hinv := (listenMachine S speed).invariant_guarded (listenStep_kept speed hlawful hvoiced)
    run L (wiresKept_start hen hclosed hdumped hquiet) hkeeps
  dsimp only
  rw [rosterCollectTables_names r hfew, hshows.interfaces hname]
  generalize (listenMachine S speed).after L run = L' at hinv hidle ⊢
  have hword : Orders.lastWord earWord (S.events L'.table.scan) name.text = none := by
    rw [hidle]
    rfl
  have hlast : lastQueued S L'.table.scan name.text = none := by
    unfold lastQueued
    rw [hidle]
    rfl
  have hears := (hinv.ears name.text).obeyed.resolve_right (by rw [hword]; exact nofun)
  refine ⟨fun hlinked => ?_, fun hout => ?_⟩
  · rcases hlinked with hlinked | hseg
    · -- a linked wire is listened to
      rw [hlinked] at hears
      rcases hears with hsniffed | hignored
      · exact Or.inr (Or.inr hsniffed)
      · exact Or.inl hignored
    · -- and a segment is served
      rcases hinv.answered.answered name.text hseg with hserve | ⟨-, hon | hignored⟩
      · rw [hlast] at hserve
        exact absurd hserve nofun
      · exact Or.inr (Or.inl hon)
      · exact Or.inl hignored
  · have hgone : (S.state L'.table.scan name.text).order = .close ∧
        (S.state L'.table.scan name.text).isSegment = false := by
      rcases hout with hdown | habsent
      · rw [hdown]; exact ⟨rfl, rfl⟩
      · rw [habsent]; exact ⟨rfl, rfl⟩
    rw [hgone.1] at hears
    refine ⟨fun hrow => ?_, Or.inl⟩
    rcases hrow with hignored | hon | hsniffed
    · exact hignored
    · rcases hinv.engines.held name.text hon with hseg | hdrop
      · rw [hgone.2] at hseg
        exact absurd hseg (by decide)
      · rw [hlast] at hdrop
        exact absurd hdrop nofun
    · have hdeaf : L'.sniffed name.text = false := hears.1
      rw [hdeaf] at hsniffed
      exact absurd hsniffed (by decide)

end

/-! ### A wire that is served -/

theorem enp1s0_fits : "enp1s0".utf8ByteSize < ifnamsiz := by decide

def enp1s0 : IfName := ⟨"enp1s0", enp1s0_fits⟩

/-- The interface is served, and the sniffer of its wire was kept. -/
def servedTables : RosterTables :=
  { servedUnder switchedOn with listeners := [masterOn enp1s0], sniffers := [quietWire enp1s0] }

theorem wires_shown_served :
    enp1s0 ∈ (rosterCollectTables reacRosterInit servedTables).1.want.map (·.name) := by
  have hkeeps : (listenMachine scanTable (fun _ => 0)).Guarded
      (KeepsWires scanTable (fun _ => 0)) firstDump (unplugRun.take 3) :=
    ⟨⟨fun _ _ => Or.inl rfl, trivial, keepsServes_of_quiet (Or.inr (by decide))⟩,
      ⟨⟨fun _ h => absurd h (Option.not_mem_none _), trivial⟩, trivial,
        keepsServes_of_quiet (Or.inl (by decide))⟩,
      ⟨fun h => absurd h (by decide), trivial, keepsServes_of_quiet (Or.inr (by decide))⟩, trivial⟩
  have hshows : ShowsTables servedTables
      ((listenMachine scanTable (fun _ => 0)).after firstDump (unplugRun.take 3)) := by
    have hslot : serves (((listenMachine scanTable (fun _ => 0)).after firstDump
        (unplugRun.take 3)).table.listeners (Fin.last 0)) "enp1s0" = true := by decide
    have hears : ((listenMachine scanTable (fun _ => 0)).after firstDump
        (unplugRun.take 3)).sniffed =
          Function.update (Function.update (fun _ => false) "enp1s0" true) "enp1s0" true := rfl
    refine ⟨rfl, fun name => ⟨fun hheard => ?_, fun hon => ?_⟩, fun R hR _ => ?_,
      fun name => ?_, fun name => ⟨fun hmem => absurd hmem List.not_mem_nil, fun h => ?_⟩⟩
    · obtain rfl : enp1s0 = name := by
        simpa [rosterHearingListener, servedTables, masterOn] using hheard
      exact ⟨Fin.last 0, hslot⟩
    · obtain ⟨i, hi⟩ := hon
      obtain rfl : i = Fin.last 0 := Subsingleton.elim i _
      obtain rfl : name = enp1s0 := ifName_ext (serves_name hslot hi)
      decide
    · obtain rfl := List.mem_singleton.mp hR
      exact ⟨enp1s0, rfl, by decide⟩
    · rw [hears, Function.update_idem]
      by_cases hk : name = enp1s0
      · subst hk
        decide
      · have hother : name.text ≠ "enp1s0" := fun h => hk (ifName_ext h)
        rw [Function.update_of_ne hother]
        exact ⟨fun h => absurd (List.mem_singleton.mp h.1) hk, fun h => absurd h (by decide)⟩
    · exact absurd h Bool.false_ne_true
  exact (wires_shown (fun _ => 0) scanTable_lawful scanTable_voiced firstDump rfl (fun _ => rfl)
    firstDump_dumped (fun _ => ⟨rfl, rfl⟩) (unplugRun.take 3) hkeeps reacRosterInit servedTables
    hshows (by decide) (by decide) enp1s0 (by decide)).1 (Or.inr (by decide))

end ReacPw
