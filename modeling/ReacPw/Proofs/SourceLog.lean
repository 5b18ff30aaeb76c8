/-
The journal names every change of the driving clock once, in order and whole.

The mailbox says that what is printed is what was composed, but for one line that may wait.
What is left is the callback's own rule: `graph_clock` moves with the lines alone, so no
line names the clock of the line before it.
-/
import ReacPw.SourceLog

namespace ReacPw

open Mailbox

theorem graphClock_take (name : Text) : (graphClock name).take 63 = graphClock name := by
  show (name.take 63).take 63 = name.take 63
  rw [List.take_take, Nat.min_self]

theorem logOffer_some {n : SourceLog} {last last' line : Text} {sample : Option Text}
    (h : logOffer n last sample = some (last', line)) :
    ∃ name, sample = some name ∧ last.take 63 ≠ graphClock name ∧ last' = graphClock name ∧
      line = logLine n name := by
  cases sample with
  | none => cases h
  | some name =>
      simp only [logOffer] at h
      split at h
      · rename_i hnew
        obtain ⟨rfl, rfl⟩ := Prod.mk.inj (Option.some.inj h)
        exact ⟨name, rfl, hnew.2, rfl, rfl⟩
      · cases h

/-- What the callback has had composed: the lines of some of the names it was given, each
another clock than the one before. -/
theorem offered_names {n : SourceLog} {last last' : Text} {samples : List (Option Text)}
    {lines : List Text} (h : Offered (logOffer n) last samples last' lines) :
    ∃ names : List Text, names.Sublist (samples.filterMap id) ∧ lines = names.map (logLine n) ∧
      (last.take 63 :: names.map graphClock).IsChain (· ≠ ·) ∧
      last'.take 63 = (names.map graphClock).getLastD (last.take 63) := by
  induction h with
  | nil last => exact ⟨[], List.nil_sublist _, rfl, .singleton _, rfl⟩
  | @skip last last' sample rest lines hrest ih =>
      obtain ⟨names, hsub, hlines, hchain, hlast⟩ := ih
      refine ⟨names, hsub.trans ?_, hlines, hchain, hlast⟩
      exact (List.sublist_cons_self sample rest).filterMap id
  | take hoffer hrest ih =>
      obtain ⟨name, rfl, hnew, rfl, rfl⟩ := logOffer_some hoffer
      obtain ⟨names, hsub, hlines, hchain, hlast⟩ := ih
      rw [graphClock_take] at hchain hlast
      refine ⟨name :: names, ?_, by rw [hlines, List.map_cons], ?_, ?_⟩
      · exact hsub.cons_cons name
      · rw [List.map_cons]
        exact .cons_cons hnew hchain
      · rw [List.map_cons, List.getLastD_cons]
        exact hlast

/-- A cycle that finds no line waiting has its own clock named, if it is not already. -/
theorem sendStep_names {n : SourceLog} (hdebug : n.debug = true) {b : Box Char Text}
    (hflag : b.flag = false) (hidle : b.writing = none) (name : Text) :
    (sendStep (logOffer n) b (some name)).1.sender.take 63 = graphClock name := by
  unfold sendStep
  rw [hidle]
  dsimp only
  by_cases hnew : b.sender.take 63 = name.take 63
  · have hnone : logOffer n b.sender (some name) = none := by simp [logOffer, hnew]
    rw [hnone]
    exact hnew
  · have hsome : logOffer n b.sender (some name) = some (graphClock name, logLine n name) :=
      if_pos ⟨hdebug, hnew⟩
    rw [hsome]
    dsimp only
    rw [if_neg (by simp [hflag])]
    exact graphClock_take name

/-- **The journal's clock lines.**  However the callback and the main loop interleave, access
by access: the lines printed are those of clocks that drove the node, in the order in which
they did, each whole and each another clock than the line before names; one line more may be
on its way; the callback never writes the line while the main loop reads it; and a clock that
was passed over because a line was waiting is named by the first cycle that finds none. -/
theorem graph_clock_lines (n : SourceLog) (line : Nat → Option Char)
    (run : List (Access (Option Text))) :
    ∃ names waiting : List Text,
      names.Sublist ((considered run).filterMap id) ∧
      received ((sourceLogMachine n).outputs (sourceLogNew line) run) ++ waiting =
        names.map (logLine n) ∧
      waiting.length ≤ 1 ∧
      ([] :: names.map graphClock).IsChain (· ≠ ·) ∧
      ((sourceLogMachine n).after (sourceLogNew line) run).sender.take 63 =
        (names.map graphClock).getLastD [] ∧
      (((sourceLogMachine n).after (sourceLogNew line) run).writing.isSome = true →
        ((sourceLogMachine n).after (sourceLogNew line) run).receiver = .away) ∧
      (n.debug = true → ∀ name,
        ((sourceLogMachine n).after (sourceLogNew line) run).flag = false →
        ((sourceLogMachine n).after (sourceLogNew line) run).writing = none →
        ((sourceLogMachine n).after (sourceLogNew line)
          (run ++ [.send (some name)])).sender.take 63 = graphClock name) := by
  obtain ⟨waiting, hholds, hlog⟩ := run_holds (logOffer n) run (holds_empty line [])
  obtain ⟨names, hsub, hlines, hchain, hlast⟩ :=
    offered_names (run_offered (logOffer n) run (sourceLogNew line))
  refine ⟨names, waiting, hsub, ?_, hholds.length_le, hchain, hlast, hholds.no_race, ?_⟩
  · rw [← hlines]
    exact hlog.symm
  · intro hdebug name hflag hidle
    rw [StepMachine.after_concat]
    exact sendStep_names hdebug hflag hidle name

end ReacPw
