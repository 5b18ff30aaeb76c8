/-
The graph hears the wire in order.

The frames that got into the ring are a tape, and the capture node's callback a reader of it
that keeps within four quanta.  Every plane of a cycle is the same stretch of the tape, its
channel of each frame: planes that are missing are read past with the others, and cycles
that fill nothing pass over nothing.  A stretch begins where the last one ended, unless more
than four quanta waited; and there is silence in a plane only when the tape has no more.
-/
import ReacPw.CaptureRing

namespace ReacPw

open Tape

variable {ρ α : Type*} {R : RingApi ρ α} {silence : α} {channels : Nat}

theorem CaptureBuffer.nframes_le (b : CaptureBuffer α) :
    b.nframes ≤ b.first.maxsize / 4 ∧ b.nframes ≤ reacMaxQuantum :=
  ⟨Nat.le_trans (Nat.min_le_left _ _) (Nat.min_le_right _ _), Nat.min_le_right _ _⟩

/-- A quantum shows what a visit read. -/
structure Shows (silence : α) (channels : Nat) (tape : List (Nat → α)) (v : Visit)
    (q : Nat × List (Option (List α))) : Prop where
  asked : q.1 = v.asked
  bounded : v.asked ≤ reacMaxQuantum
  read : v.next ≤ v.written
  written : v.written ≤ tape.length
  planes : ∀ c < channels, ∀ xs, q.2[c]? = some (some xs) →
    xs = ((tape.drop v.start).take v.got).map (· c) ++ List.replicate (v.asked - v.got) silence

/-- What a visit showed is on the tape however much has been written since. -/
theorem Shows.grown {tape : List (Nat → α)} {v : Visit} {q : Nat × List (Option (List α))}
    (hshows : Shows silence channels tape v q) (more : List (Nat → α)) :
    Shows silence channels (tape ++ more) v q where
  asked := hshows.asked
  bounded := hshows.bounded
  read := hshows.read
  written := Nat.le_trans hshows.written (by simp)
  planes c hc xs hxs := by
    rw [Visit.read_grown tape more (Nat.le_trans hshows.read hshows.written)]
    exact hshows.planes c hc xs hxs

/-- The visit of a cycle that fills a buffer. -/
def visitOf (tape : List (Nat → α)) (place : Nat) (b : CaptureBuffer α) : Visit :=
  let start := max place (tape.length - 4 * b.nframes)
  { written := tape.length, asked := b.nframes, start := start,
    got := min b.nframes (tape.length - start) }

/-- A plane of a read, of a ring that holds the rest of the tape. -/
theorem ringPlane_drop (tape : List (Nat → α)) (start n c : Nat) :
    ringPlane silence (tape.drop start) n c =
      ((tape.drop start).take (min n (tape.length - start))).map (· c) ++
        List.replicate (n - min n (tape.length - start)) silence := by
  unfold ringPlane
  rw [List.length_drop, ← List.length_drop, ← List.take_take, List.take_length]
  congr 2
  rw [List.length_drop]
  omega

variable (channels) in
/-- **One cycle**: the ring is left as it was, or the buffer shows a visit to the tape. -/
theorem captureProcess_cases (hR : R.Lawful silence) {r : ρ} {tape : List (Nat → α)} {place : Nat}
    (hplace : place ≤ tape.length) (hwaits : R.waiting r = tape.drop place) (p : CaptureIn α) :
    ((captureProcess R channels r p).1 = r ∧
      quanta [(captureProcess R channels r p).2] = [] ∧
      accepted [(captureProcess R channels r p).2] = []) ∨
    ∃ b q, quanta [(captureProcess R channels r p).2] = [q] ∧
      (captureProcess R channels r p).2 = .filled q.1 q.2 ∧
      R.waiting (captureProcess R channels r p).1 = tape.drop (visitOf tape place b).next ∧
      Shows silence channels tape (visitOf tape place b) q := by
  unfold captureProcess
  split
  · exact Or.inl ⟨rfl, rfl, rfl⟩
  · split
    · exact Or.inl ⟨rfl, rfl, rfl⟩
    · rename_i b _
      split
      · exact Or.inl ⟨rfl, rfl, rfl⟩
      · have htrimmed : R.waiting (R.trim r (b.nframes * 4)) =
            tape.drop (visitOf tape place b).start := by
          rw [hR.trim, hwaits, Visit.drop_behind, Nat.mul_comm]
          rfl
        refine Or.inr ⟨b, _, rfl, rfl, ?_, rfl, b.nframes_le.2, ?_, Nat.le_refl _, ?_⟩
        · show R.waiting (R.readPlanar _ _ _).1 = _
          rw [hR.read, htrimmed, Visit.drop_read]
          rfl
        · have hstart : (visitOf tape place b).start ≤ tape.length :=
            Nat.max_le.mpr ⟨hplace, Nat.sub_le _ _⟩
          exact Nat.add_le_of_le_sub' hstart (Nat.min_le_right _ _)
        · intro c hc xs hxs
          dsimp only at hxs
          rw [List.getElem?_mapIdx] at hxs
          obtain ⟨p, -, hp⟩ := Option.map_eq_some_iff.mp hxs
          obtain ⟨old, -, rfl⟩ := Option.map_eq_some_iff.mp hp
          rw [if_pos hc, hR.planes _ _ _ c hc, htrimmed]
          exact ringPlane_drop tape _ _ c

theorem quanta_cons (o : CaptureOut α) (outs : List (CaptureOut α)) :
    quanta (o :: outs) = quanta [o] ++ quanta outs := by
  cases o <;> rfl

theorem accepted_cons (o : CaptureOut α) (outs : List (CaptureOut α)) :
    accepted (o :: outs) = accepted [o] ++ accepted outs := by
  cases o <;> simp [accepted]

variable (channels) in
/-- What a run from here on shows, of a ring that holds the rest of the tape. -/
theorem capture_from (hR : R.Lawful silence) :
    ∀ (run : List (CaptureEvent α)) (r : ρ) (tape : List (Nat → α)) (place : Nat),
      place ≤ tape.length → R.waiting r = tape.drop place →
      ∃ visits, List.Forall₂
          (Shows silence channels
            (tape ++ accepted ((captureMachine R channels).outputs r run)))
          visits (quanta ((captureMachine R channels).outputs r run)) ∧
        Visit.Follow 4 place tape.length visits := by
  intro run
  induction run with
  | nil => intro r tape place _ _; exact ⟨[], List.Forall₂.nil, trivial⟩
  | cons e run ih =>
      intro r tape place hplace hwaits
      cases e with
      | wire frames =>
          -- the tape grows by what found room, and the ring with it
          obtain ⟨visits, hshows, hfollow⟩ := ih (R.write r frames)
            (tape ++ frames.take (R.room r - (R.waiting r).length)) place
            (Nat.le_trans hplace (by simp))
            (by rw [hR.write, List.drop_append_of_le_length hplace, hwaits])
          refine ⟨visits, ?_, hfollow.later (by simp)⟩
          rw [List.append_assoc] at hshows
          exact hshows
      | process p =>
          show ∃ visits, List.Forall₂ (Shows silence channels (tape ++ accepted
              ((captureProcess R channels r p).2 ::
                (captureMachine R channels).outputs (captureProcess R channels r p).1 run)))
            visits (quanta ((captureProcess R channels r p).2 ::
                (captureMachine R channels).outputs (captureProcess R channels r p).1 run)) ∧ _
          rw [quanta_cons, accepted_cons]
          rcases captureProcess_cases channels hR hplace hwaits p with
            ⟨hr, hquanta, haccepted⟩ | ⟨b, q, hquanta, hout, hrest, hshown⟩
          · rw [hr, hquanta, haccepted]
            exact ih r tape place hplace hwaits
          · -- the visit reads what there is of the tape, and the rest reads on behind it
            have haccepted : accepted [(captureProcess R channels r p).2] = [] := by
              rw [hout]
              rfl
            obtain ⟨visits, hshows, hfollow⟩ := ih (captureProcess R channels r p).1 tape
              (visitOf tape place b).next (Nat.le_trans hshown.read hshown.written) hrest
            rw [hquanta, haccepted, List.nil_append]
            exact ⟨visitOf tape place b :: visits,
              List.Forall₂.cons (hshown.grown _) hshows,
              Nat.le_refl _, rfl, rfl, hfollow⟩

/-- **The graph hears the wire in order.**  The quanta a node fills are visits to the tape of
all that got into its ring: every channel's plane shows the same stretch of it, and then
silence for what had not been written; each visit takes up where the last left off, or four
quanta before the tape's end when it lags further; and no frame is heard twice. -/
theorem capture_in_order (hR : R.Lawful silence) (r : ρ) (run : List (CaptureEvent α)) :
    ∃ visits, List.Forall₂
        (Shows silence channels
          (R.waiting r ++ accepted ((captureMachine R channels).outputs r run)))
        visits (quanta ((captureMachine R channels).outputs r run)) ∧
      Visit.Follow 4 0 (R.waiting r).length visits ∧
      visits.Pairwise fun v w => v.next ≤ w.start := by
  obtain ⟨visits, hshows, hfollow⟩ :=
    capture_from channels hR run r (R.waiting r) 0 (Nat.zero_le _) rfl
  exact ⟨visits, hshows, hfollow, hfollow.apart visits⟩

theorem listRing_lawful (silence : α) (room : Nat) : (listRing silence room).Lawful silence where
  write _ _ := rfl
  read _ _ _ := rfl
  planes _ _ _ _ _ := rfl
  trim _ _ := rfl

/-- Two cycles of a node of two channels, the second of which is not shown, on three frames. -/
def starvedRun : List (CaptureEvent Int) :=
  let frame (k : Int) : Nat → Int := fun c => 10 * k + c
  let cycle : CaptureIn Int :=
    { rateReconnecting := false
      buffer := some
        { requested := 2, first := { maxsize := 32, data := some [] },
          others := [{ maxsize := 32, data := none }] } }
  [.wire [frame 1, frame 2, frame 3], .process cycle, .process cycle]

theorem capture_in_order_starved :
    let outs := (captureMachine (listRing (0 : Int) 8) 2).outputs [] starvedRun
    quanta outs = [(2, [some [10, 20], none]), (2, [some [30, 0], none])] ∧
      ∃ visits, List.Forall₂ (Shows 0 2 ([] ++ accepted outs)) visits (quanta outs) ∧
        Visit.Follow 4 0 0 visits ∧ visits.Pairwise fun v w => v.next ≤ w.start :=
  ⟨by decide, capture_in_order (listRing_lawful 0 8) [] starvedRun⟩

end ReacPw
