/-
A mailbox of one message between two threads.

The sender writes a message into the box cell by cell, an end mark behind it, and raises
a flag; the receiver reads cell by cell up to the mark, and lowers the flag.  Neither
waits: a message that finds the flag up is not sent, and the sender's own state stays as
it was, so that it may be offered again.

The two are sequential and everything else about their order is free: a run is any
interleaving of single accesses.  Nothing is read that is being written (`Holds.no_race`),
what is received is what was begun, whole and in order, but for the one message that may be
on its way (`run_holds`), and what was begun are offers of the sender's (`run_offered`).
-/
import ReacPw.Lib.Run
import Mathlib.Data.List.Infix
import Mathlib.Logic.Function.Basic

namespace Mailbox

/-- Where the receiver is: elsewhere, reading, or done and yet to lower the flag. -/
inductive Receiver (α : Type*) where
  | away
  | reading (got : List α)
  | done

/-- The box and its two threads; `π` is the sender's own state. -/
structure Box (α π : Type*) where
  flag : Bool
  /-- `none` is the end mark. -/
  cell : Nat → Option α
  sender : π
  /-- The message being written, and how many of its cells are. -/
  writing : Option (List α × Nat)
  receiver : Receiver α

/-- One access by one of the two; the sender is given something new to consider. -/
inductive Access (ι : Type*) where
  | send (i : ι)
  | receive

/-- What an access came to. -/
inductive Did (α : Type*) where
  | nothing
  | began (message : List α)
  | received (message : List α)

/-- The cells of a message. -/
def cells {α : Type*} (message : List α) : List (Option α) := message.map some ++ [none]

section
variable {α π ι : Type*} (offer : π → ι → Option (π × List α))

/-- The sender: a message under way goes on; else it may begin one, if the flag is down. -/
def sendStep (b : Box α π) (i : ι) : Box α π × Did α :=
  match b.writing with
  | some (message, k) =>
    match (cells message)[k]? with
    | some c => ({ b with cell := Function.update b.cell k c, writing := some (message, k + 1) },
        .nothing)
    | none => ({ b with flag := true, writing := none }, .nothing)
  | none =>
    match offer b.sender i with
    | none => (b, .nothing)
    | some (sender, message) =>
      if b.flag then (b, .nothing)
      else ({ b with sender := sender, writing := some (message, 0) }, .began message)

/-- The receiver: it looks at the flag, reads up to the mark, and lowers the flag. -/
def receiveStep (b : Box α π) : Box α π × Did α :=
  match b.receiver with
  | .away => if b.flag then ({ b with receiver := .reading [] }, .nothing) else (b, .nothing)
  | .reading got =>
    match b.cell got.length with
    | some a => ({ b with receiver := .reading (got ++ [a]) }, .nothing)
    | none => ({ b with receiver := .done }, .received got)
  | .done => ({ b with flag := false, receiver := .away }, .nothing)

/-- The box, access by access. -/
def machine : StepMachine (Box α π) (Access ι) (Did α) where
  step b a := match a with
    | .send i => sendStep offer b i
    | .receive => receiveStep b

/-- An empty box. -/
def empty (cell : Nat → Option α) (sender : π) : Box α π :=
  { flag := false, cell := cell, sender := sender, writing := none, receiver := .away }

/-! ### What is in the box -/

/-- The first `k` cells of the message are in the box. -/
def Written (cell : Nat → Option α) (message : List α) (k : Nat) : Prop :=
  ∀ j < k, (cells message)[j]? = some (cell j)

/-- **What the box is in the middle of**, with what is on its way. -/
inductive Holds (b : Box α π) : List (List α) → Prop
  | idle (hflag : b.flag = false) (hwriting : b.writing = none) (haway : b.receiver = .away) :
      Holds b []
  | writing (message : List α) (k : Nat) (hflag : b.flag = false)
      (hwriting : b.writing = some (message, k)) (haway : b.receiver = .away)
      (hk : k ≤ (cells message).length) (hcell : Written b.cell message k) : Holds b [message]
  | sent (message : List α) (hflag : b.flag = true) (hwriting : b.writing = none)
      (hcell : Written b.cell message (cells message).length)
      (hreads : b.receiver = .away ∨ ∃ got, b.receiver = .reading got ∧ got <+: message) :
      Holds b [message]
  | done (hflag : b.flag = true) (hwriting : b.writing = none) (hdone : b.receiver = .done) :
      Holds b []

theorem holds_empty (cell : Nat → Option α) (sender : π) : Holds (empty cell sender) [] :=
  .idle rfl rfl rfl

/-- The messages begun, and those received, oldest first. -/
def begun (log : List (Did α)) : List (List α) :=
  log.filterMap fun d => match d with
    | .began message => some message
    | _ => none

def received (log : List (Did α)) : List (List α) :=
  log.filterMap fun d => match d with
    | .received message => some message
    | _ => none

/-- The messages of a log are those of its first entry, and those of the others. -/
theorem begun_cons (d : Did α) (log : List (Did α)) :
    begun (d :: log) = begun [d] ++ begun log := by
  rw [begun, begun, begun, ← List.filterMap_append, List.singleton_append]

theorem received_cons (d : Did α) (log : List (Did α)) :
    received (d :: log) = received [d] ++ received log := by
  rw [received, received, received, ← List.filterMap_append, List.singleton_append]

theorem written_step {cell : Nat → Option α} {message : List α} {k : Nat} {c : Option α}
    (hcell : Written cell message k) (hc : (cells message)[k]? = some c) :
    Written (Function.update cell k c) message (k + 1) := by
  intro j hj
  by_cases hjk : j = k
  · subst hjk
    rw [Function.update_self, hc]
  · rw [Function.update_of_ne hjk]
    exact hcell j (by omega)

/-- What a reader finds behind the part of the message it has read. -/
theorem written_next {cell : Nat → Option α} {message got : List α}
    (hcell : Written cell message (cells message).length) (hgot : got <+: message) :
    (∃ a, cell got.length = some a ∧ got ++ [a] <+: message) ∨
      cell got.length = none ∧ got = message := by
  obtain ⟨rest, rfl⟩ := hgot
  have hin : got.length < (cells (got ++ rest)).length := by
    simp [cells]
  have hnext := hcell got.length hin
  cases rest with
  | nil =>
      refine Or.inr ⟨?_, (List.append_nil got).symm⟩
      have hmark : (cells (got ++ []))[got.length]? = some none := by simp [cells]
      exact (Option.some.inj (hmark.symm.trans hnext)).symm
  | cons a rest =>
      refine Or.inl ⟨a, ?_, ⟨rest, by simp⟩⟩
      have hcellat : (cells (got ++ a :: rest))[got.length]? = some (some a) := by simp [cells]
      exact (Option.some.inj (hcellat.symm.trans hnext)).symm

/-- **What the sender does to the box**: a message begun is on its way. -/
theorem sendStep_holds {b : Box α π} {way : List (List α)} (h : Holds b way) (i : ι) :
    ∃ way', Holds (sendStep offer b i).1 way' ∧
      way ++ begun [(sendStep offer b i).2] = received [(sendStep offer b i).2] ++ way' := by
  have hrest : ∀ {way}, Holds b way → b.writing = none → (b.flag = true ∨ way = []) →
      ∃ way', Holds (sendStep offer b i).1 way' ∧
        way ++ begun [(sendStep offer b i).2] = received [(sendStep offer b i).2] ++ way' := by
    intro way h hwriting hfree
    unfold sendStep
    rw [hwriting]
    dsimp only
    cases hoffer : offer b.sender i with
    | none => exact ⟨way, h, by simp [begun, received]⟩
    | some offered =>
        dsimp only
        by_cases hflag : b.flag = true
        · rw [if_pos hflag]
          exact ⟨way, h, by simp [begun, received]⟩
        · rw [if_neg hflag]
          have hempty : way = [] := hfree.resolve_left hflag
          subst hempty
          have haway : b.receiver = .away := by
            cases h with
            | idle _ _ haway => exact haway
            | done hup _ _ => exact absurd hup hflag
          refine ⟨[offered.2], ?_, by simp [begun, received]⟩
          exact .writing offered.2 0 (by simpa using hflag) rfl haway (Nat.zero_le _)
            fun j hj => absurd hj (Nat.not_lt_zero j)
  cases h with
  | idle hflag hwriting haway => exact hrest (.idle hflag hwriting haway) hwriting (Or.inr rfl)
  | sent message hflag hwriting hcell hreads =>
      exact hrest (.sent message hflag hwriting hcell hreads) hwriting (Or.inl hflag)
  | done hflag hwriting hdone => exact hrest (.done hflag hwriting hdone) hwriting (Or.inr rfl)
  | writing message k hflag hwriting haway hk hcell =>
      unfold sendStep
      rw [hwriting]
      dsimp only
      cases hc : (cells message)[k]? with
      | some c =>
          have hlt : k < (cells message).length := (List.getElem?_eq_some_iff.mp hc).1
          refine ⟨[message], ?_, by simp [begun, received]⟩
          exact .writing message (k + 1) hflag rfl haway hlt (written_step hcell hc)
      | none =>
          have hend : k = (cells message).length :=
            Nat.le_antisymm hk (List.getElem?_eq_none_iff.mp hc)
          refine ⟨[message], ?_, by simp [begun, received]⟩
          exact .sent message rfl rfl (hend ▸ hcell) (Or.inl haway)

/-- **What the receiver does to the box**: what it reads up to the mark is the message. -/
theorem receiveStep_holds {b : Box α π} {way : List (List α)} (h : Holds b way) :
    ∃ way', Holds (receiveStep b).1 way' ∧
      way ++ begun [(receiveStep b).2] = received [(receiveStep b).2] ++ way' := by
  unfold receiveStep
  cases h with
  | idle hflag hwriting haway =>
      rw [haway]
      dsimp only
      rw [if_neg (by simp [hflag])]
      exact ⟨[], .idle hflag hwriting haway, rfl⟩
  | writing message k hflag hwriting haway hk hcell =>
      rw [haway]
      dsimp only
      rw [if_neg (by simp [hflag])]
      exact ⟨[message], .writing message k hflag hwriting haway hk hcell, rfl⟩
  | done hflag hwriting hdone =>
      rw [hdone]
      exact ⟨[], .idle rfl hwriting rfl, rfl⟩
  | sent message hflag hwriting hcell hreads =>
      obtain haway | ⟨got, hreading, hgot⟩ := hreads
      · rw [haway]
        dsimp only
        rw [if_pos hflag]
        refine ⟨[message], ?_, rfl⟩
        exact .sent message hflag hwriting hcell (Or.inr ⟨[], rfl, List.nil_prefix⟩)
      · rw [hreading]
        dsimp only
        obtain ⟨a, ha, hlonger⟩ | ⟨hmark, rfl⟩ := written_next hcell hgot
        · rw [ha]
          refine ⟨[message], ?_, rfl⟩
          exact .sent message hflag hwriting hcell (Or.inr ⟨got ++ [a], rfl, hlonger⟩)
        · rw [hmark]
          exact ⟨[], .done hflag hwriting rfl, rfl⟩

theorem machine_holds {b : Box α π} {way : List (List α)} (h : Holds b way) (a : Access ι) :
    ∃ way', Holds ((machine offer).step b a).1 way' ∧
      way ++ begun [((machine offer).step b a).2] =
        received [((machine offer).step b a).2] ++ way' := by
  cases a with
  | send i => exact sendStep_holds offer h i
  | receive => exact receiveStep_holds h

/-- **Whole runs**: what was on its way and what is begun is received, or on its way. -/
theorem run_holds (run : List (Access ι)) :
    ∀ {b : Box α π} {way : List (List α)}, Holds b way →
      ∃ way', Holds ((machine offer).after b run) way' ∧
        way ++ begun ((machine offer).outputs b run) =
          received ((machine offer).outputs b run) ++ way' := by
  induction run with
  | nil => intro b way h; exact ⟨way, h, by simp [StepMachine.outputs, begun, received]⟩
  | cons a rest ih =>
      intro b way h
      obtain ⟨mid, hmid, hstep⟩ := machine_holds offer h a
      obtain ⟨way', hway', hrest⟩ := ih hmid
      refine ⟨way', hway', ?_⟩
      show way ++ begun (((machine offer).step b a).2 :: _) = received (_ :: _) ++ way'
      rw [begun_cons, received_cons, ← List.append_assoc, hstep, List.append_assoc, hrest,
        List.append_assoc]

/-- What the sender was given to consider, oldest first. -/
def considered : List (Access ι) → List ι
  | [] => []
  | .send i :: rest => i :: considered rest
  | .receive :: rest => considered rest

/-- The sender's offers, some of them taken: its own state moves with those alone. -/
inductive Offered : π → List ι → π → List (List α) → Prop
  | nil (p : π) : Offered p [] p []
  | skip {p p' : π} {i : ι} {rest : List ι} {messages : List (List α)}
      (hrest : Offered p rest p' messages) : Offered p (i :: rest) p' messages
  | take {p q p' : π} {i : ι} {message : List α} {rest : List ι} {messages : List (List α)}
      (hoffer : offer p i = some (q, message)) (hrest : Offered q rest p' messages) :
      Offered p (i :: rest) p' (message :: messages)

theorem receiveStep_begins (b : Box α π) :
    (receiveStep b).1.sender = b.sender ∧ begun [(receiveStep b).2] = [] := by
  unfold receiveStep
  split
  · split <;> exact ⟨rfl, rfl⟩
  · split <;> exact ⟨rfl, rfl⟩
  · exact ⟨rfl, rfl⟩

/-- The sender begins nothing, and stays as it is, or begins what it offers. -/
theorem sendStep_begins (b : Box α π) (i : ι) :
    ((sendStep offer b i).1.sender = b.sender ∧ begun [(sendStep offer b i).2] = []) ∨
    ∃ message, offer b.sender i = some ((sendStep offer b i).1.sender, message) ∧
      begun [(sendStep offer b i).2] = [message] := by
  unfold sendStep
  cases hwriting : b.writing with
  | some under =>
      dsimp only
      split <;> exact Or.inl ⟨rfl, rfl⟩
  | none =>
      dsimp only
      cases hoffer : offer b.sender i with
      | none => exact Or.inl ⟨rfl, rfl⟩
      | some offered =>
          dsimp only
          split
          · exact Or.inl ⟨rfl, rfl⟩
          · exact Or.inr ⟨offered.2, rfl, rfl⟩

/-- **Whole runs**: what is begun are the sender's offers, some of them. -/
theorem run_offered (run : List (Access ι)) :
    ∀ b : Box α π, Offered offer b.sender (considered run)
      ((machine offer).after b run).sender (begun ((machine offer).outputs b run)) := by
  induction run with
  | nil => intro b; exact .nil b.sender
  | cons a rest ih =>
      intro b
      have hrest := ih ((machine offer).step b a).1
      show Offered offer b.sender _ _ (begun (((machine offer).step b a).2 :: _))
      rw [begun_cons]
      cases a with
      | receive =>
          obtain ⟨hsender, hnone⟩ := receiveStep_begins b
          have hstep : ((machine offer).step b .receive).1.sender = b.sender := hsender
          rw [hstep] at hrest
          show Offered offer b.sender _ _ (begun [(receiveStep b).2] ++ _)
          rw [hnone]
          exact hrest
      | send i =>
          show Offered offer b.sender _ _ (begun [(sendStep offer b i).2] ++ _)
          obtain ⟨hsender, hnone⟩ | ⟨message, hoffer, hbegun⟩ := sendStep_begins offer b i
          · have hstep : ((machine offer).step b (.send i)).1.sender = b.sender := hsender
            rw [hstep] at hrest
            rw [hnone]
            exact .skip hrest
          · rw [hbegun]
            exact .take hoffer hrest

/-- At most one message is on its way. -/
theorem Holds.length_le {b : Box α π} {way : List (List α)} (h : Holds b way) :
    way.length ≤ 1 := by
  cases h with
  | idle => exact Nat.zero_le 1
  | done => exact Nat.zero_le 1
  | writing => exact Nat.le_refl 1
  | sent => exact Nat.le_refl 1

/-- While a message is written the receiver is elsewhere. -/
theorem Holds.no_race {b : Box α π} {way : List (List α)} (h : Holds b way)
    (hwriting : b.writing.isSome = true) : b.receiver = .away := by
  cases h with
  | writing _ _ _ _ haway => exact haway
  | idle _ hnone => simp [hnone] at hwriting
  | sent _ _ hnone => simp [hnone] at hwriting
  | done _ hnone => simp [hnone] at hwriting

end

end Mailbox
