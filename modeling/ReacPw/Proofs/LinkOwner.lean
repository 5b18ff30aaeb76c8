/-
Whose an interface is: what the three dumps say, and what the dump's loop can add to them.

The loop's test sees what is left as an unsigned number.  A reply whose last message is not
padded leaves less than nothing, and that is a large number: the loop goes on behind the
reply.  That is all that can go wrong (`dump_in_reply_iff`): where the reply has an end, or
its last message is padded, the messages handed on are its own.

Of dumps the kernel packs, the verdict is what the interface carries (`owner_verdict`): an
address beyond link scope, something stacked on it, a default route out of it, in that
order, and bare when there is none of the three.
-/
import ReacPw.Proofs.LinkAlias
import ReacPw.Proofs.WakeExhausted

namespace ReacPw

open Records

/-! ### The loop over one reply -/

/-- The messages of a reply, and what the count says behind the last. -/
def replyMsgs (d : Datagram nlDumpBuf) : List Nat := nlmsghdr.records d.mem 0 d.n

def replyLeft (d : Datagram nlDumpBuf) : Int := nlmsghdr.leftOver d.mem 0 d.n

/-- The messages the loop hands on. -/
def handedOn (fuel : Nat) (d : Datagram nlDumpBuf) : List Nat :=
  (nlDumpMsgs d.mem (fun l nh => l ++ [nh]) [] (dumpWalk fuel d)).1

/-- A message that ends a dump. -/
def Ends (mem : Nat → UInt8) (nh : Nat) : Prop :=
  nlmsgType mem nh = nlmsgDone ∨ nlmsgType mem nh = nlmsgError

theorem asUnsigned_of_room {n : Int} {d : Datagram nlDumpBuf} (hlo : 0 ≤ n) (hhi : n ≤ d.n) :
    asUnsigned n = n := by
  have hfits := d.fits
  have hcap : nlDumpBuf = 65536 := rfl
  rw [asUnsigned]
  omega

section
variable {σ : Type*} {mem : Nat → UInt8} {fn : σ → Nat → σ}

theorem nlDumpMsgs_ends {nh : Nat} (h : Ends mem nh) (ctx : σ) (rest : List Nat) :
    (nlDumpMsgs mem fn ctx (nh :: rest)).1 = ctx ∧
      (nlDumpMsgs mem fn ctx (nh :: rest)).2.isSome = true := by
  rw [nlDumpMsgs]
  rcases h with hdone | herr
  · rw [if_pos hdone]
    exact ⟨rfl, rfl⟩
  · by_cases hdone : nlmsgType mem nh = nlmsgDone
    · rw [if_pos hdone]
      exact ⟨rfl, rfl⟩
    · rw [if_neg hdone, if_pos herr]
      exact ⟨rfl, rfl⟩

theorem nlDumpMsgs_goes {nh : Nat} (h : ¬ Ends mem nh) (ctx : σ) (rest : List Nat) :
    nlDumpMsgs mem fn ctx (nh :: rest) = nlDumpMsgs mem fn (fn ctx nh) rest := by
  rw [nlDumpMsgs, if_neg fun hd => h (Or.inl hd), if_neg fun he => h (Or.inr he)]

/-- What is handed on of messages that do not end the dump: all of them. -/
theorem nlDumpMsgs_append (fn : σ → Nat → σ) {msgs : List Nat}
    (h : ∀ nh ∈ msgs, ¬ Ends mem nh) (ctx : σ) (rest : List Nat) :
    nlDumpMsgs mem fn ctx (msgs ++ rest) = nlDumpMsgs mem fn (msgs.foldl fn ctx) rest := by
  induction msgs generalizing ctx with
  | nil => rfl
  | cons nh msgs ih =>
      rw [List.cons_append, nlDumpMsgs_goes (h nh (List.mem_cons_self ..)),
        ih fun nh hnh => h nh (List.mem_cons_of_mem _ hnh), List.foldl_cons]

/-- Behind a message that ends the dump nothing is handed on. -/
theorem nlDumpMsgs_ended {msgs : List Nat} (h : ∃ nh ∈ msgs, Ends mem nh) (ctx : σ)
    (rest : List Nat) :
    nlDumpMsgs mem fn ctx (msgs ++ rest) = nlDumpMsgs mem fn ctx msgs := by
  induction msgs generalizing ctx with
  | nil => simp at h
  | cons nh msgs ih =>
      by_cases hends : Ends mem nh
      · rw [List.cons_append, nlDumpMsgs, nlDumpMsgs]
        rcases hends with hd | he
        · rw [if_pos hd, if_pos hd]
        · by_cases hd : nlmsgType mem nh = nlmsgDone
          · rw [if_pos hd, if_pos hd]
          · rw [if_neg hd, if_neg hd, if_pos he, if_pos he]
      · have hrest : ∃ nh ∈ msgs, Ends mem nh := by
          obtain ⟨e, he, hee⟩ := h
          rcases List.mem_cons.mp he with rfl | he
          · exact absurd hee hends
          · exact ⟨e, he, hee⟩
        rw [List.cons_append, nlDumpMsgs_goes hends, nlDumpMsgs_goes hends, ih hrest]

end

/-- With turns enough, the loop visits the reply's messages and goes on from what is left. -/
theorem dumpWalk_eq (d : Datagram nlDumpBuf) (more : Nat) :
    dumpWalk ((replyMsgs d).length + more) d =
      replyMsgs d ++ (nlmsghdr.walk asUnsigned d.mem more ((d.n : Int) - replyLeft d).toNat
        (replyLeft d)).1 := by
  have hwalk := Format.walk_room nlmsghdr d.mem 0 d.n more fun n hlo hhi =>
    asUnsigned_of_room hlo hhi
  rw [Nat.zero_add] at hwalk
  rw [dumpWalk, replyMsgs, hwalk]
  rfl

theorem fuel_split {d : Datagram nlDumpBuf} {fuel : Nat} (h : d.n ≤ fuel) :
    ∃ more, fuel = (replyMsgs d).length + more := by
  have hle : (replyMsgs d).length ≤ (d.n : Int).toNat := Format.records_length_le
  exact ⟨fuel - (replyMsgs d).length, by omega⟩

theorem replyMsgs_congr {d d' : Datagram nlDumpBuf} (h : SameReply d d') :
    replyMsgs d = replyMsgs d' ∧ replyLeft d = replyLeft d' := by
  obtain ⟨hn, hsame⟩ := h
  rw [replyMsgs, replyMsgs, replyLeft, replyLeft, ← hn]
  exact Format.records_congr fun i hlo hhi => hsame i hlo (by omega)

theorem ends_congr {d d' : Datagram nlDumpBuf} (h : SameReply d d') {nh : Nat}
    (hnh : nh ∈ replyMsgs d) : Ends d.mem nh ↔ Ends d'.mem nh := by
  obtain ⟨-, hlen, hhi⟩ := Format.records_inside hnh
  have hhead : nlmsghdr.head = 16 := rfl
  rw [Ends, Ends, nlmsgType_congr (h.2.sub (Nat.zero_le _) (by omega))]

/-- The messages of a reply up to the one that ends the dump. -/
def ownMsgs (d : Datagram nlDumpBuf) : List Nat :=
  (nlDumpMsgs d.mem (fun l nh => l ++ [nh]) [] (replyMsgs d)).1

theorem nlDumpMsgs_types {σ : Type*} {mem mem' : Nat → UInt8} {fn : σ → Nat → σ}
    {msgs : List Nat} (h : ∀ nh ∈ msgs, nlmsgType mem nh = nlmsgType mem' nh) (ctx : σ) :
    (nlDumpMsgs mem fn ctx msgs).1 = (nlDumpMsgs mem' fn ctx msgs).1 := by
  induction msgs generalizing ctx with
  | nil => rfl
  | cons nh msgs ih =>
      have htype := h nh (List.mem_cons_self ..)
      by_cases hends : Ends mem nh
      · have hends' : Ends mem' nh := by rwa [Ends, ← htype]
        rw [(nlDumpMsgs_ends hends ctx msgs).1, (nlDumpMsgs_ends hends' ctx msgs).1]
      · have hends' : ¬ Ends mem' nh := by rwa [Ends, ← htype]
        rw [nlDumpMsgs_goes hends, nlDumpMsgs_goes hends',
          ih fun nh hnh => h nh (List.mem_cons_of_mem _ hnh)]

theorem ownMsgs_congr {d d' : Datagram nlDumpBuf} (h : SameReply d d') :
    ownMsgs d = ownMsgs d' := by
  rw [ownMsgs, ownMsgs, ← (replyMsgs_congr h).1]
  refine nlDumpMsgs_types (fun nh hnh => ?_) []
  obtain ⟨-, hlen, hhi⟩ := Format.records_inside hnh
  have hhead : nlmsghdr.head = 16 := rfl
  exact nlmsgType_congr (h.2.sub (Nat.zero_le _) (by omega))

theorem handedOn_prefix (mem : Nat → UInt8) (start msgs : List Nat) :
    ∃ l, (nlDumpMsgs mem (fun l nh => l ++ [nh]) start msgs).1 = start ++ l := by
  induction msgs generalizing start with
  | nil => exact ⟨[], (List.append_nil _).symm⟩
  | cons m msgs ih =>
      by_cases hends : Ends mem m
      · exact ⟨[], by rw [(nlDumpMsgs_ends hends start msgs).1, List.append_nil]⟩
      · obtain ⟨l, hl⟩ := ih (start ++ [m])
        exact ⟨m :: l, by rw [nlDumpMsgs_goes hends, hl, List.append_assoc,
          List.singleton_append]⟩

theorem foldl_push (start msgs : List Nat) :
    msgs.foldl (fun l nh => l ++ [nh]) start = start ++ msgs := by
  induction msgs generalizing start with
  | nil => exact (List.append_nil _).symm
  | cons nh msgs ih => rw [List.foldl_cons, ih, List.append_assoc, List.singleton_append]

/-- Where the reply has an end, or what it leaves is not less than nothing, only its own messages
are handed on. -/
theorem handedOn_own {d : Datagram nlDumpBuf}
    (h : (∃ nh ∈ replyMsgs d, Ends d.mem nh) ∨ 0 ≤ replyLeft d) {fuel : Nat} (hfuel : d.n ≤ fuel) :
    handedOn fuel d = ownMsgs d := by
  obtain ⟨more, rfl⟩ := fuel_split hfuel
  rw [handedOn, dumpWalk_eq, ownMsgs]
  rcases h with hends | hpadded
  · rw [nlDumpMsgs_ended hends]
  · have hstop : nlmsghdr.ok asUnsigned d.mem ((d.n : Int) - replyLeft d).toNat (replyLeft d) =
        false := by
      have hend := Format.leftOver_end nlmsghdr d.mem 0 d.n
      rw [Nat.zero_add] at hend
      rw [← hend, Format.ok, Format.ok, ← replyLeft,
        asUnsigned_of_room hpadded (Format.leftOver_le _ _), id_eq]
    rw [Format.walk_stop hstop, List.append_nil]

/-- The buffer with the header of an address message where the loop looks next. -/
def behind (d : Datagram nlDumpBuf) : Datagram nlDumpBuf :=
  { d with mem := fun i =>
      if i < ((d.n : Int) - replyLeft d).toNat then d.mem i
      else memOf [16, 0, 0, 0, 20, 0] (i - ((d.n : Int) - replyLeft d).toNat) }

theorem sameReply_behind {d : Datagram nlDumpBuf} (h : replyLeft d < 0) :
    SameReply d (behind d) := by
  refine ⟨rfl, fun i _ hi => ?_⟩
  have hbefore : i < ((d.n : Int) - replyLeft d).toNat := by omega
  exact (if_pos hbefore).symm

theorem slice_behind (d : Datagram nlDumpBuf) :
    slice (behind d).mem ((d.n : Int) - replyLeft d).toNat 6 = [16, 0, 0, 0, 20, 0] := by
  obtain ⟨p, hp⟩ : ∃ p, p = ((d.n : Int) - replyLeft d).toNat := ⟨_, rfl⟩
  have hat : ∀ k, (behind d).mem (p + k) = memOf [16, 0, 0, 0, 20, 0] k := by
    intro k
    have hnot : ¬ p + k < ((d.n : Int) - replyLeft d).toNat := by omega
    rw [behind]
    simp only
    rw [if_neg hnot, ← hp, Nat.add_sub_cancel_left]
  rw [← hp]
  simp only [slice, Nat.add_assoc, Nat.reduceAdd]
  rw [show (behind d).mem p = memOf [16, 0, 0, 0, 20, 0] 0 from hat 0, hat 1, hat 2, hat 3, hat 4,
    hat 5]
  decide

/-- There the loop finds a message: what is left looks like all there can be. -/
theorem walk_behind {d : Datagram nlDumpBuf} (h : replyLeft d < 0) (more : Nat) :
    ∃ rest, (nlmsghdr.walk asUnsigned (behind d).mem (more + 1)
        ((d.n : Int) - replyLeft d).toNat (replyLeft d)).1 =
      ((d.n : Int) - replyLeft d).toNat :: rest := by
  obtain ⟨p, hp⟩ : ∃ p, p = ((d.n : Int) - replyLeft d).toNat := ⟨_, rfl⟩
  have hslice := slice_behind d
  rw [← hp, show (6 : Nat) = 4 + 2 from rfl, slice_add] at hslice
  have hlen : nlmsghdr.lengthAt (behind d).mem p = 16 := by
    have hfour := (List.append_inj (hslice.trans (show [16, 0, 0, 0, 20, 0] =
      [16, 0, 0, 0] ++ [20, 0] from rfl)) rfl).1
    rw [Format.lengthAt, show nlmsghdr.wide = 4 from rfl, leAt_eq, hfour]
    rfl
  have hshort : -(nlmsghdr.align : Int) < replyLeft d :=
    Format.lt_leftOver (by have := d.n.zero_le; have : nlmsghdr.align = 4 := rfl; omega)
  have halign : (nlmsghdr.align : Int) = 4 := rfl
  have hhead : (nlmsghdr.head : Int) = 16 := rfl
  have hok : nlmsghdr.ok asUnsigned (behind d).mem p (replyLeft d) = true := by
    rw [Format.ok_iff, hlen, asUnsigned, hhead]
    refine ⟨by omega, Nat.le_refl _, ?_⟩
    push_cast
    omega
  rw [← hp, Format.walk_step hok]
  exact ⟨_, rfl⟩

theorem not_ends_behind (d : Datagram nlDumpBuf) :
    ¬ Ends (behind d).mem ((d.n : Int) - replyLeft d).toNat := by
  have hslice := slice_behind d
  rw [show (6 : Nat) = 4 + 2 from rfl, slice_add] at hslice
  have htwo := (List.append_inj (hslice.trans (show [16, 0, 0, 0, 20, 0] =
    [16, 0, 0, 0] ++ [20, 0] from rfl)) rfl).2
  have htype : nlmsgType (behind d).mem ((d.n : Int) - replyLeft d).toNat = 20 := by
    rw [nlmsgType, leAt_eq, htwo]
    rfl
  rw [Ends, htype]
  decide

/-- **The dump's loop keeps to the reply exactly when it has an end, or its last message is
padded.** -/
theorem dump_in_reply_iff (d : Datagram nlDumpBuf) :
    (∀ d', SameReply d d' → ∀ fuel, d.n ≤ fuel → handedOn fuel d' = ownMsgs d) ↔
      (∃ nh ∈ replyMsgs d, Ends d.mem nh) ∨ 0 ≤ replyLeft d := by
  constructor
  · intro hall
    by_contra hno
    rw [not_or, Int.not_le] at hno
    obtain ⟨hgoes, hleft⟩ := hno
    have hsame := sameReply_behind hleft
    obtain ⟨hmsgs, hcount⟩ := replyMsgs_congr hsame
    have hgoes' : ∀ nh ∈ replyMsgs (behind d), ¬ Ends (behind d).mem nh := by
      intro nh hnh hends
      rw [← hmsgs] at hnh
      exact hgoes ⟨nh, hnh, (ends_congr hsame hnh).mpr hends⟩
    have hown : ownMsgs d = replyMsgs (behind d) := by
      have hall' := nlDumpMsgs_append (fun l nh => l ++ [nh]) hgoes' [] []
      rw [List.append_nil] at hall'
      rw [ownMsgs_congr hsame, ownMsgs, hall', nlDumpMsgs, foldl_push, List.nil_append]
    have hfuel : d.n ≤ (replyMsgs (behind d)).length + (d.n + 1) := by omega
    have hbad := hall (behind d) hsame _ hfuel
    obtain ⟨rest, hrest⟩ := walk_behind hleft d.n
    have hn : (behind d).n = d.n := rfl
    rw [handedOn, dumpWalk_eq, hn, ← hcount, hrest, nlDumpMsgs_append _ hgoes',
      nlDumpMsgs_goes (not_ends_behind d), hown, foldl_push, List.nil_append] at hbad
    -- One message more than the reply has.
    obtain ⟨l, hl⟩ := handedOn_prefix (behind d).mem
      (replyMsgs (behind d) ++ [((d.n : Int) - replyLeft d).toNat]) rest
    have hlength := congrArg List.length (hl.symm.trans hbad)
    rw [List.length_append, List.length_append, List.length_singleton] at hlength
    omega
  · intro hown d' hd' fuel hfuel
    have hown' : (∃ nh ∈ replyMsgs d', Ends d'.mem nh) ∨ 0 ≤ replyLeft d' := by
      rw [← (replyMsgs_congr hd').1, ← (replyMsgs_congr hd').2]
      refine hown.imp_left fun h => ?_
      obtain ⟨nh, hnh, hends⟩ := h
      exact ⟨nh, hnh, (ends_congr hd' hnh).mp hends⟩
    rw [handedOn_own hown' (hd'.1 ▸ hfuel), ownMsgs_congr hd']

/-! ### Dumps as the kernel packs them -/

/-- A message of a dump that is not its end. -/
def Handed (m : Record nlmsghdr) : Prop := msgType m ≠ nlmsgDone ∧ msgType m ≠ nlmsgError

/-- What was received is a dump of these, each as its message, up to its end; a signal may
come in between. -/
inductive Dumped {α : Type*} (record : α → Record nlmsghdr) :
    List (NlRecv nlDumpBuf) → List α → Prop
  | signal {rest xs} (h : Dumped record rest xs) : Dumped record (.error eintr :: rest) xs
  | more {d rest part xs} (hlies : Lies d.mem 0 (Record.pack (part.map record)))
      (hn : d.n = (Record.pack (part.map record)).length) (hpart : part ≠ [])
      (hgo : ∀ x ∈ part, Handed (record x)) (h : Dumped record rest xs) :
      Dumped record (.data d :: rest) (part ++ xs)
  | done {d rest part m after} (hlies : Lies d.mem 0 (Record.pack (part.map record ++ m :: after)))
      (hn : d.n = (Record.pack (part.map record ++ m :: after)).length)
      (hgo : ∀ x ∈ part, Handed (record x)) (hdone : msgType m = nlmsgDone) :
      Dumped record (.data d :: rest) part

theorem not_ends_of_lies {mem : Nat → UInt8} {nh : Nat} {m : Record nlmsghdr}
    (h : Lies mem nh m.bytes) (hgo : Handed m) : ¬ Ends mem nh := by
  rw [Ends, nlmsgType_of_lies h]
  exact fun hends => hends.elim hgo.1 hgo.2

/-- Packed messages that fill the reply are what the loop visits. -/
theorem dumpWalk_lie {d : Datagram nlDumpBuf} {ms : List (Record nlmsghdr)}
    (hlies : Lies d.mem 0 (Record.pack ms)) (hn : d.n = (Record.pack ms).length) {fuel : Nat}
    (hfuel : d.n ≤ fuel) : Record.Lie d.mem (dumpWalk fuel d) ms := by
  obtain ⟨hwalk, hleft⟩ := Record.records_pack hlies
  rw [← hn] at hwalk hleft
  obtain ⟨more, rfl⟩ := fuel_split hfuel
  have hzero : replyLeft d = 0 := hleft
  have hstop : nlmsghdr.ok asUnsigned d.mem ((d.n : Int) - replyLeft d).toNat (replyLeft d) =
      false := by
    have hhead : ¬ (nlmsghdr.head : Int) ≤ asUnsigned 0 := by decide
    rw [hzero, Format.ok]
    simp [hhead]
  rw [dumpWalk_eq, Format.walk_stop hstop, List.append_nil]
  exact hwalk

theorem pack_pos {ms : List (Record nlmsghdr)} (h : ms ≠ []) : 0 < (Record.pack ms).length := by
  cases ms with
  | nil => exact absurd rfl h
  | cons m ms =>
      have hup := nlmsghdr.le_up m.length
      have hhead : 16 ≤ m.length := Nat.le_add_right _ _
      rw [Record.pack_cons, List.length_append, Record.padded_length]
      omega

theorem forall₂_mem {α β : Type*} {R : α → β → Prop} {xs : List α} {ys : List β}
    (h : List.Forall₂ R xs ys) {x : α} (hx : x ∈ xs) : ∃ y ∈ ys, R x y := by
  induction h with
  | nil => simp at hx
  | @cons a b xs ys hab _ ih =>
      rcases List.mem_cons.mp hx with rfl | hrest
      · exact ⟨b, List.mem_cons_self .., hab⟩
      · obtain ⟨y, hy, hr⟩ := ih hrest
        exact ⟨y, List.mem_cons_of_mem _ hy, hr⟩

section
variable {σ α : Type*} {fn : (Nat → UInt8) → σ → Nat → σ} {g : σ → α → σ}
  {record : α → Record nlmsghdr}

/-- Messages that lie there do not end the dump. -/
theorem not_ends_of_lie {mem : Nat → UInt8} {os : List Nat} {xs : List α}
    (h : Record.Lie mem os (xs.map record)) (hgo : ∀ x ∈ xs, Handed (record x)) :
    ∀ nh ∈ os, ¬ Ends mem nh := by
  intro nh hnh
  obtain ⟨m, hm, hlie⟩ := forall₂_mem h hnh
  obtain ⟨x, hx, rfl⟩ := List.mem_map.mp hm
  exact not_ends_of_lies hlie (hgo x hx)

/-- **Of a dump the kernel packs, each message is handed on once, in order.** -/
theorem nlDumpRecvs_dumped {fuel : Nat} (hfuel : nlDumpBuf ≤ fuel)
    {recvs : List (NlRecv nlDumpBuf)} {xs : List α} (h : Dumped record recvs xs)
    (hstep : ∀ mem s o, ∀ x ∈ xs, Lies mem o (record x).bytes → fn mem s o = g s x) (ctx : σ) :
    nlDumpRecvs fuel fn ctx recvs = some (xs.foldl g ctx, 0) := by
  induction h generalizing ctx with
  | signal _ ih =>
      rw [nlDumpRecvs, if_pos rfl]
      exact ih hstep ctx
  | @more d rest part xs hlies hn hpart hgo _ ih =>
      have hfits := d.fits
      have hpos : ¬ d.n = 0 := by
        have hbytes : 0 < (Record.pack (part.map record)).length := pack_pos (by simpa using hpart)
        omega
      have hwalk := dumpWalk_lie hlies hn (show d.n ≤ fuel by omega)
      have hfold := hwalk.foldl_map_eq (f := fn d.mem) (g := g)
        (fun s o x hx hlie => hstep d.mem s o x (List.mem_append_left _ hx) hlie) ctx
      have hmsgs := nlDumpMsgs_append (fn d.mem) (not_ends_of_lie hwalk hgo) ctx []
      rw [List.append_nil, nlDumpMsgs, hfold] at hmsgs
      rw [nlDumpRecvs, if_neg hpos, hmsgs, List.foldl_append]
      exact ih (fun mem s o x hx => hstep mem s o x (List.mem_append_right _ hx)) _
  | @done d rest part m after hlies hn hgo hdone =>
      have hfits := d.fits
      have hpos : ¬ d.n = 0 := by
        have hbytes : 0 < (Record.pack (part.map record ++ m :: after)).length := pack_pos (by simp)
        omega
      have hwalk := dumpWalk_lie hlies hn (show d.n ≤ fuel by omega)
      have hfirst : Record.Lie d.mem _ (part.map record) :=
        List.forall₂_take_append _ _ _ hwalk
      have hlast := List.forall₂_drop_append _ _ _ hwalk
      obtain ⟨o, os, hone, -, hdrop⟩ := List.forall₂_cons_right_iff.mp hlast
      have hfold := hfirst.foldl_map_eq (f := fn d.mem) (g := g)
        (fun s o x hx hlie => hstep d.mem s o x hx hlie) ctx
      have hmsgs : nlDumpMsgs d.mem (fn d.mem) ctx (dumpWalk fuel d) =
          (part.foldl g ctx, some 0) := by
        rw [← List.take_append_drop (part.map record).length (dumpWalk fuel d),
          nlDumpMsgs_append _ (not_ends_of_lie hfirst hgo), hfold, hdrop, nlDumpMsgs,
          nlmsgType_of_lies hone, if_pos hdone]
      rw [nlDumpRecvs, if_neg hpos, hmsgs]

end

/-! ### What an interface carries -/

/-- A message of one type: its header behind the length, its family header of this size, and
its attributes. -/
structure FamilyMessage (type size : Nat) where
  rest : List UInt8
  family : List UInt8
  attrs : List (Record rtattr)
  headed : nlmsghdr.wide + rest.length = nlmsghdr.head
  typed : leOf (rest.take 2) = type
  sized : family.length = size
  fits : nlmsghdr.head + (family ++ Record.pack attrs).length < 256 ^ nlmsghdr.wide

def FamilyMessage.record {type size : Nat} (m : FamilyMessage type size) : Record nlmsghdr :=
  { rest := m.rest, body := m.family ++ Record.pack m.attrs, headed := m.headed, fits := m.fits }

/-- `struct ifaddrmsg` and its attributes; `struct rtmsg` and its. -/
abbrev AddrMessage := FamilyMessage rtmNewaddr 8

abbrev RouteMessage := FamilyMessage rtmNewroute 12

/-- The `int` at this place of these bytes. -/
def intOf (bytes : List UInt8) (i : Nat) : Int := asInt (leOf ((bytes.drop i).take 4))

/-- An address on this interface, of a scope wider than link. -/
def BeyondLink (idx : Int) (m : AddrMessage) : Prop :=
  intOf m.family 4 = idx ∧ (m.family.getD 3 0).toNat < rtScopeLink

instance (idx : Int) (m : AddrMessage) : Decidable (BeyondLink idx m) :=
  inferInstanceAs (Decidable (_ ∧ _))

/-- What of a kind's text the owner's buffer holds. -/
def kindText (body : List UInt8) : List UInt8 := (body.take (ownerKindBuf - 1)).takeWhile (· ≠ 0)

def lastOr {α : Type*} (old : α) (xs : List α) : α := xs.getLast?.getD old

namespace LinkMessage

variable (m : LinkMessage)

def index : Int := intOf m.family 4

/-- It is enslaved to another. -/
def enslaved : Bool := !(textsOf iflaMaster (m.attrs.map LinkAttr.record)).isEmpty

/-- What it stands on is in another namespace. -/
def elsewhere : Bool := !(textsOf iflaLinkNetnsid (m.attrs.map LinkAttr.record)).isEmpty

end LinkMessage

/-- The links named as what a link stands on. -/
def lowers (attrs : List LinkAttr) : List Int :=
  ((textsOf iflaLink (attrs.map LinkAttr.record)).filter fun b => 4 ≤ b.length).map
    fun b => intOf b 0

/-- The link stands on this interface, or is this interface and enslaved. -/
def StackedOn (idx : Int) (m : LinkMessage) : Prop :=
  if m.index = idx then m.enslaved = true
  else lastOr 0 (lowers m.attrs) = idx ∧ m.elsewhere = false ∧
    lastOr [] ((LinkAttr.kinds m.attrs).map kindText) ∈ stackingKinds

instance (idx : Int) (m : LinkMessage) : Decidable (StackedOn idx m) :=
  inferInstanceAs (Decidable (ite ..))

/-- The attribute names this interface as the way out. -/
def WayOut (idx : Int) (r : Record rtattr) : Prop :=
  attrType r = rtaOif ∧ 4 ≤ r.body.length ∧ intOf r.body 0 = idx

instance (idx : Int) (r : Record rtattr) : Decidable (WayOut idx r) :=
  inferInstanceAs (Decidable (_ ∧ _ ∧ _))

/-- A unicast route to everything. -/
def RouteMessage.toAll (m : RouteMessage) : Prop :=
  m.family.getD 1 0 = 0 ∧ (m.family.getD 7 0).toNat = rtnUnicast

instance (m : RouteMessage) : Decidable m.toAll := inferInstanceAs (Decidable (_ ∧ _))

/-- A default route out of this interface. -/
def DefaultOut (idx : Int) (m : RouteMessage) : Prop := m.toAll ∧ ∃ r ∈ m.attrs, WayOut idx r

/-! ### What the handlers make of it -/

theorem intAt_inside {mem : Nat → UInt8} {off : Nat} {bytes : List UInt8}
    (h : Lies mem off bytes) {i : Nat} (hin : i + 4 ≤ bytes.length) :
    intAt mem (off + i) = intOf bytes i := by
  rw [intAt, intOf, leAt_inside h hin]

theorem byte_inside {mem : Nat → UInt8} {off : Nat} {bytes : List UInt8}
    (h : Lies mem off bytes) {i : Nat} (hin : i < bytes.length) :
    mem (off + i) = bytes.getD i 0 := by
  rw [mem_of_lies h hin, List.getD_eq_getElem?_getD, List.getElem?_eq_getElem hin,
    Option.getD_some]

/-- The family header of a message that lies there. -/
theorem family_lies {mem : Nat → UInt8} {nh : Nat} {m : Record nlmsghdr}
    (family : List UInt8) {attrs : List UInt8} (h : Lies mem nh m.bytes)
    (hbody : m.body = family ++ attrs) : Lies mem (nlmsgData nh) family := by
  have hall := (Record.rest_lies h).2
  rw [hbody, lies_append] at hall
  exact hall.1

theorem onAddr_of_lies {mem : Nat → UInt8} (idx : Int) (f : LinkOwnerFacts) {nh : Nat}
    {m : AddrMessage} (h : Lies mem nh m.record.bytes) :
    onAddr idx mem f nh = if BeyondLink idx m then { f with addrs := f.addrs + 1 } else f := by
  have htype : nlmsgType mem nh = rtmNewaddr := (nlmsgType_of_lies h).trans m.typed
  have hfamily := family_lies m.family h rfl
  have hsize := m.sized
  rw [onAddr, if_neg (not_not.mpr htype), intAt_inside hfamily (by omega),
    byte_inside hfamily (by omega)]
  by_cases hidx : intOf m.family 4 = idx
  · rw [if_neg (not_not.mpr hidx)]
    by_cases hscope : (m.family.getD 3 0).toNat < rtScopeLink
    · rw [if_pos hscope, if_pos (show BeyondLink idx m from ⟨hidx, hscope⟩)]
    · rw [if_neg hscope, if_neg fun hb : BeyondLink idx m => hscope hb.2]
  · rw [if_pos hidx, if_neg fun hb : BeyondLink idx m => hidx hb.1]

/-- What `on_link` has gathered after these attributes. -/
def seenOf (seen : LinkAttrsSeen) (attrs : List LinkAttr) : LinkAttrsSeen where
  link := lastOr seen.link (lowers attrs)
  otherNs := seen.otherNs || !(textsOf iflaLinkNetnsid (attrs.map LinkAttr.record)).isEmpty
  master := seen.master || !(textsOf iflaMaster (attrs.map LinkAttr.record)).isEmpty
  kind := lastOr seen.kind ((LinkAttr.kinds attrs).map kindText)

theorem lastOr_append {α : Type*} (old : α) (xs ys : List α) :
    lastOr (lastOr old xs) ys = lastOr old (xs ++ ys) := by
  rw [lastOr, lastOr, lastOr, List.getLast?_append]
  cases ys.getLast? with
  | none => rfl
  | some y => rfl

theorem seenOf_nil (seen : LinkAttrsSeen) : seenOf seen [] = seen := by
  simp [seenOf, lowers, textsOf, LinkAttr.kinds, lastOr]

theorem seenOf_cons (seen : LinkAttrsSeen) (attr : LinkAttr) (attrs : List LinkAttr) :
    seenOf (seenOf seen [attr]) attrs = seenOf seen (attr :: attrs) := by
  have htexts : ∀ type, textsOf type ((attr :: attrs).map LinkAttr.record) =
      textsOf type ([attr].map LinkAttr.record) ++ textsOf type (attrs.map LinkAttr.record) :=
    fun type => textsOf_append type [attr.record] (attrs.map LinkAttr.record)
  have hempty : ∀ xs ys : List (List UInt8),
      (!(xs ++ ys).isEmpty) = (!xs.isEmpty || !ys.isEmpty) := by
    intro xs ys
    cases xs with
    | nil => rfl
    | cons x xs => rfl
  simp only [seenOf, lowers, htexts, hempty, kinds_cons attr attrs, List.filter_append,
    List.map_append, lastOr_append, Bool.or_assoc]

theorem kindText_of_lies {mem : Nat → UInt8} {i : Nat} {r : Record rtattr}
    (h : Lies mem i r.bytes) :
    (let k := if ownerKindBuf ≤ rtaPayload mem i then ownerKindBuf - 1 else rtaPayload mem i
      let kind := slice mem (rtaData i) k
      kind.take (strnlen kind)) = kindText r.body := by
  have hbody := (Record.rest_lies h).2
  have hlen := rtaPayload_of_lies h
  have hbuf : ownerKindBuf = 32 := rfl
  have hkept : slice mem (rtaData i)
      (if ownerKindBuf ≤ rtaPayload mem i then ownerKindBuf - 1 else rtaPayload mem i) =
      r.body.take (ownerKindBuf - 1) := by
    rw [hlen]
    split
    · rename_i hlong
      have hin := slice_inside hbody (i := 0) (n := ownerKindBuf - 1) (by omega)
      rw [List.drop_zero] at hin
      exact hin
    · rename_i hshort
      rw [List.take_of_length_le (by omega)]
      exact hbody
  simp only
  rw [hkept, kindText, strnlen]
  exact (List.prefix_iff_eq_take.mp (List.takeWhile_prefix _)).symm

theorem textsOf_one (type : Nat) (r : Record rtattr) :
    textsOf type [r] = if attrType r = type then [r.body] else [] := by
  by_cases h : attrType r = type
  · rw [textsOf_cons_pos h, if_pos h]
    rfl
  · rw [textsOf_cons_neg h, if_neg h]
    rfl

/-- The kinds of an attribute that holds attributes, the last one kept. -/
theorem foldl_kindTexts {mem : Nat → UInt8} {os : List Nat} {infos : List (Record rtattr)}
    (h : Record.Lie mem os infos) (seen : LinkAttrsSeen) :
    os.foldl (fun seen i =>
      if rtaType mem i = iflaInfoKind then
        let k := if ownerKindBuf ≤ rtaPayload mem i then ownerKindBuf - 1 else rtaPayload mem i
        let kind := slice mem (rtaData i) k
        { seen with kind := kind.take (strnlen kind) }
      else seen) seen =
      { seen with kind := lastOr seen.kind ((textsOf iflaInfoKind infos).map kindText) } := by
  induction h generalizing seen with
  | nil => rfl
  | @cons o r os infos hr _ ih =>
      rw [List.foldl_cons, ih, rtaType_of_lies hr]
      by_cases hkind : attrType r = iflaInfoKind
      · rw [if_pos hkind, textsOf_cons_pos hkind, List.map_cons]
        have hold := lastOr_append seen.kind [kindText r.body]
          ((textsOf iflaInfoKind infos).map kindText)
        simp only [← kindText_of_lies hr] at hold ⊢
        rw [List.singleton_append] at hold
        rw [← hold]
        rfl
      · rw [if_neg hkind, textsOf_cons_neg hkind]

theorem onLinkAttr_of_lies {mem : Nat → UInt8} {a : Nat} (seen : LinkAttrsSeen) {attr : LinkAttr}
    (h : Lies mem a attr.record.bytes) : onLinkAttr mem seen a = seenOf seen [attr] := by
  have htype := rtaType_of_lies h
  have hlen := rtaPayload_of_lies h
  cases attr with
  | plain r other =>
      rw [show (LinkAttr.plain r other).record = r from rfl] at h htype hlen
      have hbody := (Record.rest_lies h).2
      have hkinds : LinkAttr.kinds [.plain r other] = [] := rfl
      have hrecords : [LinkAttr.plain r other].map LinkAttr.record = [r] := rfl
      rw [onLinkAttr, htype, hlen, if_neg other, seenOf, lowers, hrecords, hkinds, textsOf_one,
        textsOf_one, textsOf_one]
      by_cases hlink : attrType r = iflaLink
      · have hnetns : ¬ iflaLink = iflaLinkNetnsid := by decide
        have hmaster : ¬ iflaLink = iflaMaster := by decide
        by_cases hfull : 4 ≤ r.body.length
        · have hint : intAt mem (rtaData a) = intOf r.body 0 := intAt_inside hbody (by omega)
          rw [if_pos ⟨hlink, hfull⟩, hint]
          simp [hlink, hnetns, hmaster, hfull, lastOr]
        · simp [hlink, hnetns, hmaster, hfull, lastOr]
      · by_cases hnetns : attrType r = iflaLinkNetnsid
        · have hmaster : ¬ iflaLinkNetnsid = iflaMaster := by decide
          have hlink' : ¬ iflaLinkNetnsid = iflaLink := by decide
          simp [hlink', hnetns, hmaster, lastOr]
        · by_cases hmaster : attrType r = iflaMaster
          · have hlink' : ¬ iflaMaster = iflaLink := by decide
            have hnetns' : ¬ iflaMaster = iflaLinkNetnsid := by decide
            simp [hlink', hnetns', hmaster, lastOr]
          · simp [hlink, hnetns, hmaster, lastOr]
  | info infos fits =>
      have hinfo : attrType (LinkAttr.info infos fits).record = iflaLinkinfo :=
        leOf_leBytes (by decide)
      have hlink : ¬ iflaLinkinfo = iflaLink := by decide
      have hnetns : ¬ iflaLinkinfo = iflaLinkNetnsid := by decide
      have hmaster : ¬ iflaLinkinfo = iflaMaster := by decide
      have hkinds : LinkAttr.kinds [.info infos fits] = textsOf iflaInfoKind infos := by
        rw [LinkAttr.kinds, List.flatMap_cons, List.flatMap_nil, List.append_nil,
          LinkAttr.infos]
      rw [onLinkAttr, htype, hinfo, if_neg fun hb => hlink hb.1, if_neg hnetns, if_neg hmaster,
        if_pos rfl, foldl_kindTexts (nestedAttrs_lie h rfl), seenOf, hkinds, lowers, List.map_cons,
        List.map_nil, textsOf_one, textsOf_one, textsOf_one, hinfo, if_neg hlink, if_neg hnetns,
        if_neg hmaster]
      simp [lastOr]

theorem foldl_onLinkAttr {mem : Nat → UInt8} {os : List Nat} {attrs : List LinkAttr}
    (h : Record.Lie mem os (attrs.map LinkAttr.record)) (seen : LinkAttrsSeen) :
    os.foldl (onLinkAttr mem) seen = seenOf seen attrs := by
  induction attrs generalizing os seen with
  | nil =>
      cases h
      rw [List.foldl_nil, seenOf_nil]
  | cons attr attrs ih =>
      rw [List.map_cons] at h
      cases h with
      | cons hone hrest =>
          rw [List.foldl_cons, onLinkAttr_of_lies seen hone, ih hrest, seenOf_cons]

theorem onLink_of_lies {mem : Nat → UInt8} (idx : Int) (f : LinkOwnerFacts) {nh : Nat}
    {m : LinkMessage} (hlink : msgType m.record = rtmNewlink) (hfamily : m.family.length = 16)
    (h : Lies mem nh m.record.bytes) :
    onLink idx mem f nh = if StackedOn idx m then { f with stacked := f.stacked + 1 } else f := by
  have htype : nlmsgType mem nh = rtmNewlink := (nlmsgType_of_lies h).trans hlink
  have hlies := family_lies m.family h rfl
  have hattrs := msgAttrs_lie m.family (m.attrs.map LinkAttr.record) h rfl
  rw [hfamily] at hattrs
  have hmaster : (seenOf {} m.attrs).master = m.enslaved := Bool.false_or _
  have hother : (seenOf {} m.attrs).otherNs = m.elsewhere := Bool.false_or _
  have hlower : (seenOf {} m.attrs).link = lastOr 0 (lowers m.attrs) := rfl
  have hkind : (seenOf {} m.attrs).kind =
      lastOr [] ((LinkAttr.kinds m.attrs).map kindText) := rfl
  rw [onLink, if_neg (not_not.mpr htype), foldl_onLinkAttr hattrs, intAt_inside hlies (by omega)]
  have hindex : intOf m.family 4 = m.index := rfl
  simp only [hmaster, hother, hlower, hkind, hindex]
  by_cases hself : m.index = idx
  · rw [if_pos hself]
    refine if_congr ?_ rfl rfl
    rw [StackedOn, if_pos hself]
  · rw [if_neg hself]
    have hstacked : StackedOn idx m ↔ lastOr 0 (lowers m.attrs) = idx ∧ m.elsewhere = false ∧
        lastOr [] ((LinkAttr.kinds m.attrs).map kindText) ∈ stackingKinds := by
      rw [StackedOn, if_neg hself]
    by_cases hlow : lastOr 0 (lowers m.attrs) = idx ∧ m.elsewhere = false
    · rw [if_neg (by simp [hlow])]
      refine if_congr ?_ rfl rfl
      rw [hstacked, List.contains_iff_mem]
      exact ⟨fun hk => ⟨hlow.1, hlow.2, hk⟩, fun hall => hall.2.2⟩
    · have hskip : lastOr 0 (lowers m.attrs) ≠ idx ∨ m.elsewhere = true := by
        by_cases hidx : lastOr 0 (lowers m.attrs) = idx
        · exact Or.inr (by simpa using fun hno => hlow ⟨hidx, hno⟩)
        · exact Or.inl hidx
      rw [if_pos hskip, if_neg fun hs => hlow ⟨(hstacked.mp hs).1, (hstacked.mp hs).2.1⟩]

theorem foldl_wayOut (idx : Int) (rs : List (Record rtattr)) (f : LinkOwnerFacts) :
    rs.foldl (fun f r => if WayOut idx r then
        { f with defaultRoutes := f.defaultRoutes + 1 } else f) f =
      { f with defaultRoutes := f.defaultRoutes + rs.countP fun r => WayOut idx r } := by
  induction rs generalizing f with
  | nil => rfl
  | cons r rs ih =>
      rw [List.foldl_cons, ih, List.countP_cons]
      by_cases hout : WayOut idx r
      · simp only [hout, if_true, decide_true]
        rw [Nat.add_right_comm, Nat.add_assoc]
      · simp [hout]

theorem onRoute_of_lies {mem : Nat → UInt8} (idx : Int) (f : LinkOwnerFacts) {nh : Nat}
    {m : RouteMessage} (h : Lies mem nh m.record.bytes) :
    onRoute idx mem f nh = if m.toAll then
      { f with defaultRoutes := f.defaultRoutes + m.attrs.countP fun r => WayOut idx r }
    else f := by
  have htype : nlmsgType mem nh = rtmNewroute := (nlmsgType_of_lies h).trans m.typed
  have hfamily := family_lies m.family h rfl
  have hsize := m.sized
  have hattrs := msgAttrs_lie m.family m.attrs h rfl
  rw [hsize] at hattrs
  rw [onRoute, if_neg (not_not.mpr htype), byte_inside hfamily (by omega),
    byte_inside hfamily (by omega)]
  by_cases hall : m.toAll
  · have hgo : ¬ (m.family.getD 1 0 ≠ 0 ∨ (m.family.getD 7 0).toNat ≠ rtnUnicast) :=
      fun hno => hno.elim (fun h => h hall.1) (fun h => h hall.2)
    rw [if_neg hgo, if_pos hall]
    rw [hattrs.foldl_eq (g := fun f r => if WayOut idx r then
      { f with defaultRoutes := f.defaultRoutes + 1 } else f) ?_ f, foldl_wayOut]
    intro f a r _ hr
    refine if_congr ?_ rfl rfl
    rw [rtaType_of_lies hr, rtaPayload_of_lies hr, WayOut]
    refine and_congr_right fun _ => and_congr_right fun hlen => ?_
    rw [show rtaData a = rtaData a + 0 from rfl, rtaData]
    exact Iff.of_eq (congrArg (· = idx)
      (intAt_inside (Record.rest_lies hr).2 (i := 0) (by omega)))
  · have hskip : m.family.getD 1 0 ≠ 0 ∨ (m.family.getD 7 0).toNat ≠ rtnUnicast := by
      by_contra hno
      rw [not_or, not_not, not_not] at hno
      exact hall hno
    rw [if_pos hskip, if_neg hall]

/-! ### The verdict -/

/-- A session that dumps these, each as its message. -/
structure DumpOf {α : Type*} (record : α → Record nlmsghdr) (session : NlSession nlDumpBuf)
    (xs : List α) : Prop where
  socket : session.socketErrno = none
  send : session.sendErrno = none
  dumped : Dumped record session.recvs xs

theorem nlDump_of {σ α : Type*} {fuel : Nat} (hfuel : nlDumpBuf ≤ fuel)
    {session : NlSession nlDumpBuf} {record : α → Record nlmsghdr} {xs : List α}
    (h : DumpOf record session xs) (fn : (Nat → UInt8) → σ → Nat → σ) {g : σ → α → σ}
    (hstep : ∀ mem s o, ∀ x ∈ xs, Lies mem o (record x).bytes → fn mem s o = g s x) (ctx : σ) :
    nlDump fuel session fn ctx = some (xs.foldl g ctx, 0) := by
  rw [nlDump, h.socket, h.send]
  exact nlDumpRecvs_dumped hfuel h.dumped hstep ctx

/-- The three dumps of what the host has. -/
structure HostHas (host : OwnerHost) (addrs : List AddrMessage) (links : List LinkMessage)
    (routes : List RouteMessage) : Prop where
  addrDumped : DumpOf FamilyMessage.record host.addrDump addrs
  linkDumped : DumpOf LinkMessage.record host.linkDump links
  routeDumped : DumpOf FamilyMessage.record host.routeDump routes
  linked : ∀ m ∈ links, msgType m.record = rtmNewlink ∧ m.family.length = 16

/-- What the facts count. -/
def factsOf (idx : Int) (addrs : List AddrMessage) (links : List LinkMessage)
    (routes : List RouteMessage) : LinkOwnerFacts where
  addrs := addrs.countP fun m => BeyondLink idx m
  stacked := links.countP fun m => StackedOn idx m
  defaultRoutes := (routes.map fun m =>
    if m.toAll then m.attrs.countP fun r => WayOut idx r else 0).sum

section
variable (idx : Int)

theorem foldl_addrs (addrs : List AddrMessage) (f : LinkOwnerFacts) :
    addrs.foldl (fun f m => if BeyondLink idx m then { f with addrs := f.addrs + 1 } else f) f =
      { f with addrs := f.addrs + addrs.countP fun m => BeyondLink idx m } := by
  induction addrs generalizing f with
  | nil => rfl
  | cons m addrs ih =>
      rw [List.foldl_cons, ih, List.countP_cons]
      by_cases hm : BeyondLink idx m
      · simp only [hm, if_true, decide_true]
        rw [Nat.add_right_comm, Nat.add_assoc]
      · simp [hm]

theorem foldl_links (links : List LinkMessage) (f : LinkOwnerFacts) :
    links.foldl (fun f m => if StackedOn idx m then { f with stacked := f.stacked + 1 } else f) f =
      { f with stacked := f.stacked + links.countP fun m => StackedOn idx m } := by
  induction links generalizing f with
  | nil => rfl
  | cons m links ih =>
      rw [List.foldl_cons, ih, List.countP_cons]
      by_cases hm : StackedOn idx m
      · simp only [hm, if_true, decide_true]
        rw [Nat.add_right_comm, Nat.add_assoc]
      · simp [hm]

theorem foldl_routes (routes : List RouteMessage) (f : LinkOwnerFacts) :
    routes.foldl (fun f m => if m.toAll then
        { f with defaultRoutes := f.defaultRoutes + m.attrs.countP fun r => WayOut idx r }
        else f) f =
      { f with defaultRoutes := f.defaultRoutes + (routes.map fun m =>
          if m.toAll then m.attrs.countP fun r => WayOut idx r else 0).sum } := by
  induction routes generalizing f with
  | nil => rfl
  | cons m routes ih =>
      rw [List.foldl_cons, ih, List.map_cons, List.sum_cons]
      by_cases hm : m.toAll
      · simp only [hm, if_true, Nat.add_assoc]
      · simp [hm]

/-- The read comes back with what the dumps say. -/
theorem owner_read_of {fuel : Nat} (hfuel : nlDumpBuf ≤ fuel) {host : OwnerHost}
    {addrs : List AddrMessage} {links : List LinkMessage} {routes : List RouteMessage}
    (h : HostHas host addrs links routes) {name : List UInt8} (hname : name ≠ [])
    (hknown : host.ifNametoindex name ≠ 0) (hidx : idx = asInt (host.ifNametoindex name)) :
    reacLinkOwnerRead fuel host (some name) =
      some (factsOf idx addrs links routes,
        reacLinkOwnerVerdict (some (factsOf idx addrs links routes))) := by
  have haddrs := nlDump_of hfuel h.addrDumped (onAddr idx)
    (fun mem f o m _ hm => onAddr_of_lies idx f hm) {}
  have hlinks := fun f => nlDump_of hfuel h.linkDumped (onLink idx)
    (fun mem f o m hmem hm => onLink_of_lies idx f (h.linked m hmem).1 (h.linked m hmem).2 hm) f
  have hroutes := fun f => nlDump_of hfuel h.routeDumped (onRoute idx)
    (fun mem f o m _ hm => onRoute_of_lies idx f hm) f
  rw [foldl_addrs] at haddrs
  simp only [foldl_links] at hlinks
  simp only [foldl_routes] at hroutes
  have hok : ¬ (0 : Int) ≠ 0 := fun hne => hne rfl
  rw [reacLinkOwnerRead, if_neg hname, if_neg hknown, ← hidx]
  simp only [haddrs, hlinks, hroutes, hok, if_false, factsOf, Nat.zero_add]

end

theorem defaultRoutes_pos_iff {idx : Int} {routes : List RouteMessage} :
    0 < (routes.map fun m => if m.toAll then m.attrs.countP fun r => WayOut idx r else 0).sum ↔
      ∃ m ∈ routes, DefaultOut idx m := by
  induction routes with
  | nil => simp
  | cons m routes ih =>
      have hhead : 0 < (if m.toAll then m.attrs.countP fun r => WayOut idx r else 0) ↔
          DefaultOut idx m := by
        by_cases hm : m.toAll
        · rw [if_pos hm, List.countP_pos_iff]
          simp only [decide_eq_true_iff]
          exact ⟨fun hr => ⟨hm, hr⟩, fun hd => hd.2⟩
        · rw [if_neg hm]
          exact ⟨fun hno => absurd hno (Nat.lt_irrefl 0), fun hd => absurd hd.1 hm⟩
      rw [List.map_cons, List.sum_cons, Nat.add_pos_iff_pos_or_pos, hhead, ih]
      simp

/-- What the verdict is, by the three facts. -/
theorem verdict_cases {idx : Int} {addrs : List AddrMessage} {links : List LinkMessage}
    {routes : List RouteMessage} {v : LinkOwner}
    (h : v = reacLinkOwnerVerdict (some (factsOf idx addrs links routes))) :
    (v = .addr ↔ ∃ m ∈ addrs, BeyondLink idx m) ∧
    (v = .stacked ↔ (¬ ∃ m ∈ addrs, BeyondLink idx m) ∧ ∃ m ∈ links, StackedOn idx m) ∧
    (v = .route ↔ (¬ ∃ m ∈ addrs, BeyondLink idx m) ∧ (¬ ∃ m ∈ links, StackedOn idx m) ∧
      ∃ m ∈ routes, DefaultOut idx m) ∧
    (reacLinkOwnerIsHosts v = false ↔ (¬ ∃ m ∈ addrs, BeyondLink idx m) ∧
      (¬ ∃ m ∈ links, StackedOn idx m) ∧ ¬ ∃ m ∈ routes, DefaultOut idx m) := by
  subst h
  have haddrs : (∃ m ∈ addrs, BeyondLink idx m) ↔
      0 < addrs.countP fun m => BeyondLink idx m := by simp [List.countP_pos_iff]
  have hlinks : (∃ m ∈ links, StackedOn idx m) ↔
      0 < links.countP fun m => StackedOn idx m := by simp [List.countP_pos_iff]
  rw [haddrs, hlinks, ← defaultRoutes_pos_iff]
  simp only [reacLinkOwnerVerdict, reacLinkOwnerIsHosts, factsOf]
  by_cases haddr : 0 < addrs.countP fun m => BeyondLink idx m
  · simp [haddr]
  · by_cases hlink : 0 < links.countP fun m => StackedOn idx m
    · simp [haddr, hlink]
    · by_cases hroute : 0 < (routes.map fun m =>
        if m.toAll then m.attrs.countP fun r => WayOut idx r else 0).sum
      · simp [haddr, hlink, hroute]
      · simp [haddr, hlink, hroute]

/-- **The verdict is what the interface carries**: an address beyond link scope, something
stacked on it, a default route out of it, the first of these that holds; and bare, so not the
host's, when none does. -/
theorem owner_verdict {fuel : Nat} (hfuel : nlDumpBuf ≤ fuel) {host : OwnerHost}
    {addrs : List AddrMessage} {links : List LinkMessage} {routes : List RouteMessage}
    (h : HostHas host addrs links routes) {name : List UInt8} (hname : name ≠ [])
    (hknown : host.ifNametoindex name ≠ 0) :
    ∃ idx v, idx = asInt (host.ifNametoindex name) ∧
      reacLinkOwnerRead fuel host (some name) = some (factsOf idx addrs links routes, v) ∧
      (v = .addr ↔ ∃ m ∈ addrs, BeyondLink idx m) ∧
      (v = .stacked ↔ (¬ ∃ m ∈ addrs, BeyondLink idx m) ∧ ∃ m ∈ links, StackedOn idx m) ∧
      (v = .route ↔ (¬ ∃ m ∈ addrs, BeyondLink idx m) ∧ (¬ ∃ m ∈ links, StackedOn idx m) ∧
        ∃ m ∈ routes, DefaultOut idx m) ∧
      (reacLinkOwnerIsHosts v = false ↔ (¬ ∃ m ∈ addrs, BeyondLink idx m) ∧
        (¬ ∃ m ∈ links, StackedOn idx m) ∧ ¬ ∃ m ∈ routes, DefaultOut idx m) := by
  obtain ⟨idx, hidx⟩ : ∃ idx, idx = asInt (host.ifNametoindex name) := ⟨_, rfl⟩
  exact ⟨idx, _, hidx, owner_read_of idx hfuel h hname hknown hidx, verdict_cases rfl⟩

/-- The kernel's own address, of link scope. -/
def linkScopeAddr : AddrMessage where
  rest := leBytes 2 rtmNewaddr ++ List.replicate 10 0
  family := [10, 64, 0, 253] ++ leBytes 4 2
  attrs := []
  headed := rfl
  typed := by decide
  sized := rfl
  fits := by decide

/-- A VLAN on the second interface. -/
def vlanOnSecond : LinkMessage where
  rest := vlanAnswer.rest
  family := List.replicate 4 0 ++ leBytes 4 3 ++ List.replicate 8 0
  attrs :=
    [.plain { rest := leBytes 2 iflaLink, body := leBytes 4 2, headed := rfl, fits := by decide }
        (by decide),
      vlanKind]
  headed := vlanAnswer.headed
  fits := by decide

/-- `NLMSG_DONE`. -/
def dumpDone : Record nlmsghdr where
  rest := leBytes 2 nlmsgDone ++ List.replicate 10 0
  body := []
  headed := rfl
  fits := by decide

def trunkHost : OwnerHost where
  ifNametoindex := fun _ => 2
  addrDump := { recvs := [.data (datagramOf (Record.pack
    ([linkScopeAddr].map FamilyMessage.record ++ [dumpDone])) [] (by decide))] }
  linkDump := { recvs := [.error eintr, .data (datagramOf (Record.pack
    ([vlanOnSecond].map LinkMessage.record ++ [dumpDone])) [] (by decide))] }
  routeDump := { recvs := [.data (datagramOf (Record.pack
    (([] : List RouteMessage).map FamilyMessage.record ++ [dumpDone])) [] (by decide))] }

theorem trunkHost_has : HostHas trunkHost [linkScopeAddr] [vlanOnSecond] [] where
  addrDumped := ⟨rfl, rfl, .done (lies_datagramOf _ _ _) rfl (by unfold Handed; decide) (by decide)⟩
  linkDumped := ⟨rfl, rfl, .signal (.done (lies_datagramOf _ _ _) rfl (by unfold Handed; decide)
    (by decide))⟩
  routeDumped := ⟨rfl, rfl, .done (lies_datagramOf _ _ _) rfl (by simp) (by decide)⟩
  linked := by decide

/-- A trunk parent that carries no address of its own is the host's by the VLAN on it. -/
theorem owner_verdict_trunk : ∃ idx, idx = asInt 2 ∧
    reacLinkOwnerRead nlDumpBuf trunkHost (some [101]) =
      some (factsOf idx [linkScopeAddr] [vlanOnSecond] [], .stacked) := by
  obtain ⟨idx, v, hidx, hread, -, hstacked, -⟩ :=
    owner_verdict (Nat.le_refl _) trunkHost_has (show ([101] : List UInt8) ≠ [] by decide)
      (by decide)
  have hidx : idx = asInt 2 := hidx
  subst hidx
  have hv : v = .stacked := hstacked.mpr (by decide)
  exact ⟨_, rfl, hv ▸ hread⟩

/-! ### What the verdict is for -/

/-- A verdict read off a kernel that says the host uses the interface, or off one that could
not be read. -/
inductive SaysHosts : LinkOwner → Prop
  | unread : SaysHosts .unread
  | used {fuel : Nat} {host : OwnerHost} {addrs : List AddrMessage} {links : List LinkMessage}
      {routes : List RouteMessage} {name : List UInt8} {f : LinkOwnerFacts} {v : LinkOwner}
      (hfuel : nlDumpBuf ≤ fuel) (h : HostHas host addrs links routes) (hname : name ≠ [])
      (hknown : host.ifNametoindex name ≠ 0)
      (hused : (∃ m ∈ addrs, BeyondLink (asInt (host.ifNametoindex name)) m) ∨
        (∃ m ∈ links, StackedOn (asInt (host.ifNametoindex name)) m) ∨
        ∃ m ∈ routes, DefaultOut (asInt (host.ifNametoindex name)) m)
      (hread : reacLinkOwnerRead fuel host (some name) = some (f, v)) : SaysHosts v

theorem SaysHosts.isHosts {v : LinkOwner} (h : SaysHosts v) : reacLinkOwnerIsHosts v = true := by
  cases h with
  | unread => rfl
  | @used fuel host addrs links routes name f v hfuel h hname hknown hused hread =>
      have hwhole := owner_read_of (asInt (host.ifNametoindex name)) hfuel h hname hknown rfl
      rw [hwhole] at hread
      have hv := (Prod.mk.injEq .. ▸ Option.some.inj hread).2
      have hbare := (verdict_cases hv.symm).2.2.2
      by_contra hno
      obtain ⟨haddr, hlink, hroute⟩ := hbare.mp (by simpa using hno)
      exact hused.elim haddr fun hrest => hrest.elim hlink hroute

/-- The cached answer is the host's, or nothing was read yet. -/
def CachedHosts (c : AutodetectCtx) : Prop :=
  c.ownerReadNs = 0 ∨ reacLinkOwnerIsHosts c.owner = true

theorem linkOwnerCached_hosts {c : AutodetectCtx} (now : Nat) {read : LinkOwner}
    (hc : CachedHosts c) (hread : reacLinkOwnerIsHosts read = true) :
    reacLinkOwnerIsHosts (linkOwnerCached c.owner c.ownerReadNs now read).1 = true := by
  rw [linkOwnerCached]
  split
  · rename_i hcached
    exact hc.resolve_left hcached.1
  · exact hread

/-- A ladder shown a wire of the host's makes no edge. -/
theorem reacWakeStep_hosts {w : ReacWake} {now : Nat} {o : WakeObs} (h : o.hostNic = true) :
    ¬ (reacWakeStep w now o).2 = .bounce := by
  obtain ⟨r, hs⟩ | ⟨hsilent, -⟩ | ⟨hsilent, -⟩ := reacWakeStep_cases w now o
  · rw [hs]
    exact fun hb => by cases hb
  · exact absurd hsilent.hostNic (by rw [h]; decide)
  · exact absurd hsilent.hostNic (by rw [h]; decide)

theorem wakeCarryOut_owner (c : AutodetectCtx) (t : WakeTurn) (o : WakeObs) :
    (wakeCarryOut c t o).1.owner = c.owner ∧
      (wakeCarryOut c t o).1.ownerReadNs = c.ownerReadNs := by
  unfold wakeCarryOut
  split <;> exact ⟨rfl, rfl⟩

theorem wakeAsked_owner (c : AutodetectCtx) (t : WakeTurn) (p : PacerObs) :
    (wakeAsked c t p).1.owner = (linkOwnerCached c.owner c.ownerReadNs t.now t.ownerRead).1 ∧
      (wakeAsked c t p).2.hostNic = reacLinkOwnerIsHosts (wakeAsked c t p).1.owner := by
  have hopened : ∀ probing, (wakeOpened c t.now probing).owner = c.owner ∧
      (wakeOpened c t.now probing).ownerReadNs = c.ownerReadNs := by
    intro probing
    unfold wakeOpened
    split
    · exact ⟨rfl, rfl⟩
    · split <;> exact ⟨rfl, rfl⟩
  obtain ⟨howner, hns⟩ := hopened p.probing
  have hasked : (wakeAsked c t p).1.owner =
      (linkOwnerCached c.owner c.ownerReadNs t.now t.ownerRead).1 := by
    rw [← howner, ← hns]
    unfold wakeAsked
    dsimp only
    split <;> rfl
  refine ⟨hasked, ?_⟩
  rw [hasked, ← howner, ← hns]
  rfl

/-- One turn on a wire of the host's. -/
theorem wakeStep_hosts {c : AutodetectCtx} {t : WakeTurn} (hc : CachedHosts c)
    (ht : SaysHosts t.ownerRead) :
    CachedHosts (wakeStep c t).1 ∧ ∀ w ∈ (wakeStep c t).2.writes, w.up = true := by
  obtain hidle | ⟨-, -, hfinish⟩ | ⟨p, -, -, hstate, hreport⟩ := wakeStep_cases c t
  · rw [hidle]
    exact ⟨hc, by simp⟩
  · rw [hfinish]
    exact ⟨hc, by simp⟩
  · obtain ⟨howner, hnic⟩ := wakeAsked_owner c t p
    have hhosts := linkOwnerCached_hosts t.now hc ht.isHosts
    rw [← howner] at hhosts
    refine ⟨?_, ?_⟩
    · rw [hstate, CachedHosts, (wakeCarryOut_owner _ _ _).1]
      exact Or.inr hhosts
    · rw [hreport]
      simp only [wakeCarryOut_writes, if_neg (reacWakeStep_hosts (hnic.trans hhosts))]
      simp

/-- One poll of the knock's driver on a wire of the host's. -/
theorem knockWakeOne_hosts {s : KnockState} {t : KnockPoll}
    (ht : ∀ sn ∈ t.sniff, SaysHosts sn.owner) :
    ∀ w ∈ (knockWakeOne s t).2.writes, w.up = true := by
  have hfinish : ∀ w ∈ (knockFinish s.ladder t.now t.upOk).2, w.up = true := by
    unfold knockFinish
    split
    · simp
    · simp
  obtain ⟨-, hreport⟩ | ⟨sn, hsn, -, -, hreport⟩ := knockWakeOne_cases s t
  · rw [hreport]
    exact hfinish
  · have hturn : (knockTurn (knockFinish s.ladder t.now t.upOk).1 sn t.now).2.writes = [] := by
      unfold knockTurn
      split
      · rfl
      · have hnic : (knockAsked (knockFinish s.ladder t.now t.upOk).1 sn t.now).2.hostNic = true :=
          (ht sn hsn).isHosts
        simp only [knockCarryOut_writes, if_neg (reacWakeStep_hosts hnic)]
    rw [hreport, hturn, List.append_nil]
    exact hfinish

/-- **A wire the host uses is never taken down.**  Over every run of the master's ladder from
a fresh listener, and over every run of the knock's, where each answer about the interface is
that the host uses it: no turn writes the link down. -/
theorem hosts_nic_never_down (sink : Bool) (ifname : String) {run : List WakeTurn}
    (hrun : ∀ t ∈ run, SaysHosts t.ownerRead) {s : KnockState} {polls : List KnockPoll}
    (hpolls : ∀ t ∈ polls, ∀ sn ∈ t.sniff, SaysHosts sn.owner) :
    (∀ r ∈ wakeMachine.outputs (.fresh sink ifname) run, ∀ w ∈ r.writes, w.up = true) ∧
      ∀ r ∈ knockMachine.outputs s polls, ∀ w ∈ r.writes, w.up = true := by
  refine ⟨?_, ?_⟩
  · exact wakeMachine.outputs_of_invariant (I := CachedHosts)
      (G := fun t => SaysHosts t.ownerRead) (Q := fun r => ∀ w ∈ r.writes, w.up = true)
      (fun c t hc ht => wakeStep_hosts hc ht) run _ (Or.inl rfl) hrun
  · exact knockMachine.outputs_of_invariant (I := fun _ => True)
      (G := fun t => ∀ sn ∈ t.sniff, SaysHosts sn.owner)
      (Q := fun r => ∀ w ∈ r.writes, w.up = true)
      (fun s t _ ht => ⟨True.intro, knockWakeOne_hosts ht⟩) polls s True.intro hpolls

/-- A silent trunk, long past its grace, pushed at often enough to be bounced. -/
def stackedTurn (now : Nat) : WakeTurn where
  now := now
  pacer := some { probing := true, rxBoxFrames := 0, sceneComplete := 1000, txFrames := 8000 }
  carrier := .up
  siblingsServed := false
  ownerRead := .stacked
  downOk := true
  upOk := true

/-- Ten polls of a knock that nobody answers, three transfers apart; two of them ask the
ladder. -/
def unansweredPolls (owner : LinkOwner) : List KnockPoll :=
  (List.range 10).map fun i =>
    { now := (i + 1) * 20000000000
      upOk := true
      sniff := some
        { name := "trunk", frames := 0, pushes := UInt64.ofNat (3 * i), knocks := 1,
          spellSent := 8000, carrier := .up, siblingsServed := false, owner := owner,
          downOk := true } }

/-- A trunk's device stays up, where the same polls take a bare one down. -/
theorem hosts_nic_never_down_trunk :
    (knockMachine.outputs { ladder := .blank "trunk", ladderPolls := 0 }
        (unansweredPolls .bare)).flatMap (·.writes) = [⟨false, true⟩] ∧
      (∀ r ∈ wakeMachine.outputs (.fresh true "trunk") [stackedTurn 1, stackedTurn 100000000000],
        ∀ w ∈ r.writes, w.up = true) ∧
      ∀ r ∈ knockMachine.outputs { ladder := .blank "trunk", ladderPolls := 0 }
          (unansweredPolls .stacked), ∀ w ∈ r.writes, w.up = true := by
  have hread : SaysHosts .stacked := by
    have hwhole := owner_read_of (asInt 2) (Nat.le_refl nlDumpBuf) trunkHost_has
      (show ([101] : List UInt8) ≠ [] by decide) (by decide) rfl
    have hverdict : reacLinkOwnerVerdict
        (some (factsOf (asInt 2) [linkScopeAddr] [vlanOnSecond] [])) = .stacked := by decide
    rw [hverdict] at hwhole
    exact .used (Nat.le_refl nlDumpBuf) trunkHost_has (by decide) (by decide)
      (Or.inr (Or.inl (by decide))) hwhole
  refine ⟨by decide, hosts_nic_never_down true "trunk" ?_ ?_⟩
  · intro t ht
    rcases List.mem_cons.mp ht with rfl | ht
    · exact hread
    · rw [List.mem_singleton.mp ht]
      exact hread
  · intro t ht sn hsn
    obtain ⟨i, -, rfl⟩ := List.mem_map.mp ht
    obtain rfl := Option.some.inj hsn
    exact hread

end ReacPw
