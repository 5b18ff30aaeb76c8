/-
An answer from rtnetlink is read off its own bytes, and read right.

`nl_talk` comes to its answer through two nested walks of records.  Each walk stays inside
what the record around it covers, so the answer is decided by the bytes received
(`nl_talk_of_received`), whatever those are and whatever the buffer held behind them.

And of an answer the kernel packs, it reads the last alias and the last kind, copied to
the caller's buffers (`nl_talk_reads`); the request of a write packs the alias the same
way, so what was written is what is read back (`alias_round_trip`).
-/
import Mathlib.Data.List.TakeWhile
import ReacPw.Rtnetlink

namespace ReacPw

open Records

/-! ### Only what was received -/

/-- The same bytes were received; what lies behind them may differ. -/
def SameReply {cap : Nat} (d d' : Datagram cap) : Prop :=
  d.n = d'.n ∧ Same d.mem d'.mem 0 d.n

/-- The same outcome of a `recv`, as far as what was received goes. -/
inductive SameRecv {cap : Nat} : NlRecv cap → NlRecv cap → Prop
  | error (errno : Int) : SameRecv (.error errno) (.error errno)
  | data {d d' : Datagram cap} (h : SameReply d d') : SameRecv (.data d) (.data d')

section
variable {mem mem' : Nat → UInt8}

theorem rtaType_congr {a : Nat} (h : Same mem mem' a (a + 4)) : rtaType mem a = rtaType mem' a :=
  leAt_congr (h.sub (by omega) (by omega))

theorem rtaPayload_congr {a : Nat} (h : Same mem mem' a (a + 4)) :
    rtaPayload mem a = rtaPayload mem' a := by
  rw [rtaPayload, rtaPayload, Format.lengthAt_congr h]

/-- An attribute in a walk lies in what is walked, header and payload. -/
theorem attr_inside {off : Nat} {left : Int} {a : Nat} (h : a ∈ rtattr.records mem off left) :
    off ≤ a ∧ (rtaData a + rtaPayload mem a : Int) ≤ off + left := by
  obtain ⟨hlo, hlen, hhi⟩ := Format.records_inside h
  refine ⟨hlo, ?_⟩
  rw [rtaData, rtaPayload]
  push_cast
  omega

theorem copyAttr_congr {a : Nat} (h : Same mem mem' a (rtaData a + rtaPayload mem a))
    (out : List UInt8) (n : Nat) : copyAttr mem a out n = copyAttr mem' a out n := by
  have hhead : Same mem mem' a (a + 4) := h.sub (Nat.le_refl _) (Nat.le_add_right _ _)
  have hslice : slice mem (rtaData a) (rtaPayload mem a) =
      slice mem' (rtaData a) (rtaPayload mem' a) := by
    rw [← rtaPayload_congr hhead]
    exact slice_congr (h.sub (Nat.le_add_right _ _) (Nat.le_refl _))
  rw [copyAttr, copyAttr, hslice]

/-- The attributes in an attribute. -/
theorem nestedAttrs_congr {a : Nat} (h : Same mem mem' a (rtaData a + rtaPayload mem a)) :
    nestedAttrs mem a = nestedAttrs mem' a := by
  have hhead : Same mem mem' a (a + 4) := h.sub (Nat.le_refl _) (Nat.le_add_right _ _)
  rw [nestedAttrs, nestedAttrs, ← rtaPayload_congr hhead]
  refine (Format.records_congr fun i hlo hhi => ?_).1
  have hfrom : a ≤ rtaData a := Nat.le_add_right _ _
  exact h i (by omega) (by omega)

theorem nlTalkAttr_congr (kindN aliasN : Nat) (said : LinkSaid) {a : Nat}
    (h : Same mem mem' a (rtaData a + rtaPayload mem a)) :
    nlTalkAttr mem kindN aliasN said a = nlTalkAttr mem' kindN aliasN said a := by
  have hhead : Same mem mem' a (a + 4) := h.sub (Nat.le_refl _) (Nat.le_add_right _ _)
  have hfrom : a ≤ rtaData a := Nat.le_add_right _ _
  -- The attributes within lie in this one.
  have hnested : (nestedAttrs mem a).foldl (fun said i =>
        if rtaType mem i = iflaInfoKind then { said with kind := copyAttr mem i said.kind kindN }
        else said) said =
      (nestedAttrs mem a).foldl (fun said i =>
        if rtaType mem' i = iflaInfoKind then
          { said with kind := copyAttr mem' i said.kind kindN }
        else said) said := by
    refine List.foldl_ext _ _ _ fun said i hi => ?_
    obtain ⟨hlo, hhi⟩ := attr_inside hi
    have hin : Same mem mem' i (rtaData i + rtaPayload mem i) := h.sub (by omega) (by omega)
    rw [rtaType_congr (hin.sub (Nat.le_refl _) (Nat.le_add_right _ _)), copyAttr_congr hin]
  rw [nlTalkAttr, nlTalkAttr, rtaType_congr hhead, copyAttr_congr h, hnested,
    nestedAttrs_congr h]

theorem nlmsgLen_congr {nh : Nat} (h : Same mem mem' nh (nh + 16)) :
    nlmsgLen mem nh = nlmsgLen mem' nh := Format.lengthAt_congr h

theorem nlmsgType_congr {nh : Nat} (h : Same mem mem' nh (nh + 16)) :
    nlmsgType mem nh = nlmsgType mem' nh := leAt_congr (h.sub (by omega) (by omega))

theorem intAt_congr {off : Nat} (h : Same mem mem' off (off + 4)) :
    intAt mem off = intAt mem' off := by
  rw [intAt, intAt, leAt_congr h]

theorem msgAttrs_congr {nh family : Nat} (hlen : 16 ≤ nlmsgLen mem nh)
    (h : Same mem mem' nh (nh + nlmsgLen mem nh)) :
    msgAttrs mem nh family = msgAttrs mem' nh family := by
  rw [msgAttrs, msgAttrs, ← nlmsgLen_congr (h.sub (Nat.le_refl _) (by omega))]
  refine (Format.records_congr fun i hlo hhi => ?_).1
  have hdata : nlmsgData nh = nh + 16 := rfl
  have hhead : (nlmsghdr.head : Int) = 16 := rfl
  exact h i (by omega) (by omega)

/-- The attributes of a message lie in it. -/
theorem msgAttrs_inside {nh family a : Nat} (h : a ∈ msgAttrs mem nh family) :
    nh ≤ a ∧ rtaData a + rtaPayload mem a ≤ nh + nlmsgLen mem nh := by
  obtain ⟨hlo, hhi⟩ := attr_inside h
  have hdata : nlmsgData nh = nh + 16 := rfl
  have hhead : (nlmsghdr.head : Int) = 16 := rfl
  omega

theorem nlTalkMsgs_congr (kindN aliasN : Nat) (said : LinkSaid) {msgs : List Nat} {n : Nat}
    (hsame : Same mem mem' 0 n)
    (hin : ∀ nh ∈ msgs, 16 ≤ nlmsgLen mem nh ∧ nh + nlmsgLen mem nh ≤ n) :
    nlTalkMsgs mem kindN aliasN said msgs = nlTalkMsgs mem' kindN aliasN said msgs := by
  induction msgs with
  | nil => rfl
  | cons nh rest ih =>
      obtain ⟨hlen, hhi⟩ := hin nh (List.mem_cons_self ..)
      have hmsg : Same mem mem' nh (nh + nlmsgLen mem nh) := hsame.sub (Nat.zero_le _) hhi
      have hhead : Same mem mem' nh (nh + 16) := hmsg.sub (Nat.le_refl _) (by omega)
      have hcode : (if nlmsgLen mem nh < nlmsghdr.head + 20 then -(eio : Int)
            else intAt mem (nlmsgData nh)) =
          if nlmsgLen mem' nh < nlmsghdr.head + 20 then -(eio : Int)
          else intAt mem' (nlmsgData nh) := by
        rw [← nlmsgLen_congr hhead]
        split
        · rfl
        · rename_i hlong
          have hdata : nlmsgData nh = nh + 16 := rfl
          have hhead20 : nlmsghdr.head + 20 = 36 := rfl
          exact intAt_congr (hmsg.sub (by omega) (by omega))
      have hattrs : (msgAttrs mem nh 16).foldl (nlTalkAttr mem kindN aliasN) said =
          (msgAttrs mem' nh 16).foldl (nlTalkAttr mem' kindN aliasN) said := by
        rw [← msgAttrs_congr hlen hmsg]
        refine List.foldl_ext _ _ _ fun said a ha => ?_
        obtain ⟨hlo, hto⟩ := msgAttrs_inside ha
        exact nlTalkAttr_congr kindN aliasN said (hmsg.sub hlo hto)
      rw [nlTalkMsgs, nlTalkMsgs, nlmsgType_congr hhead, hcode, hattrs,
        ih fun nh h => hin nh (List.mem_cons_of_mem _ h)]

theorem nlTalkRecvs_congr (kindN aliasN : Nat) (said : LinkSaid)
    {recvs recvs' : List (NlRecv nlTalkBuf)} (h : List.Forall₂ SameRecv recvs recvs') :
    nlTalkRecvs kindN aliasN said recvs = nlTalkRecvs kindN aliasN said recvs' := by
  induction h with
  | nil => rfl
  | cons hone _ ih =>
      cases hone with
      | error errno => rfl
      | @data d d' hd =>
          obtain ⟨hn, hsame⟩ := hd
          have hwalk : nlmsghdr.records d.mem 0 d.n = nlmsghdr.records d'.mem 0 d'.n := by
            rw [← hn]
            exact (Format.records_congr fun i hlo hhi => hsame i hlo (by omega)).1
          have hmsgs : nlTalkMsgs d.mem kindN aliasN said (nlmsghdr.records d.mem 0 d.n) =
              nlTalkMsgs d'.mem kindN aliasN said (nlmsghdr.records d.mem 0 d.n) := by
            refine nlTalkMsgs_congr kindN aliasN said hsame fun nh hnh => ?_
            obtain ⟨-, hlen, hhi⟩ := Format.records_inside hnh
            exact ⟨hlen, by rw [nlmsgLen]; omega⟩
          rw [nlTalkRecvs, nlTalkRecvs, hmsgs, hwalk, ih]

end

/-- **The answer is decided by the bytes received**: whatever these are, nothing that lies
behind them in the buffer is part of it. -/
theorem nl_talk_of_received {session session' : NlSession nlTalkBuf}
    (hsocket : session.socketErrno = session'.socketErrno)
    (hsend : session.sendErrno = session'.sendErrno)
    (hrecvs : List.Forall₂ SameRecv session.recvs session'.recvs)
    (kindN aliasN : Nat) (said : LinkSaid) :
    nlTalk session kindN aliasN said = nlTalk session' kindN aliasN said := by
  rw [nlTalk, nlTalk, hsocket, hsend, nlTalkRecvs_congr kindN aliasN said hrecvs]

/-- A datagram of these bytes, with those behind it in the buffer. -/
def datagramOf {cap : Nat} (bytes behind : List UInt8) (fits : bytes.length ≤ cap) :
    Datagram cap :=
  { mem := memOf (bytes ++ behind), n := bytes.length, fits }

theorem lies_datagramOf {cap : Nat} (bytes behind : List UInt8) (fits : bytes.length ≤ cap) :
    Lies (datagramOf bytes behind fits).mem 0 bytes :=
  (lies_append.mp (lies_memOf (bytes ++ behind))).1

theorem sameReply_datagramOf {cap : Nat} (bytes behind : List UInt8)
    (fits : bytes.length ≤ cap) :
    SameReply (datagramOf bytes [] fits) (datagramOf bytes behind fits) := by
  refine ⟨rfl, ?_⟩
  rw [datagramOf, datagramOf, List.append_nil]
  exact same_memOf bytes behind

/-- A message of 17 bytes, so that the count ends below zero, and a header behind it. -/
theorem nl_talk_of_received_short :
    nlTalk { recvs := [.data (datagramOf (17 :: List.replicate 16 0) [] (by decide))] } 8 8 {} =
      nlTalk { recvs := [.data (datagramOf (17 :: List.replicate 16 0)
        [0, 0, 0, 36, 0, 0, 0, 2] (by decide))] } 8 8 {} :=
  nl_talk_of_received rfl rfl (.cons (.data (sameReply_datagramOf _ _ _)) .nil) 8 8 {}

/-! ### Answers as the kernel packs them -/

/-- What an attribute, and a message, says it is. -/
def attrType (r : Record rtattr) : Nat := leOf r.rest

def msgType (m : Record nlmsghdr) : Nat := leOf (m.rest.take 2)

/-- The payloads of the attributes of one type. -/
def textsOf (type : Nat) (rs : List (Record rtattr)) : List (List UInt8) :=
  (rs.filter fun r => attrType r = type).map Record.body

/-- A link's attribute: the one that holds attributes itself, or any other. -/
inductive LinkAttr where
  | info (infos : List (Record rtattr))
      (fits : rtattr.head + (Record.pack infos).length < 256 ^ rtattr.wide)
  | plain (r : Record rtattr) (other : attrType r ≠ iflaLinkinfo)

namespace LinkAttr

def record : LinkAttr → Record rtattr
  | .info infos fits =>
    { rest := leBytes 2 iflaLinkinfo, body := Record.pack infos, headed := rfl, fits }
  | .plain r _ => r

/-- The attributes held. -/
def infos : LinkAttr → List (Record rtattr)
  | .info infos _ => infos
  | .plain _ _ => []

/-- The texts an attribute gives for the alias. -/
def aliases (attrs : List LinkAttr) : List (List UInt8) :=
  textsOf iflaIfalias (attrs.map record)

/-- The texts an attribute gives for the kind. -/
def kinds (attrs : List LinkAttr) : List (List UInt8) :=
  textsOf iflaInfoKind (attrs.flatMap infos)

end LinkAttr

/-- A message: its header behind the length, its family header, and its attributes. -/
structure LinkMessage where
  rest : List UInt8
  family : List UInt8
  attrs : List LinkAttr
  headed : nlmsghdr.wide + rest.length = nlmsghdr.head
  fits : nlmsghdr.head + (family ++ Record.pack (attrs.map LinkAttr.record)).length <
    256 ^ nlmsghdr.wide

def LinkMessage.record (m : LinkMessage) : Record nlmsghdr :=
  { rest := m.rest, body := m.family ++ Record.pack (m.attrs.map LinkAttr.record)
    headed := m.headed, fits := m.fits }

/-- What a buffer of `n` bytes holds of the last of these texts; without one, what it
held. -/
def copied (n : Nat) (old : List UInt8) (texts : List (List UInt8)) : List UInt8 :=
  if n = 0 then old
  else match texts.getLast? with
    | none => old
    | some text => (text.takeWhile (· ≠ 0)).take (n - 1)

section
variable {mem : Nat → UInt8}

theorem rtaType_of_lies {a : Nat} {r : Record rtattr} (h : Lies mem a r.bytes) :
    rtaType mem a = attrType r := by
  have hlen : r.rest.length = 2 := by
    have hhead := r.headed
    simp only [rtattr] at hhead
    omega
  have hrest := leAt_of_lies (Record.rest_lies h).1
  rw [hlen] at hrest
  exact hrest

theorem rtaPayload_of_lies {a : Nat} {r : Record rtattr} (h : Lies mem a r.bytes) :
    rtaPayload mem a = r.body.length := by
  rw [rtaPayload, Record.lengthAt_of_lies h, Record.length, Nat.add_sub_cancel_left]

theorem payload_of_lies {a : Nat} {r : Record rtattr} (h : Lies mem a r.bytes) :
    slice mem (rtaData a) (rtaPayload mem a) = r.body := by
  rw [rtaPayload_of_lies h]
  exact (Record.rest_lies h).2

/-- Attributes packed in an attribute are the ones found in it. -/
theorem nestedAttrs_lie {a : Nat} {r : Record rtattr} {infos : List (Record rtattr)}
    (h : Lies mem a r.bytes) (hbody : r.body = Record.pack infos) :
    Record.Lie mem (nestedAttrs mem a) infos := by
  rw [nestedAttrs, rtaPayload_of_lies h, hbody]
  exact (Record.records_pack (hbody ▸ (Record.rest_lies h).2)).1

theorem nlmsgType_of_lies {nh : Nat} {m : Record nlmsghdr} (h : Lies mem nh m.bytes) :
    nlmsgType mem nh = msgType m := by
  have hrest := (Record.rest_lies h).1
  have hlen : (m.rest.take 2).length = 2 := by
    have hhead := m.headed
    simp only [nlmsghdr] at hhead
    rw [List.length_take]
    omega
  rw [← List.take_append_drop 2 m.rest, lies_append] at hrest
  have htype := leAt_of_lies hrest.1
  rw [hlen] at htype
  exact htype

/-- Attributes packed behind a family header are the ones found in the message. -/
theorem msgAttrs_lie {nh : Nat} {m : Record nlmsghdr} (family : List UInt8)
    (attrs : List (Record rtattr)) (h : Lies mem nh m.bytes)
    (hbody : m.body = family ++ Record.pack attrs) :
    Record.Lie mem (msgAttrs mem nh family.length) attrs := by
  have hall := (Record.rest_lies h).2
  rw [hbody, lies_append] at hall
  have hroom : (nlmsgLen mem nh : Int) - (nlmsghdr.head + family.length) =
      (Record.pack attrs).length := by
    rw [nlmsgLen, Record.lengthAt_of_lies h, Record.length, hbody, List.length_append]
    push_cast
    omega
  rw [msgAttrs, hroom]
  exact (Record.records_pack hall.2).1

theorem copyAttr_of_lies {a : Nat} {r : Record rtattr} (h : Lies mem a r.bytes)
    (out : List UInt8) {n : Nat} (hn : n ≠ 0) :
    copyAttr mem a out n = (r.body.takeWhile (· ≠ 0)).take (n - 1) := by
  obtain ⟨text, htext⟩ : ∃ text, text = r.body.takeWhile (· ≠ 0) := ⟨_, rfl⟩
  have htake : ∀ k, k ≤ text.length → r.body.take k = text.take k := by
    intro k hk
    have hsplit : r.body = text ++ r.body.dropWhile (· ≠ 0) := by
      rw [htext, List.takeWhile_append_dropWhile]
    rw [hsplit, List.take_append_of_le_length hk]
  simp only [copyAttr, if_neg hn, payload_of_lies h, strnlen, ← htext]
  split
  · rename_i hlong
    exact htake _ (by omega)
  · rw [htake _ (Nat.le_refl _), List.take_of_length_le (Nat.le_refl _),
      List.take_of_length_le (by omega)]

end

/-! ### What is read of them -/

theorem copied_nil (n : Nat) (old : List UInt8) : copied n old [] = old := by
  simp [copied]

theorem copied_append (n : Nat) (old : List UInt8) (xs ys : List (List UInt8)) :
    copied n (copied n old xs) ys = copied n old (xs ++ ys) := by
  by_cases hn : n = 0
  · simp [copied, hn]
  · simp only [copied, if_neg hn, List.getLast?_append]
    cases ys.getLast? with
    | none => rfl
    | some y => rfl

theorem copied_of_lies {mem : Nat → UInt8} {a : Nat} {r : Record rtattr}
    (h : Lies mem a r.bytes) (old : List UInt8) (n : Nat) :
    copyAttr mem a old n = copied n old [r.body] := by
  by_cases hn : n = 0
  · simp [copyAttr, copied, hn]
  · rw [copyAttr_of_lies h old hn, copied, if_neg hn]
    rfl

theorem textsOf_append (type : Nat) (xs ys : List (Record rtattr)) :
    textsOf type (xs ++ ys) = textsOf type xs ++ textsOf type ys := by
  rw [textsOf, List.filter_append, List.map_append, ← textsOf, ← textsOf]

theorem textsOf_cons_pos {type : Nat} {r : Record rtattr} (h : attrType r = type)
    (rs : List (Record rtattr)) : textsOf type (r :: rs) = r.body :: textsOf type rs := by
  rw [textsOf, List.filter_cons_of_pos (by simpa using h), List.map_cons, ← textsOf]

theorem textsOf_cons_neg {type : Nat} {r : Record rtattr} (h : ¬ attrType r = type)
    (rs : List (Record rtattr)) : textsOf type (r :: rs) = textsOf type rs := by
  rw [textsOf, List.filter_cons_of_neg (by simpa using h), ← textsOf]

/-- The kinds of an attribute that holds attributes, in one buffer. -/
theorem foldl_kinds (kindN : Nat) (infos : List (Record rtattr)) (said : LinkSaid) :
    infos.foldl (fun said i => if attrType i = iflaInfoKind then
        { said with kind := copied kindN said.kind [i.body] } else said) said =
      { said with kind := copied kindN said.kind (textsOf iflaInfoKind infos) } := by
  induction infos generalizing said with
  | nil => rw [List.foldl_nil, textsOf, List.filter_nil, List.map_nil, copied_nil]
  | cons i infos ih =>
      rw [List.foldl_cons, ih]
      by_cases hi : attrType i = iflaInfoKind
      · rw [if_pos hi, textsOf_cons_pos hi, copied_append, List.singleton_append]
      · rw [if_neg hi, textsOf_cons_neg hi]

/-- What one attribute that lies there does to what is said. -/
theorem nlTalkAttr_of_lies {mem : Nat → UInt8} {a : Nat} (kindN aliasN : Nat) (said : LinkSaid)
    {attr : LinkAttr} (h : Lies mem a attr.record.bytes) :
    nlTalkAttr mem kindN aliasN said a =
      { kind := copied kindN said.kind (LinkAttr.kinds [attr])
        ifalias := copied aliasN said.ifalias (LinkAttr.aliases [attr]) } := by
  have htype := rtaType_of_lies h
  cases attr with
  | plain r other =>
      have hkinds : LinkAttr.kinds [.plain r other] = [] := rfl
      have haliases : LinkAttr.aliases [.plain r other] = textsOf iflaIfalias [r] := rfl
      rw [show (LinkAttr.plain r other).record = r from rfl] at h htype
      rw [hkinds, haliases, copied_nil, nlTalkAttr, htype]
      by_cases halias : attrType r = iflaIfalias
      · rw [if_pos halias, textsOf_cons_pos halias, copied_of_lies h]
        rfl
      · rw [if_neg halias, if_neg other, textsOf_cons_neg halias]
        exact congrArg (LinkSaid.mk said.kind) (copied_nil aliasN said.ifalias).symm
  | info infos fits =>
      have hinfo : attrType (LinkAttr.info infos fits).record = iflaLinkinfo :=
        leOf_leBytes (by decide)
      have hno : ¬ iflaLinkinfo = iflaIfalias := by decide
      have hnone : LinkAttr.aliases [.info infos fits] = [] := by
        rw [LinkAttr.aliases, List.map_cons, textsOf_cons_neg (by rw [hinfo]; exact hno)]
        rfl
      have hkinds : LinkAttr.kinds [.info infos fits] = textsOf iflaInfoKind infos := by
        rw [LinkAttr.kinds, List.flatMap_cons, List.flatMap_nil, List.append_nil,
          LinkAttr.infos]
      have hfold := (nestedAttrs_lie h rfl).foldl_eq
        (f := fun said i => if rtaType mem i = iflaInfoKind then
          { said with kind := copyAttr mem i said.kind kindN } else said)
        (g := fun said i => if attrType i = iflaInfoKind then
          { said with kind := copied kindN said.kind [i.body] } else said)
        (fun said o r _ hr => by rw [rtaType_of_lies hr, copied_of_lies hr]) said
      rw [nlTalkAttr, htype, hinfo, if_neg hno, if_pos rfl, hfold, foldl_kinds, hnone, hkinds,
        copied_nil]

theorem aliases_cons (attr : LinkAttr) (attrs : List LinkAttr) :
    LinkAttr.aliases (attr :: attrs) = LinkAttr.aliases [attr] ++ LinkAttr.aliases attrs :=
  textsOf_append iflaIfalias [attr.record] (attrs.map LinkAttr.record)

theorem kinds_cons (attr : LinkAttr) (attrs : List LinkAttr) :
    LinkAttr.kinds (attr :: attrs) = LinkAttr.kinds [attr] ++ LinkAttr.kinds attrs := by
  rw [LinkAttr.kinds, List.flatMap_cons, textsOf_append, LinkAttr.kinds, LinkAttr.kinds,
    List.flatMap_cons, List.flatMap_nil, List.append_nil]

/-- Of the attributes that lie there, the last alias and the last kind are read. -/
theorem foldl_nlTalkAttr {mem : Nat → UInt8} (kindN aliasN : Nat) {os : List Nat}
    {attrs : List LinkAttr} (h : Record.Lie mem os (attrs.map LinkAttr.record))
    (said : LinkSaid) :
    os.foldl (nlTalkAttr mem kindN aliasN) said =
      { kind := copied kindN said.kind (LinkAttr.kinds attrs)
        ifalias := copied aliasN said.ifalias (LinkAttr.aliases attrs) } := by
  induction attrs generalizing os said with
  | nil =>
      cases h
      have hkinds : LinkAttr.kinds [] = [] := rfl
      have haliases : LinkAttr.aliases [] = [] := rfl
      rw [List.foldl_nil, hkinds, haliases, copied_nil, copied_nil]
  | cons attr attrs ih =>
      rw [List.map_cons] at h
      cases h with
      | cons hone hrest =>
          rw [List.foldl_cons, nlTalkAttr_of_lies kindN aliasN said hone, ih hrest,
            aliases_cons attr attrs, kinds_cons attr attrs, ← copied_append, ← copied_append]

/-- A message that neither answers nor refuses. -/
def Passing (m : Record nlmsghdr) : Prop := msgType m ≠ nlmsgError ∧ msgType m ≠ rtmNewlink

/-- A datagram of passing messages only. -/
def PassingRecv : NlRecv nlTalkBuf → Prop
  | .error _ => False
  | .data d => ∃ ms : List (Record nlmsghdr), (∀ m ∈ ms, Passing m) ∧
      Lies d.mem 0 (Record.pack ms) ∧ d.n = (Record.pack ms).length

theorem nlTalkMsgs_passing {mem : Nat → UInt8} (kindN aliasN : Nat) (said : LinkSaid)
    {before : List (Record nlmsghdr)} (hpass : ∀ m ∈ before, Passing m) {os : List Nat}
    (os' : List Nat) (h : Record.Lie mem os before) :
    nlTalkMsgs mem kindN aliasN said (os ++ os') = nlTalkMsgs mem kindN aliasN said os' := by
  induction h with
  | nil => rfl
  | @cons o m os ms hone _ ih =>
      obtain ⟨hnoerr, hnolink⟩ := hpass m (List.mem_cons_self ..)
      rw [List.cons_append, nlTalkMsgs, nlmsgType_of_lies hone, if_neg hnoerr, if_pos hnolink]
      exact ih fun m hm => hpass m (List.mem_cons_of_mem _ hm)

theorem nlTalkRecvs_passing (kindN aliasN : Nat) (said : LinkSaid)
    {before rest : List (NlRecv nlTalkBuf)} (hpass : ∀ r ∈ before, PassingRecv r) :
    nlTalkRecvs kindN aliasN said (before ++ rest) = nlTalkRecvs kindN aliasN said rest := by
  induction before with
  | nil => rfl
  | cons r before ih =>
      have hr := hpass r (List.mem_cons_self ..)
      cases r with
      | error errno => exact hr.elim
      | data d =>
          obtain ⟨ms, hms, hlies, hn⟩ := hr
          have hwalk := (Record.records_pack hlies).1
          have hnone :
              nlTalkMsgs d.mem kindN aliasN said (nlmsghdr.records d.mem 0 d.n) = none := by
            have hthru := nlTalkMsgs_passing kindN aliasN said hms [] hwalk
            rw [List.append_nil] at hthru
            rw [hn, hthru]
            rfl
          rw [List.cons_append, nlTalkRecvs, hnone]
          exact ih fun r hr => hpass r (List.mem_cons_of_mem _ hr)

/-- A session that answers with this link: whatever passes before it, in earlier datagrams
or in its own, and whatever follows. -/
structure Answers (session : NlSession nlTalkBuf) (m : LinkMessage) : Prop where
  socket : session.socketErrno = none
  send : session.sendErrno = none
  link : msgType m.record = rtmNewlink
  family : m.family.length = 16
  received : ∃ early d late, session.recvs = early ++ .data d :: late ∧
    (∀ r ∈ early, PassingRecv r) ∧
    ∃ before after, (∀ p ∈ before, Passing p) ∧
      Lies d.mem 0 (Record.pack (before ++ m.record :: after)) ∧
      d.n = (Record.pack (before ++ m.record :: after)).length

/-- The messages of the datagram that answers. -/
theorem nlTalkMsgs_reads {mem : Nat → UInt8} {n : Nat} {before after : List (Record nlmsghdr)}
    {m : LinkMessage} (hbefore : ∀ p ∈ before, Passing p)
    (hlink : msgType m.record = rtmNewlink) (hfamily : m.family.length = 16)
    (hlies : Lies mem 0 (Record.pack (before ++ m.record :: after)))
    (hn : n = (Record.pack (before ++ m.record :: after)).length)
    (kindN aliasN : Nat) (said : LinkSaid) :
    nlTalkMsgs mem kindN aliasN said (nlmsghdr.records mem 0 n) =
      some (0, { kind := copied kindN said.kind (LinkAttr.kinds m.attrs)
                 ifalias := copied aliasN said.ifalias (LinkAttr.aliases m.attrs) }) := by
  have hwalk := (Record.records_pack hlies).1
  rw [← hn] at hwalk
  have hfirst := List.forall₂_take_append _ _ _ hwalk
  have hlast := List.forall₂_drop_append _ _ _ hwalk
  rw [← List.take_append_drop before.length (nlmsghdr.records mem 0 n),
    nlTalkMsgs_passing kindN aliasN said hbefore _ hfirst]
  obtain ⟨o, os, hone, -, hdrop⟩ := List.forall₂_cons_right_iff.mp hlast
  have hattrs := msgAttrs_lie (m := m.record) m.family (m.attrs.map LinkAttr.record) hone rfl
  rw [hfamily] at hattrs
  have hno : ¬ rtmNewlink = nlmsgError := by decide
  rw [hdrop, nlTalkMsgs, nlmsgType_of_lies hone, hlink, if_neg hno, if_neg (not_not.mpr rfl),
    foldl_nlTalkAttr kindN aliasN hattrs]

/-- **An answer the kernel packs is read right**: the last alias and the last kind of the
link, as far as the caller's buffers go. -/
theorem nl_talk_reads {session : NlSession nlTalkBuf} {m : LinkMessage}
    (h : Answers session m) (kindN aliasN : Nat) (said : LinkSaid) :
    nlTalk session kindN aliasN said =
      some (0, { kind := copied kindN said.kind (LinkAttr.kinds m.attrs)
                 ifalias := copied aliasN said.ifalias (LinkAttr.aliases m.attrs) }) := by
  obtain ⟨hsocket, hsend, hlink, hfamily, early, d, late, hrecvs, hearly, before, after,
    hbefore, hlies, hn⟩ := h
  rw [nlTalk, hsocket, hsend, hrecvs]
  simp only
  rw [nlTalkRecvs_passing kindN aliasN said hearly, nlTalkRecvs,
    nlTalkMsgs_reads hbefore hlink hfamily hlies hn]

/-! ### What is written is what is read back -/

/-- The attribute an alias is written as. -/
def aliasRecord (text : List UInt8) (fits : text.length < ifaliasz) : Record rtattr where
  rest := leBytes 2 iflaIfalias
  body := text
  headed := rfl
  fits := by
    have hsize : ifaliasz = 256 := rfl
    simp only [rtattr]
    omega

theorem attrType_aliasRecord (text : List UInt8) (fits : text.length < ifaliasz) :
    attrType (aliasRecord text fits) = iflaIfalias := leOf_leBytes (by decide)

/-- The attributes an alias is written with. -/
def aliasAttrs (text : List UInt8) (fits : text.length < ifaliasz) : List LinkAttr :=
  [.plain (aliasRecord text fits) (by rw [attrType_aliasRecord]; decide)]

theorem pack_aliasAttrs (text : List UInt8) (fits : text.length < ifaliasz) :
    Record.pack ((aliasAttrs text fits).map LinkAttr.record) =
      leBytes 2 (rtattr.head + text.length) ++ leBytes 2 iflaIfalias ++ text ++
        List.replicate (rtattr.up (rtattr.head + text.length) - (rtattr.head + text.length)) 0 := by
  have hone : (aliasAttrs text fits).map LinkAttr.record = [aliasRecord text fits] := rfl
  have hwide : rtattr.wide = 2 := rfl
  rw [hone, Record.pack, List.flatMap_cons, List.flatMap_nil, List.append_nil, Record.bytes,
    Record.padding, Record.length, hwide]
  simp only [aliasRecord, List.append_assoc]

theorem length_ifinfomsg (idx : Nat) : (ifinfomsg idx).length = 16 := by
  simp [ifinfomsg]

theorem aliasAttrs_room (text : List UInt8) (fits : text.length < ifaliasz) :
    rtattr.head + text.length ≤ rtattr.up (rtattr.head + text.length) ∧
      rtattr.up (rtattr.head + text.length) ≤ rtattr.up (rtattr.head + ifaliasz) :=
  ⟨rtattr.le_up _, Format.up_mono (by omega)⟩

theorem length_pack_aliasAttrs (text : List UInt8) (fits : text.length < ifaliasz) :
    (Record.pack ((aliasAttrs text fits).map LinkAttr.record)).length =
      rtattr.up (rtattr.head + text.length) := by
  have hroom := (aliasAttrs_room text fits).1
  have hhead : rtattr.head = 4 := rfl
  rw [pack_aliasAttrs]
  simp only [List.length_append, leBytes_length, List.length_replicate]
  omega

/-- The message an alias is written with. -/
def aliasMessage (idx : Nat) (text : List UInt8) (fits : text.length < ifaliasz) :
    LinkMessage where
  rest := leBytes 2 rtmNewlink ++ leBytes 2 (nlmFRequest + nlmFAck) ++ leBytes 4 1 ++ leBytes 4 0
  family := ifinfomsg idx
  attrs := aliasAttrs text fits
  headed := rfl
  fits := by
    have hpack := length_pack_aliasAttrs text fits
    have hup := (aliasAttrs_room text fits).2
    have hmost : rtattr.up (rtattr.head + ifaliasz) = 260 := rfl
    have hwide : 256 ^ nlmsghdr.wide = 4294967296 := rfl
    have hhead : nlmsghdr.head = 16 := rfl
    rw [List.length_append, length_ifinfomsg, hpack]
    omega

/-- **The request of a write is that message**, and no longer than the struct it is built
in. -/
theorem aliasWriteRequest_eq (idx : Nat) (text : List UInt8) (fits : text.length < ifaliasz) :
    aliasWriteRequest idx text = Record.pack [(aliasMessage idx text fits).record] ∧
      (aliasWriteRequest idx text).length ≤ 16 + 16 + rtattr.up (rtattr.head + ifaliasz) := by
  obtain ⟨m, hm⟩ : ∃ m, m = (aliasMessage idx text fits).record := ⟨_, rfl⟩
  have hbody : m.body = ifinfomsg idx ++
      Record.pack ((aliasAttrs text fits).map LinkAttr.record) := by rw [hm]; rfl
  have hlen : m.length = nlmsghdr.head + 16 + rtattr.up (rtattr.head + text.length) := by
    rw [Record.length, hbody, List.length_append, length_ifinfomsg, length_pack_aliasAttrs,
      Nat.add_assoc]
  have hpad : m.padding = [] := by
    have hdvd : nlmsghdr.align ∣ m.length := by
      rw [hlen]
      exact Nat.dvd_add (by decide) (rtattr.dvd_up _)
    rw [Record.padding, Format.up_of_dvd hdvd, Nat.sub_self, List.replicate_zero]
  have hsame : aliasWriteRequest idx text = Record.pack [m] := by
    rw [Record.pack, List.flatMap_cons, List.flatMap_nil, List.append_nil, hpad, List.append_nil,
      Record.bytes, hbody, hlen, pack_aliasAttrs, hm]
    simp [aliasWriteRequest, nlRequest, aliasMessage, LinkMessage.record, nlmsghdr]
  refine ⟨by rw [hsame, hm], ?_⟩
  have hroom := (aliasAttrs_room text fits).2
  have hhead : nlmsghdr.head = 16 := rfl
  rw [hsame, Record.pack, List.flatMap_cons, List.flatMap_nil, List.append_nil, hpad,
    List.append_nil, Record.bytes_length, hlen]
  omega

/-- **The alias that is written is the alias that is read back.**  A write sends the kernel
one message with the alias in it; every answer that carries it, ended or not, gives it back
whole, in a buffer it fits. -/
theorem alias_round_trip (host : NlHost) {name text : List UInt8} (hname : name ≠ [])
    (hidx : host.ifNametoindex name ≠ 0) (fits : text.length < ifaliasz) (hnul : 0 ∉ text) :
    reacLinkAliasWrite host (some name) (some text) =
        nlAsk host
          (Record.pack [(aliasMessage (host.ifNametoindex name) text fits).record]) 0 0 {} ∧
      ∀ (m : LinkMessage) (kindN aliasN : Nat) (said : LinkSaid), text.length < aliasN →
        (LinkAttr.aliases m.attrs).getLast? = some text ∨
          (LinkAttr.aliases m.attrs).getLast? = some (text ++ [0]) →
        Answers (host.talk (aliasReadRequest (host.ifNametoindex name))) m →
        ((reacLinkAliasRead host (some name) kindN aliasN said).back.map fun out =>
            (out.1, out.2.ifalias)) = some (0, text) := by
  refine ⟨?_, ?_⟩
  · have hroom : ¬ ifaliasz ≤ text.length := by omega
    rw [reacLinkAliasWrite, if_neg hname, if_neg hroom, if_neg hidx,
      (aliasWriteRequest_eq (host.ifNametoindex name) text fits).1]
  · intro m kindN aliasN said hbig haliases hanswers
    have hn : ¬ aliasN = 0 := by omega
    have hwhole : ∀ old, copied aliasN old (LinkAttr.aliases m.attrs) = text := by
      intro old
      have hall : text.takeWhile (· ≠ 0) = text := by
        refine List.takeWhile_eq_self_iff.mpr fun b hb => decide_eq_true ?_
        rintro rfl
        exact hnul hb
      have hended : (text ++ [0]).takeWhile (· ≠ 0) = text := by
        rw [List.takeWhile_append, hall, if_pos rfl]
        simp
      rw [copied, if_neg hn]
      rcases haliases with hlast | hlast
      · rw [hlast]
        simp only
        rw [hall, List.take_of_length_le (by omega)]
      · rw [hlast]
        simp only
        rw [hended, List.take_of_length_le (by omega)]
    rw [reacLinkAliasRead, if_neg hname, if_neg hidx, nlAsk, nl_talk_reads hanswers,
      Option.map_some, hwhole]

/-- A VLAN's kind, ended. -/
def vlanKind : LinkAttr :=
  .info [{ rest := leBytes 2 iflaInfoKind, body := [118, 108, 97, 110, 0]
           headed := rfl, fits := by decide }] (by decide)

/-- A VLAN's answer, its kind and its alias both ended. -/
def vlanAnswer : LinkMessage where
  rest := leBytes 2 rtmNewlink ++ List.replicate 10 0
  family := List.replicate 16 0
  attrs :=
    [vlanKind,
      .plain { rest := leBytes 2 iflaIfalias, body := [114, 101, 97, 99, 0]
               headed := rfl, fits := by decide } (by decide)]
  headed := rfl
  fits := by decide

def vlanHost : NlHost where
  ifNametoindex := fun _ => 7
  talk := fun _ =>
    { recvs := [.data (datagramOf (Record.pack [vlanAnswer.record]) [] (by decide))] }

theorem alias_round_trip_vlan :
    ((reacLinkAliasRead vlanHost (some [101]) 16 16 {}).back.map fun out =>
      (out.1, out.2.ifalias)) = some (0, [114, 101, 97, 99]) :=
  (alias_round_trip vlanHost (by decide) (by decide) (by decide) (by decide)).2 vlanAnswer 16 16
    {} (by decide) (Or.inr (by decide))
    { socket := rfl
      send := rfl
      link := by decide
      family := rfl
      received := ⟨[], _, [], rfl, by simp, [], [], by simp, lies_datagramOf _ _ _, rfl⟩ }

end ReacPw
