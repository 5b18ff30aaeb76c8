/-
What the daemon asks of rtnetlink (`reac_link_alias`, `reac_link_owner`).

Three questions: one link's kind and alias, a new alias for it, and whose an interface is,
which is three dumps.  An answer is datagrams in a buffer, messages in a datagram,
attributes in a message and, for a link's kind, attributes in an attribute; each is a record
headed by its length.  What lies behind a datagram in its buffer is whatever was there.

Numbers are in the host's byte order, low byte first.  The socket's calls and the table of
interface names are the kernel's: what they answer is a parameter.
-/
import ReacPw.Lib.Records
import ReacPw.Qdisc
import ReacPw.WakeDriver

namespace ReacPw

open Records

/-! ### The headers -/

/-- `struct nlmsghdr`. -/
def nlmsghdr : Format where
  head := 16
  wide := 4
  align := 4
  wide_le := by decide
  head_pos := by decide
  align_pos := by decide

/-- `struct rtattr`. -/
def rtattr : Format where
  head := 4
  wide := 2
  align := 4
  wide_le := by decide
  head_pos := by decide
  align_pos := by decide

def nlmsgError : Nat := 2
def nlmsgDone : Nat := 3
def rtmNewlink : Nat := 16
def rtmGetlink : Nat := 18
def rtmNewaddr : Nat := 20
def rtmNewroute : Nat := 24

def iflaLink : Nat := 5
def iflaMaster : Nat := 10
def iflaLinkinfo : Nat := 18
def iflaIfalias : Nat := 20
def iflaLinkNetnsid : Nat := 37
def iflaInfoKind : Nat := 1
def rtaOif : Nat := 4

def nlmFRequest : Nat := 1
def nlmFAck : Nat := 4

def eintr : Int := 4
def enametoolong : Int := 36

/-- `(int)` of a 32-bit number. -/
def asInt (n : Nat) : Int := if n < 2 ^ 31 then n else (n : Int) - 2 ^ 32

section
variable (mem : Nat → UInt8)

/-- An `int` at this place. -/
def intAt (off : Nat) : Int := asInt (leAt mem off 4)

def nlmsgLen (nh : Nat) : Nat := nlmsghdr.lengthAt mem nh
def nlmsgType (nh : Nat) : Nat := leAt mem (nh + 4) 2
def nlmsgData (nh : Nat) : Nat := nh + nlmsghdr.head

def rtaType (a : Nat) : Nat := leAt mem (a + 2) 2
def rtaData (a : Nat) : Nat := a + rtattr.head
def rtaPayload (a : Nat) : Nat := rtattr.lengthAt mem a - rtattr.head

/-- The attributes behind a family header of this size. -/
def msgAttrs (nh family : Nat) : List Nat :=
  rtattr.records mem (nlmsgData nh + family) ((nlmsgLen mem nh : Int) - (nlmsghdr.head + family))

/-- The attributes in an attribute. -/
def nestedAttrs (a : Nat) : List Nat := rtattr.records mem (rtaData a) (rtaPayload mem a)

end

/-- How far a C string of at most these bytes goes. -/
def strnlen (bytes : List UInt8) : Nat := (bytes.takeWhile (· ≠ 0)).length

/-! ### The socket -/

/-- A datagram in a buffer of `cap` bytes. -/
structure Datagram (cap : Nat) where
  mem : Nat → UInt8
  n : Nat
  fits : n ≤ cap

/-- What one `recv` gives. -/
inductive NlRecv (cap : Nat) where
  | error (errno : Int)
  | data (d : Datagram cap)

/-- What the calls on one socket give: `socket`, `send`, and one `recv` after the other. -/
structure NlSession (cap : Nat) where
  socketErrno : Option Int := none
  sendErrno : Option Int := none
  recvs : List (NlRecv cap)

/-! ### The alias (`reac_link_alias`) -/

def ifaliasz : Nat := 256
def nlTalkBuf : Nat := 16384

/-- The caller's two buffers, as the texts in them. -/
structure LinkSaid where
  kind : List UInt8 := []
  ifalias : List UInt8 := []
  deriving DecidableEq, Repr

/-- `copy_attr`: into a buffer of `n` bytes; of no bytes is also a buffer that is not there. -/
def copyAttr (mem : Nat → UInt8) (a : Nat) (out : List UInt8) (n : Nat) : List UInt8 :=
  if n = 0 then out
  else
    let s := slice mem (rtaData a) (rtaPayload mem a)
    let k := strnlen s
    s.take (if n ≤ k then n - 1 else k)

section
variable (mem : Nat → UInt8) (kindN aliasN : Nat)

/-- One attribute of a `RTM_NEWLINK`. -/
def nlTalkAttr (said : LinkSaid) (a : Nat) : LinkSaid :=
  if rtaType mem a = iflaIfalias then { said with ifalias := copyAttr mem a said.ifalias aliasN }
  else if rtaType mem a = iflaLinkinfo then
    (nestedAttrs mem a).foldl (fun said i =>
      if rtaType mem i = iflaInfoKind then { said with kind := copyAttr mem i said.kind kindN }
      else said) said
  else said

/-- The messages of one datagram, up to the one that answers. -/
def nlTalkMsgs (said : LinkSaid) : List Nat → Option (Int × LinkSaid)
  | [] => none
  | nh :: rest =>
    if nlmsgType mem nh = nlmsgError then
      some (if nlmsgLen mem nh < nlmsghdr.head + 20 then -(eio : Int)
            else intAt mem (nlmsgData nh), said)
    else if nlmsgType mem nh ≠ rtmNewlink then nlTalkMsgs said rest
    else some (0, (msgAttrs mem nh 16).foldl (nlTalkAttr mem kindN aliasN) said)

end

/-- `recv` until a message answers; with nothing more to receive it waits. -/
def nlTalkRecvs (kindN aliasN : Nat) (said : LinkSaid) :
    List (NlRecv nlTalkBuf) → Option (Int × LinkSaid)
  | [] => none
  | .error errno :: _ => some (-errno, said)
  | .data d :: rest =>
    match nlTalkMsgs d.mem kindN aliasN said (nlmsghdr.records d.mem 0 d.n) with
    | some out => some out
    | none => nlTalkRecvs kindN aliasN said rest

/-- `nl_talk`. -/
def nlTalk (session : NlSession nlTalkBuf) (kindN aliasN : Nat) (said : LinkSaid) :
    Option (Int × LinkSaid) :=
  match session.socketErrno with
  | some errno => some (-errno, said)
  | none =>
    match session.sendErrno with
    | some errno => some (-errno, said)
    | none => nlTalkRecvs kindN aliasN said session.recvs

/-- `struct ifinfomsg` of this index, all else zero. -/
def ifinfomsg (idx : Nat) : List UInt8 := List.replicate 4 0 ++ leBytes 4 idx ++ List.replicate 8 0

/-- `struct nlmsghdr` of a request, whole. -/
def nlRequest (len type flags : Nat) : List UInt8 :=
  leBytes 4 len ++ (leBytes 2 type ++ leBytes 2 flags ++ leBytes 4 1 ++ leBytes 4 0)

/-- The request of `reac_link_alias_read`. -/
def aliasReadRequest (idx : Nat) : List UInt8 :=
  nlRequest (nlmsghdr.head + 16) rtmGetlink nlmFRequest ++ ifinfomsg idx

/-- The request of `reac_link_alias_write`. -/
def aliasWriteRequest (idx : Nat) (text : List UInt8) : List UInt8 :=
  nlRequest (nlmsghdr.head + 16 + rtattr.up (rtattr.head + text.length)) rtmNewlink
      (nlmFRequest + nlmFAck) ++
    (ifinfomsg idx ++
      (leBytes 2 (rtattr.head + text.length) ++ leBytes 2 iflaIfalias ++ text ++
        List.replicate (rtattr.up (rtattr.head + text.length) - (rtattr.head + text.length)) 0))

/-- The kernel, as these two ask it. -/
structure NlHost where
  ifNametoindex : List UInt8 → Nat
  /-- What a session whose request is this one gives. -/
  talk : List UInt8 → NlSession nlTalkBuf

/-- What a call sent, and what it came back with, if it did. -/
structure NlAsked where
  sent : List (List UInt8) := []
  back : Option (Int × LinkSaid)

section
variable (host : NlHost)

/-- One request, sent and answered. -/
def nlAsk (req : List UInt8) (kindN aliasN : Nat) (said : LinkSaid) : NlAsked where
  sent := if (host.talk req).socketErrno.isSome then [] else [req]
  back := nlTalk (host.talk req) kindN aliasN said

/-- `reac_link_alias_read`; a buffer of no bytes is one that is not there. -/
def reacLinkAliasRead (name : Option (List UInt8)) (kindN aliasN : Nat) (said : LinkSaid) :
    NlAsked :=
  let said : LinkSaid :=
    { kind := if kindN = 0 then said.kind else []
      ifalias := if aliasN = 0 then said.ifalias else [] }
  match name with
  | none => { back := some (-(einval : Int), said) }
  | some name =>
    if name = [] then { back := some (-(einval : Int), said) }
    else if host.ifNametoindex name = 0 then { back := some (-(enodev : Int), said) }
    else nlAsk host (aliasReadRequest (host.ifNametoindex name)) kindN aliasN said

/-- `reac_link_alias_write`. -/
def reacLinkAliasWrite (name text : Option (List UInt8)) : NlAsked :=
  match name, text with
  | some name, some text =>
    if name = [] then { back := some (-(einval : Int), {}) }
    else if ifaliasz ≤ text.length then { back := some (-enametoolong, {}) }
    else if host.ifNametoindex name = 0 then { back := some (-(enodev : Int), {}) }
    else nlAsk host (aliasWriteRequest (host.ifNametoindex name) text) 0 0 {}
  | _, _ => { back := some (-(einval : Int), {}) }

end

/-! ### Whose an interface is (`reac_link_owner`) -/

/-- `struct reac_link_owner_facts`. -/
structure LinkOwnerFacts where
  addrs : Nat := 0
  stacked : Nat := 0
  defaultRoutes : Nat := 0
  err : Int := 0
  deriving DecidableEq, Repr

/-- `reac_link_owner_verdict`; `none` is a null pointer. -/
def reacLinkOwnerVerdict : Option LinkOwnerFacts → LinkOwner
  | none => .unread
  | some f =>
    if f.err ≠ 0 then .unread
    else if 0 < f.addrs then .addr
    else if 0 < f.stacked then .stacked
    else if 0 < f.defaultRoutes then .route
    else .bare

def nlDumpBuf : Nat := 65536
def rtScopeLink : Nat := 253
def rtnUnicast : Nat := 1

/-- `(unsigned)n`, as the top of the dump's loop sees what is left. -/
def asUnsigned (n : Int) : Int := n % 2 ^ 32

/-- The messages up to the one that ends the dump, handed on; what ended it, if one did. -/
def nlDumpMsgs {σ : Type*} (mem : Nat → UInt8) (fn : σ → Nat → σ) (ctx : σ) :
    List Nat → σ × Option Int
  | [] => (ctx, none)
  | nh :: rest =>
    if nlmsgType mem nh = nlmsgDone then (ctx, some 0)
    else if nlmsgType mem nh = nlmsgError then
      (ctx, some (if intAt mem (nlmsgData nh) ≠ 0 then intAt mem (nlmsgData nh)
        else -(eio : Int)))
    else nlDumpMsgs mem fn (fn ctx nh) rest

/-- The messages the loop over one datagram comes to, of at most so many. -/
def dumpWalk (fuel : Nat) (d : Datagram nlDumpBuf) : List Nat :=
  (nlmsghdr.walk asUnsigned d.mem fuel 0 d.n).1

/-- `recv` until a message ends the dump. -/
def nlDumpRecvs {σ : Type*} (fuel : Nat) (fn : (Nat → UInt8) → σ → Nat → σ) (ctx : σ) :
    List (NlRecv nlDumpBuf) → Option (σ × Int)
  | [] => none
  | .error errno :: rest =>
    if errno = eintr then nlDumpRecvs fuel fn ctx rest else some (ctx, -errno)
  | .data d :: rest =>
    if d.n = 0 then some (ctx, -(eio : Int))
    else
      let turn := nlDumpMsgs d.mem (fn d.mem) ctx (dumpWalk fuel d)
      match turn.2 with
      | some rc => some (turn.1, rc)
      | none => nlDumpRecvs fuel fn turn.1 rest

/-- `nl_dump`, of a family header that fits the request. -/
def nlDump {σ : Type*} (fuel : Nat) (session : NlSession nlDumpBuf)
    (fn : (Nat → UInt8) → σ → Nat → σ) (ctx : σ) : Option (σ × Int) :=
  match session.socketErrno with
  | some errno => some (ctx, -errno)
  | none =>
    match session.sendErrno with
    | some errno => some (ctx, -errno)
    | none => nlDumpRecvs fuel fn ctx session.recvs

/-- `on_addr`. -/
def onAddr (idx : Int) (mem : Nat → UInt8) (f : LinkOwnerFacts) (nh : Nat) : LinkOwnerFacts :=
  if nlmsgType mem nh ≠ rtmNewaddr then f
  else if intAt mem (nlmsgData nh + 4) ≠ idx then f
  else if (mem (nlmsgData nh + 3)).toNat < rtScopeLink then { f with addrs := f.addrs + 1 }
  else f

/-- What `on_link` gathers of one link. -/
structure LinkAttrsSeen where
  link : Int := 0
  otherNs : Bool := false
  master : Bool := false
  kind : List UInt8 := []
  deriving DecidableEq, Repr

def ownerKindBuf : Nat := 32

/-- One attribute of `on_link`. -/
def onLinkAttr (mem : Nat → UInt8) (seen : LinkAttrsSeen) (a : Nat) : LinkAttrsSeen :=
  if rtaType mem a = iflaLink ∧ 4 ≤ rtaPayload mem a then
    { seen with link := intAt mem (rtaData a) }
  else if rtaType mem a = iflaLinkNetnsid then { seen with otherNs := true }
  else if rtaType mem a = iflaMaster then { seen with master := true }
  else if rtaType mem a = iflaLinkinfo then
    (nestedAttrs mem a).foldl (fun seen i =>
      if rtaType mem i = iflaInfoKind then
        let k := if ownerKindBuf ≤ rtaPayload mem i then ownerKindBuf - 1 else rtaPayload mem i
        let kind := slice mem (rtaData i) k
        { seen with kind := kind.take (strnlen kind) }
      else seen) seen
  else seen

/-- `"vlan"`, `"macvlan"`, `"macvtap"`, `"ipvlan"`. -/
def stackingKinds : List (List UInt8) :=
  [[118, 108, 97, 110], [109, 97, 99, 118, 108, 97, 110], [109, 97, 99, 118, 116, 97, 112],
    [105, 112, 118, 108, 97, 110]]

/-- `on_link`. -/
def onLink (idx : Int) (mem : Nat → UInt8) (f : LinkOwnerFacts) (nh : Nat) : LinkOwnerFacts :=
  if nlmsgType mem nh ≠ rtmNewlink then f
  else
    let seen := (msgAttrs mem nh 16).foldl (onLinkAttr mem) {}
    if intAt mem (nlmsgData nh + 4) = idx then
      if seen.master then { f with stacked := f.stacked + 1 } else f
    else if seen.link ≠ idx ∨ seen.otherNs = true then f
    else if stackingKinds.contains seen.kind then { f with stacked := f.stacked + 1 }
    else f

/-- `on_route`. -/
def onRoute (idx : Int) (mem : Nat → UInt8) (f : LinkOwnerFacts) (nh : Nat) : LinkOwnerFacts :=
  if nlmsgType mem nh ≠ rtmNewroute then f
  else if mem (nlmsgData nh + 1) ≠ 0 ∨ (mem (nlmsgData nh + 7)).toNat ≠ rtnUnicast then f
  else
    (msgAttrs mem nh 12).foldl (fun f a =>
      if rtaType mem a = rtaOif ∧ 4 ≤ rtaPayload mem a ∧ intAt mem (rtaData a) = idx then
        { f with defaultRoutes := f.defaultRoutes + 1 }
      else f) f

/-- The kernel, as the owner's read asks it: its three dumps. -/
structure OwnerHost where
  ifNametoindex : List UInt8 → Nat
  addrDump : NlSession nlDumpBuf
  linkDump : NlSession nlDumpBuf
  routeDump : NlSession nlDumpBuf

/-- `reac_link_owner_read`: the facts and the verdict, once the dumps have been answered. -/
def reacLinkOwnerRead (fuel : Nat) (host : OwnerHost) (ifname : Option (List UInt8)) :
    Option (LinkOwnerFacts × LinkOwner) :=
  match ifname with
  | none => some ({ err := -(einval : Int) }, .unread)
  | some name =>
    if name = [] then some ({ err := -(einval : Int) }, .unread)
    else if host.ifNametoindex name = 0 then some ({ err := -(enodev : Int) }, .unread)
    else
      let idx := asInt (host.ifNametoindex name)
      match nlDump fuel host.addrDump (onAddr idx) {} with
      | none => none
      | some (f, rc) =>
        if rc ≠ 0 then some ({ f with err := rc }, .unread)
        else
          match nlDump fuel host.linkDump (onLink idx) f with
          | none => none
          | some (f, rc) =>
            if rc ≠ 0 then some ({ f with err := rc }, .unread)
            else
              match nlDump fuel host.routeDump (onRoute idx) f with
              | none => none
              | some (f, rc) =>
                if rc ≠ 0 then some ({ f with err := rc }, .unread)
                else some (f, reacLinkOwnerVerdict (some f))

end ReacPw
