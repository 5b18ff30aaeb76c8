/-
What the hearing itself holds: a sniffer for each interface it listens on, a topology tap
for each parent, and the netlink watch (`sniffer_open_ex`, `sniffer_close`, the knock's
sender and timer, `topo_watch_iface`, `topo_unwatch_iface`, `hearing_start`,
`hearing_stop`).

The slots are the struct's own arrays, whose first byte of the name says whether a slot is
free.  A name is an interface's, so it is not empty and no buffer cuts it.  The account of
a slot is kept beside it: `memset` writes the descriptors over and closes none.

A callback runs while its source is live, whatever the slot says.  What the world answers
at each acquisition is an input, and so is what the poll decides about a wire.
-/
import ReacPw.Lib.Owned
import ReacPw.Lib.Run
import ReacPw.ServedMark
import ReacPw.Topo

namespace ReacPw

deriving instance DecidableEq for LinkName

/-! ### The resources -/

/-- What a sniffer acquires. -/
inductive SniffRes where
  | capture
  /-- The loop's source on the capture's socket. -/
  | io
  /-- The knock's sender. -/
  | knockFd
  | knockTimer
  deriving DecidableEq, Repr

def SniffRes.uses : SniffRes → SniffRes → Bool
  | .io, .capture => true
  | _, _ => false

inductive TapRes where
  | tap
  | io
  deriving DecidableEq, Repr

def TapRes.uses : TapRes → TapRes → Bool
  | .io, .tap => true
  | _, _ => false

/-- What the hearing holds of its own. -/
inductive ScanRes where
  | scan
  /-- `nl_io`. -/
  | io
  deriving DecidableEq, Repr

def ScanRes.uses : ScanRes → ScanRes → Bool
  | .io, .scan => true
  | _, _ => false

abbrev SnifferHold := OwnedSlot LinkName SniffRes

abbrev TapHold := OwnedSlot LinkName TapRes

/-! ### A sniffer -/

structure SniffAnswers where
  opens : Bool
  ioAdded : Bool
  deriving DecidableEq, Repr

namespace SnifferHold

/-- `sniffer_open_ex`, in the slot it found. -/
def opening (sn : SnifferHold) (name : LinkName) (a : SniffAnswers) : SnifferHold :=
  let sn := sn.wiped
  if !a.opens then sn.wiped
  else
    -- its address is read through its socket
    let sn : SnifferHold :=
      { key := some name, own := (sn.own.take [] .capture).touch [.capture] }
    if !a.ioAdded then (sn.books (Account.stop SniffRes.uses .capture)).wiped
    else sn.books (Account.take [.capture] .io)

/-- `sniffer_close`, of the slot it found. -/
def closing (sn : SnifferHold) : SnifferHold :=
  (sn.books fun A =>
    (A.freeAll SniffRes.uses [.io, .knockFd, .knockTimer]).stop SniffRes.uses .capture).wiped

/-- `knock_arm`: a timer that there is is updated. -/
def knockArm (sn : SnifferHold) : SnifferHold :=
  if .knockTimer ∈ sn.own.held then sn.books (Account.touch [.knockTimer]) else sn

/-- `knock_start`. -/
def knockStart (sn : SnifferHold) (opens timerMade : Bool) : SnifferHold :=
  if .knockFd ∉ sn.own.held ∧ opens = false then sn
  else
    let sn := if .knockFd ∈ sn.own.held then sn else sn.books (Account.take [] .knockFd)
    let sn :=
      if .knockTimer ∉ sn.own.held ∧ timerMade = true then sn.books (Account.take [] .knockTimer)
      else sn
    knockArm sn

/-- `knock_stop`. -/
def knockStop (sn : SnifferHold) : SnifferHold :=
  knockArm (sn.books (Account.free SniffRes.uses .knockFd))

/-- `sniffer_drain`: the socket is read, and an answer ends the knock. -/
def drain (sn : SnifferHold) (answered : Bool) : SnifferHold :=
  let sn := sn.books (Account.touch [.capture])
  if answered then knockStop sn else sn

/-- `on_knock_timer`. -/
def onKnockTimer (sn : SnifferHold) : SnifferHold :=
  if .knockFd ∉ sn.own.held then sn else knockArm (sn.books (Account.touch [.knockFd]))

end SnifferHold

/-- What the poll's hunt does with a sniffer's knock. -/
inductive HuntKnock where
  | leaves
  | stops
  | starts (opens timerMade : Bool)
  deriving DecidableEq, Repr

/-- `hearing_hunt` on one slot. -/
def SnifferHold.hunted (sn : SnifferHold) (answered : Bool) (k : HuntKnock) : SnifferHold :=
  if sn.key = none then sn
  else
    let sn := SnifferHold.drain sn answered
    match k with
    | .leaves => sn
    | .stops => SnifferHold.knockStop sn
    | .starts opens timerMade => SnifferHold.knockStart sn opens timerMade

/-! ### A tap -/

/-- What the world and the topology table answer while a tap is opened. -/
structure TapAnswers extends WatchAnswers where
  /-- `tap_is_vlan_of_watched`. -/
  vlanOf : Bool
  /-- The table has a row for it. -/
  row : Bool
  deriving DecidableEq, Repr

namespace TapHold

/-- `topo_watch_iface`, in the slot it found.  The tap is opened before the slot is written
over, and moves into it. -/
def opening (tp : TapHold) (name : LinkName) (a : TapAnswers) : TapHold :=
  if !a.opens then tp
  else if !a.row || a.ifindex = 0 then
    tp.books fun A => (A.take [] .tap).stop TapRes.uses .tap
  else
    let tp := tp.wiped
    -- it is told to ignore what we send
    let tp : TapHold := { key := some name, own := (tp.own.take [] .tap).touch [.tap] }
    if !a.ioAdded then (tp.books (Account.stop TapRes.uses .tap)).wiped
    else tp.books (Account.take [.tap] .io)

/-- `topo_unwatch_iface`, of the slot it found. -/
def closing (tp : TapHold) : TapHold :=
  (tp.books fun A => (A.free TapRes.uses .io).stop TapRes.uses .tap).wiped

end TapHold

/-! ### The hearing -/

structure Ears (n m : Nat) where
  enabled : Bool
  own : Account ScanRes
  sniff : Fin n → SnifferHold
  taps : Fin m → TapHold

namespace Ears

variable {n m : Nat}

def setSniff (h : Ears n m) (i : Fin n) (sn : SnifferHold) : Ears n m :=
  { h with sniff := Function.update h.sniff i sn }

def setTap (h : Ears n m) (j : Fin m) (tp : TapHold) : Ears n m :=
  { h with taps := Function.update h.taps j tp }

def snifferOpenEx (h : Ears n m) (name : LinkName) (a : SniffAnswers) : Ears n m :=
  if (OwnedSlot.find h.sniff name).isSome then h
  else match OwnedSlot.free h.sniff with
    | none => h
    | some i => h.setSniff i (SnifferHold.opening (h.sniff i) name a)

def snifferClose (h : Ears n m) (name : LinkName) : Ears n m :=
  match OwnedSlot.find h.sniff name with
  | none => h
  | some i => h.setSniff i (SnifferHold.closing (h.sniff i))

def topoWatchIface (h : Ears n m) (name : LinkName) (a : TapAnswers) : Ears n m :=
  if (OwnedSlot.find h.taps name).isSome || a.stacked || a.vlanOf then h
  else match OwnedSlot.free h.taps with
    | none => h
    | some j => h.setTap j (TapHold.opening (h.taps j) name a)

def topoUnwatchIface (h : Ears n m) (name : LinkName) : Ears n m :=
  match OwnedSlot.find h.taps name with
  | none => h
  | some j => h.setTap j (TapHold.closing (h.taps j))

def unwatchSlot (h : Ears n m) (j : Fin m) : Ears n m :=
  match (h.taps j).key with
  | none => h
  | some parent => h.topoUnwatchIface parent

def closeSlot (h : Ears n m) (i : Fin n) : Ears n m :=
  match (h.sniff i).key with
  | none => h
  | some name => h.snifferClose name

/-- `hearing_start`; when the watch cannot be opened the daemon ends. -/
def hearingStart (opens ioAdded : Bool) : Ears n m :=
  let h : Ears n m :=
    { enabled := false, own := .straight ∅, sniff := fun _ => .fresh, taps := fun _ => .fresh }
  if !opens then h
  else
    let A := h.own.take [] .scan
    if !ioAdded then { h with own := A.stop ScanRes.uses .scan }
    else { h with own := A.take [.scan] .io, enabled := true }

/-- `hearing_stop`. -/
def hearingStop (h : Ears n m) : Ears n m :=
  if !h.enabled then h
  else
    let h := (List.finRange m).foldl unwatchSlot h
    let h := (List.finRange n).foldl closeSlot h
    { h with
      own := (h.own.free ScanRes.uses .io).stop ScanRes.uses .scan
      enabled := false }

end Ears

/-- What happens to the hearing; the first four are the table's events, carried out. -/
inductive EarEvent (n m : Nat) where
  | listen (name : LinkName) (ignored : Bool) (a : SniffAnswers) (t : TapAnswers)
  | unlisten (name : LinkName)
  | serve (name : LinkName) (ignored keep : Bool)
  | drop (name : LinkName)
  /-- A wire is dropped to be classified afresh. -/
  | rehear (name : LinkName) (a : SniffAnswers)
  /-- A sniffer's socket is readable. -/
  | sniffIo (i : Fin n) (answered : Bool)
  | knockTimer (i : Fin n)
  | hunt (i : Fin n) (answered : Bool) (k : HuntKnock)
  /-- A tap is readable. -/
  | topoIo (j : Fin m)
  | stop

section
variable {n m : Nat}

def Ears.on (h : Ears n m) : EarEvent n m → Ears n m
  | .listen name ignored a t =>
      if ignored then h else (h.snifferOpenEx name a).topoWatchIface name t
  | .unlisten name => (h.snifferClose name).topoUnwatchIface name
  | .serve name ignored keep => if ignored || keep then h else h.snifferClose name
  | .drop name => (h.snifferClose name).topoUnwatchIface name
  | .rehear name a => (h.snifferClose name).snifferOpenEx name a
  | .sniffIo i answered =>
      if .io ∈ (h.sniff i).own.live then
        h.setSniff i (SnifferHold.drain (h.sniff i) answered)
      else h
  | .knockTimer i =>
      if .knockTimer ∈ (h.sniff i).own.live then
        h.setSniff i (SnifferHold.onKnockTimer (h.sniff i))
      else h
  | .hunt i answered k => h.setSniff i (SnifferHold.hunted (h.sniff i) answered k)
  | .topoIo j =>
      if .io ∈ (h.taps j).own.live then h.setTap j ((h.taps j).books (Account.touch [.tap])) else h
  | .stop => h.hearingStop

/-- Nothing happens to a hearing that is not enabled. -/
def earStep (h : Ears n m) (e : EarEvent n m) : Ears n m := if h.enabled then h.on e else h

def earMachine (n m : Nat) : StepMachine (Ears n m) (EarEvent n m) Unit where
  step h e := (earStep h e, ())

end

end ReacPw
