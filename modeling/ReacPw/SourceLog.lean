/-
The one line that the capture node's callback has printed (`on_process`,
`reac_source_node_drain_log`).

The realtime callback names the clock that drives the node each time another one does.  It
may not print: it composes the line in the node, and the main loop prints it.  `log_pending`
is the whole handshake between the two.

A cycle is given the clock's name, when the node has a pacer and the graph a position.  Which
names are a hardware clock's is the library's to say.
-/
import ReacPw.Lib.Mailbox
import ReacPw.Segconf

namespace ReacPw

/-- The node, as far as its line goes. -/
structure SourceLog where
  /-- `REAC_DEBUG`. -/
  debug : Bool
  nodename : Text
  /-- `reac_clock_name_is_hardware`. -/
  hardware : Text → Bool

/-- What `graph_clock` holds of a name. -/
def graphClock (name : Text) : Text := clipped 64 name

/-- `log_line`. -/
def logLine (n : SourceLog) (name : Text) : Text :=
  clipped 160 (txt "reac-pw: " ++ n.nodename ++ txt ": graph clock = " ++
    (if name = [] then txt "(unnamed)" else name) ++ txt " (" ++
    (if n.hardware name then txt "a hardware clock" else txt "refused: not a hardware clock") ++
    txt ")\n")

/-- What a cycle would have printed: a line for a clock that is not the last one named, by
its first 63 bytes. -/
def logOffer (n : SourceLog) (last : Text) : Option Text → Option (Text × Text)
  | none => none
  | some name =>
    if n.debug ∧ last.take 63 ≠ name.take 63 then some (graphClock name, logLine n name) else none

/-- The callback and the main loop, access by access to the node. -/
def sourceLogMachine (n : SourceLog) :
    StepMachine (Mailbox.Box Char Text) (Mailbox.Access (Option Text)) (Mailbox.Did Char) :=
  Mailbox.machine (logOffer n)

/-- A node as it is made: nothing is pending, and no clock has been named. -/
def sourceLogNew (line : Nat → Option Char) : Mailbox.Box Char Text := Mailbox.empty line []

end ReacPw
