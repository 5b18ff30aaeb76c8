import ReacPw.Lib.Run
import ReacPw.Lib.Loop
import ReacPw.Wake
import ReacPw.WakeDriver
import ReacPw.Qdisc
import ReacPw.LinkBudget
import ReacPw.EmptyMaster
import ReacPw.Listener
import ReacPw.Segment
import ReacPw.Watch
import ReacPw.Hearing
import ReacPw.HearingPoll
import ReacPw.Daemon
import ReacPw.KnockWire
import ReacPw.KnockAnswer
import ReacPw.KnockHands
import ReacPw.Segconf
import ReacPw.Autodetect
import ReacPw.Door
import ReacPw.SegconfFiles
import ReacPw.Lib.PropMap
import ReacPw.Roster
import ReacPw.RosterNode
import ReacPw.Proofs.WakeLadder
import ReacPw.Proofs.WakeExhausted
import ReacPw.Proofs.WakeSpell
import ReacPw.Proofs.Qdisc
import ReacPw.Proofs.Roster
import ReacPw.Proofs.RosterNode
import ReacPw.Proofs.Watch
import ReacPw.Proofs.EmptyMaster
import ReacPw.Proofs.RoleDoor
import ReacPw.Proofs.LinkBudget
import ReacPw.Proofs.EdgeRecord
import ReacPw.Proofs.Stranded
import ReacPw.Proofs.KnockWire
import ReacPw.Proofs.KnockAnswer
import ReacPw.Proofs.KnockHands
import ReacPw.Proofs.Segconf
import ReacPw.Proofs.SegconfFiles
import ReacPw.Proofs.Autodetect
import ReacPw.Proofs.Door
import ReacPw.Proofs.DoorRun
import ReacPw.Proofs.DoorPresent
import ReacPw.Proofs.OneDoor
import ReacPw.BudgetYield
import ReacPw.Proofs.Placed
import ReacPw.Proofs.BudgetYield
import ReacPw.HearingHunt
import ReacPw.Proofs.BudgetTrade
import ReacPw.Lib.Slots
import ReacPw.SinkGain
import ReacPw.Proofs.SinkGain
import ReacPw.RateDoor
import ReacPw.Proofs.RateDoor
import ReacPw.HeadampDoor
import ReacPw.Proofs.HeadampDoor
import ReacPw.Follower
import ReacPw.Proofs.Follower
import ReacPw.RosterTables
import ReacPw.Proofs.RosterTables
import ReacPw.Topo
import ReacPw.Proofs.Topo
import ReacPw.Proofs.KnockBackoff
import ReacPw.Proofs.KnockPushes
import ReacPw.Proofs.KnockLadder
import ReacPw.Proofs.SegconfWhole
import ReacPw.Lib.Ledger
import ReacPw.Holdings
import ReacPw.Proofs.Holdings
import ReacPw.Proofs.OpenAgrees
import ReacPw.Proofs.OneOwner
import ReacPw.Lib.Held
import ReacPw.RxBind
import ReacPw.Proofs.RxBind
import ReacPw.BoxRow
import ReacPw.Proofs.BoxRow
import ReacPw.NodeRecover
import ReacPw.Proofs.NodeRecover
import ReacPw.ServedMark
import ReacPw.Proofs.ServedMark
import ReacPw.Lib.Blocks
import ReacPw.SinkStage
import ReacPw.Proofs.SinkStage
import ReacPw.Lib.Decimal
import ReacPw.Lib.Buffer
import ReacPw.HeadampState
import ReacPw.Proofs.HeadampState
import ReacPw.DeclaredVlan
import ReacPw.Proofs.DeclaredVlan
import ReacPw.Lib.Reading
import ReacPw.Proofs.HeadampProp
import ReacPw.Lib.Tokens
import ReacPw.HeadampConf
import ReacPw.Proofs.HeadampConf
import ReacPw.Lib.Records
import ReacPw.Rtnetlink
import ReacPw.Proofs.LinkAlias
import ReacPw.Proofs.LinkOwner
import ReacPw.SegmentCfg
import ReacPw.Proofs.TapPin
import ReacPw.Lib.Mailbox
import ReacPw.SourceLog
import ReacPw.Proofs.SourceLog
import ReacPw.WriteDoor
import ReacPw.Proofs.WriteDoor
import ReacPw.Lib.Owned
import ReacPw.HearingHoldings
import ReacPw.Proofs.HearingHoldings
import ReacPw.Lib.Tape
import ReacPw.CaptureRing
import ReacPw.Proofs.CaptureRing
import ReacPw.Lib.Orders
import ReacPw.Listening
import ReacPw.Proofs.Listening
import ReacPw.Proofs.ServedWires
import ReacPw.Proofs.WiresShown
