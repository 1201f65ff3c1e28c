import StaticRouter.Arp
import StaticRouter.ArpTable
import StaticRouter.ArpTrace
import StaticRouter.Base
import StaticRouter.Budget
import StaticRouter.Emission
import StaticRouter.Endian
import StaticRouter.History
import StaticRouter.Icmp
import StaticRouter.Ip
import StaticRouter.Lan
import StaticRouter.Lib.Buffer
import StaticRouter.Lib.FeedingQueue
import StaticRouter.Lib.Heap
import StaticRouter.Lib.OnesComplement
import StaticRouter.Lib.Rings
import StaticRouter.Lib.Runs
import StaticRouter.Lib.SafeTraversal
import StaticRouter.Lib.Simulation
import StaticRouter.Lib.Tlv
import StaticRouter.LinkedList
import StaticRouter.Machine
import StaticRouter.Messages
import StaticRouter.Netlink
import StaticRouter.Network
import StaticRouter.Parsing
import StaticRouter.Proofs.ArpProofs
import StaticRouter.Proofs.ArpTableProofs
import StaticRouter.Proofs.ArpTraceProofs
import StaticRouter.Proofs.BudgetProofs
import StaticRouter.Proofs.ChecksumProofs
import StaticRouter.Proofs.ConservationProofs
import StaticRouter.Proofs.DatagramProofs
import StaticRouter.Proofs.EchoProofs
import StaticRouter.Proofs.EgressProofs
import StaticRouter.Proofs.EmissionProofs
import StaticRouter.Proofs.FrameProofs
import StaticRouter.Proofs.HeapProofs
import StaticRouter.Proofs.HistoryProofs
import StaticRouter.Proofs.IcmpProofs
import StaticRouter.Proofs.InternetChecksumProofs
import StaticRouter.Proofs.JourneyProofs
import StaticRouter.Proofs.LanProofs
import StaticRouter.Proofs.LayoutProofs
import StaticRouter.Proofs.LinkedListProofs
import StaticRouter.Proofs.LoopProofs
import StaticRouter.Proofs.MachineProofs
import StaticRouter.Proofs.MessageProofs
import StaticRouter.Proofs.NetworkProofs
import StaticRouter.Proofs.NextHopProofs
import StaticRouter.Proofs.OutcomeProofs
import StaticRouter.Proofs.OwnershipProofs
import StaticRouter.Proofs.ParsingProofs
import StaticRouter.Proofs.PingProofs
import StaticRouter.Proofs.PrefixMatchProofs
import StaticRouter.Proofs.ProgramProofs
import StaticRouter.Proofs.ProgressProofs
import StaticRouter.Proofs.RaceProofs
import StaticRouter.Proofs.RelayProofs
import StaticRouter.Proofs.ReportProofs
import StaticRouter.Proofs.ResolutionProofs
import StaticRouter.Proofs.RouteChoiceProofs
import StaticRouter.Proofs.RouteHeapProofs
import StaticRouter.Proofs.RouteParseProofs
import StaticRouter.Proofs.RouteReadProofs
import StaticRouter.Proofs.RunProofs
import StaticRouter.Proofs.SecrecyProofs
import StaticRouter.Proofs.SelfProofs
import StaticRouter.Proofs.SlotProofs
import StaticRouter.Proofs.StoreProofs
import StaticRouter.Proofs.SweepProofs
import StaticRouter.Proofs.TeardownProofs
import StaticRouter.Proofs.TerminationProofs
import StaticRouter.Proofs.TrafficProofs
import StaticRouter.Proofs.UnlinkProofs
import StaticRouter.Proofs.UserStackProofs
import StaticRouter.Proofs.VisitProofs
import StaticRouter.Proofs.WaitingProofs
import StaticRouter.Relay
import StaticRouter.Replay
import StaticRouter.Resolution
import StaticRouter.RouteDump
import StaticRouter.RouteHeap
import StaticRouter.RoutingTable
import StaticRouter.Slots
import StaticRouter.Store
import StaticRouter.Submission
import StaticRouter.Sweep
import StaticRouter.Teardown
import StaticRouter.Traffic
import StaticRouter.UserStack
import StaticRouter.Waiting
