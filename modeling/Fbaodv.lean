import Fbaodv.Proofs.WireRefinement
import Fbaodv.Proofs.TimerContract
import Fbaodv.Proofs.TaskQueueRefinement
import Fbaodv.Proofs.FreedRoutes
import Fbaodv.Proofs.SourceAccounts
import Fbaodv.Proofs.NeighTables
import Fbaodv.Proofs.ConsumedReports
import Fbaodv.Proofs.DiscoveryEnds
import Fbaodv.Proofs.HelloRoundTrip
import Fbaodv.Proofs.AddressRoundTrip
import Fbaodv.Proofs.Dispatch
import Fbaodv.Proofs.Isolation
import Fbaodv.Proofs.FreshNumbers
import Fbaodv.Proofs.BrkListFlush
import Fbaodv.Proofs.RreqUpdate
import Fbaodv.Proofs.RouteFlush
import Fbaodv.Proofs.RouteTable
import Fbaodv.Proofs.QueueConservation
import Fbaodv.Proofs.DelayWindow
import Fbaodv.Proofs.OwnNumber
import Fbaodv.Proofs.PeriodicWork
import Fbaodv.Proofs.RrepRecognition
import Fbaodv.Proofs.GatewayFlood
import Fbaodv.Proofs.ProbeChains
import Fbaodv.Proofs.EttCleanup
import Fbaodv.Proofs.NeighCreation
import Fbaodv.Proofs.HelloScans
import Fbaodv.Proofs.BrkRecords
import Fbaodv.Proofs.RerrRoutes
import Fbaodv.Proofs.PathMetrics
import Fbaodv.Proofs.BrkRecovery
import Fbaodv.Proofs.RetrySchedule
import Fbaodv.Proofs.SilentNeighs
import Fbaodv.Proofs.TimerCover
import Fbaodv.Proofs.LoadSources
import Fbaodv.Proofs.RateEstimation
import Fbaodv.Proofs.DelayClusters
import Fbaodv.Proofs.ProbePairs
import Fbaodv.Proofs.LoadAnnouncements
import Fbaodv.Proofs.NeighTx
import Fbaodv.Proofs.OwnLoad
import Fbaodv.Proofs.SourceTables
import Fbaodv.Proofs.GatewayExpiry
import Fbaodv.Proofs.QueueTeardown
import Fbaodv.Proofs.GenuineGateways
import Fbaodv.Proofs.StaleNeighs
import Fbaodv.Proofs.HopsNetwork
import Fbaodv.Proofs.GenuineNeighs
import Fbaodv.Proofs.KernelRules
