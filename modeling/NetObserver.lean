import NetObserver.WindowEvidence
import NetObserver.GatewayStretch
import NetObserver.FiringBudget
import NetObserver.SessionEnd
import NetObserver.IntervalLoop
import NetObserver.ExperimentWindow
import NetObserver.LogGenerations
import NetObserver.WindowBrackets
import NetObserver.IncidentsTold
import NetObserver.EventStream
import NetObserver.PcapCuts
import NetObserver.AnnounceBounds
import NetObserver.AnnounceAccounts
import NetObserver.GapReadings
import NetObserver.IncidentOrder
import NetObserver.LogRetry
import NetObserver.PortalEvidence
import NetObserver.PortalProber
import NetObserver.ProxyRows
import NetObserver.NeighborRoster
import NetObserver.Transaction
import NetObserver.Retention
import NetObserver.OperatorScans
import NetObserver.ProxyCollector
import NetObserver.DialStall
import NetObserver.LogStretches
import NetObserver.LogLines
import NetObserver.BanRuns
import NetObserver.SettleGate
import NetObserver.TunTicks
import NetObserver.EndpointCohorts
import NetObserver.ChurnCount
import NetObserver.FallbackFleet
import NetObserver.ChannelHop
import NetObserver.Mdns
import NetObserver.MdnsSender
import NetObserver.LldpGrammar
import NetObserver.GatewayRow
import NetObserver.LastSome
import NetObserver.Cdp
import NetObserver.Topology
import NetObserver.CdpGrammar
import NetObserver.Dhcp
import NetObserver.DhcpGrammar
import NetObserver.PcapReaders
import NetObserver.MacFold
import NetObserver.SampleInstants
import NetObserver.ProbingStretches
import NetObserver.Islands
import NetObserver.DeadEpisodes
import NetObserver.Lifetimes
import NetObserver.EntityStore
import NetObserver.EntitySightings
import NetObserver.TopologyCapture
import NetObserver.EgressFold
import NetObserver.AirScan
import NetObserver.ScanReport
import NetObserver.VersionOrder
import NetObserver.VulnMatches
import NetObserver.VulnGrounds
import NetObserver.OuiDb
import NetObserver.Calendar
import NetObserver.LogInstant
import NetObserver.LogFilter
import NetObserver.PortalAnswer
import NetObserver.DnsGrammar
import NetObserver.ProxyGroup
import NetObserver.OwnFrames
import NetObserver.AirOverflow
import NetObserver.SweepHosts
import NetObserver.FakeipPool
import NetObserver.LocalAddresses
import NetObserver.SampleWrites
import NetObserver.VulnsView
import NetObserver.RunHeads
import NetObserver.NeighborTables
import NetObserver.StarMap
import NetObserver.EventBridge
import NetObserver.SubscriptionThread
import NetObserver.WindowClosing
import NetObserver.BridgeAccounts
import NetObserver.GroupTotals
import NetObserver.ConnectionsFold
import NetObserver.ConnectionsQuery
import NetObserver.FlowViews
import NetObserver.AnsweredFlows
import NetObserver.FlowAccounts
import NetObserver.IfaceGroups
import NetObserver.IfaceTotals
import NetObserver.QueryReplies
import NetObserver.ScanProbes
import NetObserver.CveVerdicts
import NetObserver.IncidentTimes
import NetObserver.AirRows
import NetObserver.CivilClock
import NetObserver.StatementDeadline
import NetObserver.SocketServer
import NetObserver.WireFrames
import NetObserver.RingFreezes
import NetObserver.RingSupervisor
import NetObserver.BarRounds
import NetObserver.PinnedReads
import NetObserver.HeldStreams
import NetObserver.ExperimentWait
import NetObserver.WindowShutdown
import NetObserver.EventLoop
import NetObserver.SubscribeHandshake
import NetObserver.SegmentHistory
import NetObserver.AirFeed
import NetObserver.FileTree
import NetObserver.RecordAccess
import NetObserver.RecordReaders
