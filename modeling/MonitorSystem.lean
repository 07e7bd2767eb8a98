import MonitorSystem.Library.Transition
import MonitorSystem.Library.Unwinding
import MonitorSystem.Library.FifoLane
import MonitorSystem.Library.HashRouting
import MonitorSystem.Library.Tally
import MonitorSystem.Library.BpfMap
import MonitorSystem.Library.DecimalText
import MonitorSystem.Library.ClockText
import MonitorSystem.Library.CxxFloat
import MonitorSystem.Library.InputStream
import MonitorSystem.Library.SqlText
import MonitorSystem.Library.UnorderedMap
import MonitorSystem.Library.CharBuffer
import MonitorSystem.Library.CachedLoop
import MonitorSystem.Library.SharedTable
import MonitorSystem.Library.SinglePrecision
import MonitorSystem.Library.Paging
import MonitorSystem.Library.LatestRows
import MonitorSystem.Library.LastSeen
import MonitorSystem.Library.CxxInt
import MonitorSystem.Library.CounterRates
import MonitorSystem.Library.RunningBest
import MonitorSystem.Library.SqlCondition
import MonitorSystem.Library.CivilCalendar
import MonitorSystem.Library.TextWords
import MonitorSystem.Library.CondVar
import MonitorSystem.Proto.Messages
import MonitorSystem.Worker.NetStats
import MonitorSystem.Worker.DiskMonitor
import MonitorSystem.Worker.KernelTables
import MonitorSystem.Worker.CpuStatCollector
import MonitorSystem.Worker.CpuStatMonitor
import MonitorSystem.Worker.CpuPercent
import MonitorSystem.Worker.SoftirqCollector
import MonitorSystem.Worker.CpuSoftIrqMonitor
import MonitorSystem.Worker.SoftirqRates
import MonitorSystem.Worker.NetMonitor
import MonitorSystem.Worker.NetEbpfMonitor
import MonitorSystem.Worker.NetCollectors
import MonitorSystem.Worker.DiskRates
import MonitorSystem.Worker.CounterResets
import MonitorSystem.Worker.EbpfRates
import MonitorSystem.Worker.ReadFile
import MonitorSystem.Worker.ProcNetDev
import MonitorSystem.Manager.SafeQueue
import MonitorSystem.Manager.Identity
import MonitorSystem.Manager.Pipeline
import MonitorSystem.Manager.Lifecycle
import MonitorSystem.Manager.Ingest
import MonitorSystem.Manager.Shutdown
import MonitorSystem.Manager.ShardOwnership
import MonitorSystem.Manager.LiveStores
import MonitorSystem.Manager.Store
import MonitorSystem.Manager.ProcessData
import MonitorSystem.Manager.ShardFrame
import MonitorSystem.Manager.HostIsolation
import MonitorSystem.Manager.PerformanceRows
import MonitorSystem.Manager.QueryManager
import MonitorSystem.Manager.SqlNames
import MonitorSystem.Manager.Score
import MonitorSystem.Manager.HostScores
import MonitorSystem.Manager.CpuCores
import MonitorSystem.Manager.Histories
import MonitorSystem.Manager.Tables
import MonitorSystem.Manager.DetailPages
import MonitorSystem.Manager.LatestScore
import MonitorSystem.Manager.ClusterStatistics
import MonitorSystem.Manager.Anomalies
import MonitorSystem.Manager.AnomalyPages
import MonitorSystem.Manager.Timestamps
import MonitorSystem.Manager.WaitingConsumers
import MonitorSystem.Manager.OfflineHosts
import MonitorSystem.Manager.GrpcServer
import MonitorSystem.Manager.CallSequences
import MonitorSystem.Manager.PageQueries
import MonitorSystem.Proto.QueryApi
import MonitorSystem.Manager.QueryService
import MonitorSystem.Manager.TimeRanges
import MonitorSystem.Manager.PageOffsets
import MonitorSystem.Manager.PerformanceDelivery
import MonitorSystem.Library.Grouping
import MonitorSystem.Manager.Trends
import MonitorSystem.Manager.NetCounterRates
import MonitorSystem.Worker.MemMonitor
import MonitorSystem.Worker.TcHooks
import MonitorSystem.Library.Ranking
import MonitorSystem.Manager.Progress
import MonitorSystem.Worker.MonitorPusher
import MonitorSystem.Library.CallRuns
import MonitorSystem.Worker.HostInfoMonitor
import MonitorSystem.Worker.MetricCollector
import MonitorSystem.System.Identities
import MonitorSystem.Library.Requests
import MonitorSystem.System.Fleet
import MonitorSystem.Manager.HostData
import MonitorSystem.Worker.CollectorModule
import MonitorSystem.Worker.TrafficAccounting
import MonitorSystem.System.FleetProgress
import MonitorSystem.Library.GrowingPages
import MonitorSystem.System.FleetReading
import MonitorSystem.System.FleetDetails
import MonitorSystem.System.FleetScores
import MonitorSystem.System.FleetAlarms
