import MonitorSystem.Library.CxxFloat

/-!
# The messages of the query service

The requests, records and responses of `query_api.proto`.  An absent message reads as one whose
fields have their defaults, so that no field is optional; a field that is not set keeps its default,
zero or the empty string.  The detail records carry the fields that the service sets.
-/

namespace MonitorSystem

namespace Proto

/-! ### Requests -/

/-- `google.protobuf.Timestamp`. -/
structure Timestamp where
  seconds : Int64 := 0
  nanos : Int32 := 0
  deriving DecidableEq

/-- `TimeRange`. -/
structure TimeRange where
  startTime : Timestamp := {}
  endTime : Timestamp := {}
  deriving DecidableEq

/-- `Pagination`. -/
structure Pagination where
  page : Int32 := 0
  pageSize : Int32 := 0
  deriving DecidableEq

/-- `SortOrder`; an enumeration of proto3 may hold other numbers. -/
inductive SortOrder
  | desc
  | asc
  | other (n : Int32)

/-- `QueryPerformanceRequest`. -/
structure QueryPerformanceRequest where
  serverName : String := ""
  timeRange : TimeRange := {}
  pagination : Pagination := {}

/-- `QueryTrendRequest`. -/
structure QueryTrendRequest where
  serverName : String := ""
  timeRange : TimeRange := {}
  intervalSeconds : Int32 := 0

/-- `QueryAnomalyRequest`. -/
structure QueryAnomalyRequest (F : Type) [CxxFloat F] where
  serverName : String := ""
  timeRange : TimeRange := {}
  cpuThreshold : F := 0
  memThreshold : F := 0
  diskThreshold : F := 0
  changeRateThreshold : F := 0
  pagination : Pagination := {}

/-- `QueryScoreRankRequest`. -/
structure QueryScoreRankRequest where
  order : SortOrder := .desc
  pagination : Pagination := {}

/-- `QueryDetailRequest`. -/
structure QueryDetailRequest where
  serverName : String := ""
  timeRange : TimeRange := {}
  pagination : Pagination := {}

/-! ### Records -/

/-- `ServerStatus`. -/
inductive ServerStatus
  | online
  | offline
  deriving DecidableEq

section Records

variable (F : Type) [CxxFloat F]

/-- `PerformanceRecord`. -/
structure PerformanceRecord where
  serverName : String := ""
  timestamp : Timestamp := {}
  cpuPercent : F := 0
  usrPercent : F := 0
  systemPercent : F := 0
  nicePercent : F := 0
  idlePercent : F := 0
  ioWaitPercent : F := 0
  irqPercent : F := 0
  softIrqPercent : F := 0
  loadAvg1 : F := 0
  loadAvg3 : F := 0
  loadAvg15 : F := 0
  memUsedPercent : F := 0
  memTotal : F := 0
  memFree : F := 0
  memAvail : F := 0
  diskUtilPercent : F := 0
  sendRate : F := 0
  rcvRate : F := 0
  score : F := 0
  cpuPercentRate : F := 0
  usrPercentRate : F := 0
  systemPercentRate : F := 0
  ioWaitPercentRate : F := 0
  loadAvg1Rate : F := 0
  loadAvg3Rate : F := 0
  loadAvg15Rate : F := 0
  memUsedPercentRate : F := 0
  diskUtilPercentRate : F := 0
  sendRateRate : F := 0
  rcvRateRate : F := 0

/-- `AnomalyRecord`. -/
structure AnomalyRecord where
  serverName : String := ""
  timestamp : Timestamp := {}
  anomalyType : String := ""
  severity : String := ""
  value : F := 0
  threshold : F := 0
  metricName : String := ""

/-- `ServerScoreSummary`. -/
structure ServerScoreSummary where
  serverName : String := ""
  score : F := 0
  lastUpdate : Timestamp := {}
  status : ServerStatus := .online
  cpuPercent : F := 0
  memUsedPercent : F := 0
  diskUtilPercent : F := 0
  loadAvg1 : F := 0

/-- `ClusterStats`. -/
structure ClusterStats where
  totalServers : Int32 := 0
  onlineServers : Int32 := 0
  offlineServers : Int32 := 0
  avgScore : F := 0
  maxScore : F := 0
  minScore : F := 0
  bestServer : String := ""
  worstServer : String := ""

/-- `NetDetailRecord`. -/
structure NetDetailRecord where
  serverName : String := ""
  netName : String := ""
  timestamp : Timestamp := {}
  errIn : UInt64 := 0
  errOut : UInt64 := 0
  dropIn : UInt64 := 0
  dropOut : UInt64 := 0
  rcvBytesRate : F := 0
  sndBytesRate : F := 0
  rcvPacketsRate : F := 0
  sndPacketsRate : F := 0

/-- `DiskDetailRecord`. -/
structure DiskDetailRecord where
  serverName : String := ""
  diskName : String := ""
  timestamp : Timestamp := {}
  readBytesPerSec : F := 0
  writeBytesPerSec : F := 0
  readIops : F := 0
  writeIops : F := 0
  avgReadLatencyMs : F := 0
  avgWriteLatencyMs : F := 0
  utilPercent : F := 0

/-- `MemDetailRecord`. -/
structure MemDetailRecord where
  serverName : String := ""
  timestamp : Timestamp := {}
  total : F := 0
  free : F := 0
  avail : F := 0
  buffers : F := 0
  cached : F := 0
  active : F := 0
  inactive : F := 0
  dirty : F := 0

end Records

/-- `SoftIrqDetailRecord`. -/
structure SoftIrqDetailRecord where
  serverName : String := ""
  cpuName : String := ""
  timestamp : Timestamp := {}
  hi : Int64 := 0
  timer : Int64 := 0
  netTx : Int64 := 0
  netRx : Int64 := 0
  block : Int64 := 0
  sched : Int64 := 0

/-! ### Responses -/

/-- The responses that are pages of records: `QueryPerformanceResponse`, `QueryAnomalyResponse`,
`QueryScoreRankResponse` and those of the four detail queries. -/
structure PageResponse (R : Type) where
  records : List R := []
  totalCount : Int32 := 0
  page : Int32 := 0
  pageSize : Int32 := 0

/-- `QueryTrendResponse`. -/
structure QueryTrendResponse (F : Type) [CxxFloat F] where
  records : List (PerformanceRecord F) := []
  intervalSeconds : Int32 := 0

/-- `QueryLatestScoreResponse`. -/
structure QueryLatestScoreResponse (F : Type) [CxxFloat F] where
  servers : List (ServerScoreSummary F) := []
  clusterStats : ClusterStats F := {}

end Proto

end MonitorSystem
