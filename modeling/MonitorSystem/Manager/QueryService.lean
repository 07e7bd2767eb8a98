import MonitorSystem.Manager.Anomalies
import MonitorSystem.Manager.LatestScore
import MonitorSystem.Manager.PageQueries
import MonitorSystem.Proto.QueryApi
import MonitorSystem.Proto.Status

/-!
# The query service

The RPCs of `QueryServiceImpl`: each takes the parts of its request, asks `QueryManager`, and copies
the records that come back into messages, field by field.  `QueryFunctions` stands for the functions
of `QueryManager`.
-/

namespace MonitorSystem

open QueryManager

variable {F : Type} [CxxFloat F]

/-- The functions of `QueryManager`; those for a page return `total_count` with the records. -/
structure QueryFunctions (F : Type) [CxxFloat F] where
  queryPerformance : String → TimeRange → Int32 → Int32 → List (PerformanceRecord F) × Int32
  queryTrend : String → TimeRange → Int32 → List (PerformanceRecord F)
  queryAnomaly : String → TimeRange → AnomalyThresholds F → Int32 → Int32 →
    List (AnomalyRecord F) × Int32
  queryScoreRank : SortOrder → Int32 → Int32 → List (ServerScoreSummary F) × Int32
  queryLatestScore : List (ServerScoreSummary F) × ClusterStats F
  queryNetDetail : String → TimeRange → Int32 → Int32 → List (NetDetailRecord F) × Int32
  queryDiskDetail : String → TimeRange → Int32 → Int32 → List (DiskDetailRecord F) × Int32
  queryMemDetail : String → TimeRange → Int32 → Int32 → List (MemDetailRecord F) × Int32
  querySoftIrqDetail : String → TimeRange → Int32 → Int32 → List SoftIrqDetailRecord × Int32

namespace QueryService

/-! ### Times -/

/-- `system_clock::from_time_t`; a time point counts nanoseconds in 64 bits. -/
def fromTimeT (t : Int64) : Int64 := t * 1000000000

/-- `ConvertTimeRange`. -/
def convertTimeRange (protoRange : Proto.TimeRange) : TimeRange where
  startTime := (fromTimeT protoRange.startTime.seconds).toInt
  endTime := (fromTimeT protoRange.endTime.seconds).toInt

/-- `SetTimestamp`. -/
def setTimestamp (tp : ℤ) : Proto.Timestamp where
  seconds := Int64.ofInt (tp.tdiv 1000000000)
  nanos := 0

/-! ### Records -/

/-- What `QueryPerformance` copies of a record. -/
def performanceRecord (rec : PerformanceRecord F) : Proto.PerformanceRecord F where
  serverName := rec.serverName
  timestamp := setTimestamp rec.timestamp
  cpuPercent := rec.cpuPercent
  usrPercent := rec.usrPercent
  systemPercent := rec.systemPercent
  nicePercent := rec.nicePercent
  idlePercent := rec.idlePercent
  ioWaitPercent := rec.ioWaitPercent
  irqPercent := rec.irqPercent
  softIrqPercent := rec.softIrqPercent
  loadAvg1 := rec.loadAvg1
  loadAvg3 := rec.loadAvg3
  loadAvg15 := rec.loadAvg15
  memUsedPercent := rec.memUsedPercent
  memTotal := rec.memTotal
  memFree := rec.memFree
  memAvail := rec.memAvail
  diskUtilPercent := rec.diskUtilPercent
  sendRate := rec.sendRate
  rcvRate := rec.rcvRate
  score := rec.score
  cpuPercentRate := rec.cpuPercentRate
  memUsedPercentRate := rec.memUsedPercentRate
  diskUtilPercentRate := rec.diskUtilPercentRate
  loadAvg1Rate := rec.loadAvg1Rate

/-- What `QueryTrend` copies of a record. -/
def trendRecord (rec : PerformanceRecord F) : Proto.PerformanceRecord F where
  serverName := rec.serverName
  timestamp := setTimestamp rec.timestamp
  cpuPercent := rec.cpuPercent
  usrPercent := rec.usrPercent
  systemPercent := rec.systemPercent
  ioWaitPercent := rec.ioWaitPercent
  loadAvg1 := rec.loadAvg1
  loadAvg3 := rec.loadAvg3
  loadAvg15 := rec.loadAvg15
  memUsedPercent := rec.memUsedPercent
  diskUtilPercent := rec.diskUtilPercent
  sendRate := rec.sendRate
  rcvRate := rec.rcvRate
  score := rec.score
  cpuPercentRate := rec.cpuPercentRate
  memUsedPercentRate := rec.memUsedPercentRate
  diskUtilPercentRate := rec.diskUtilPercentRate
  loadAvg1Rate := rec.loadAvg1Rate

/-- The text of `anomaly_type`. -/
def anomalyTypeText : AnomalyType → String
  | .cpuHigh => "CPU_HIGH"
  | .memHigh => "MEM_HIGH"
  | .diskHigh => "DISK_HIGH"
  | .rateSpike => "RATE_SPIKE"

/-- The text of `severity`. -/
def severityText : Severity → String
  | .warning => "WARNING"
  | .critical => "CRITICAL"

/-- What `QueryAnomaly` copies of a record. -/
def anomalyRecord (rec : AnomalyRecord F) : Proto.AnomalyRecord F where
  serverName := rec.serverName
  timestamp := setTimestamp rec.timestamp
  anomalyType := anomalyTypeText rec.anomalyType
  severity := severityText rec.severity
  value := rec.value
  threshold := rec.threshold
  metricName := rec.metricName

/-- What `QueryScoreRank` and `QueryLatestScore` copy of a record. -/
def serverScoreSummary (rec : ServerScoreSummary F) : Proto.ServerScoreSummary F where
  serverName := rec.serverName
  score := rec.score
  lastUpdate := setTimestamp rec.lastUpdate
  status := if rec.status = .online then .online else .offline
  cpuPercent := rec.cpuPercent
  memUsedPercent := rec.memUsedPercent
  diskUtilPercent := rec.diskUtilPercent
  loadAvg1 := rec.loadAvg1

/-- What `QueryLatestScore` copies of the statistics. -/
def clusterStats (stats : ClusterStats F) : Proto.ClusterStats F where
  totalServers := stats.totalServers
  onlineServers := stats.onlineServers
  offlineServers := stats.offlineServers
  avgScore := stats.avgScore
  maxScore := stats.maxScore
  minScore := stats.minScore
  bestServer := stats.bestServer
  worstServer := stats.worstServer

/-- What `QueryNetDetail` copies of a record. -/
def netDetailRecord (rec : NetDetailRecord F) : Proto.NetDetailRecord F where
  serverName := rec.serverName
  netName := rec.netName
  timestamp := setTimestamp rec.timestamp
  errIn := rec.errIn
  errOut := rec.errOut
  dropIn := rec.dropIn
  dropOut := rec.dropOut
  rcvBytesRate := rec.rcvBytesRate
  sndBytesRate := rec.sndBytesRate
  rcvPacketsRate := rec.rcvPacketsRate
  sndPacketsRate := rec.sndPacketsRate

/-- What `QueryDiskDetail` copies of a record. -/
def diskDetailRecord (rec : DiskDetailRecord F) : Proto.DiskDetailRecord F where
  serverName := rec.serverName
  diskName := rec.diskName
  timestamp := setTimestamp rec.timestamp
  readBytesPerSec := rec.readBytesPerSec
  writeBytesPerSec := rec.writeBytesPerSec
  readIops := rec.readIops
  writeIops := rec.writeIops
  avgReadLatencyMs := rec.avgReadLatencyMs
  avgWriteLatencyMs := rec.avgWriteLatencyMs
  utilPercent := rec.utilPercent

/-- What `QueryMemDetail` copies of a record. -/
def memDetailRecord (rec : MemDetailRecord F) : Proto.MemDetailRecord F where
  serverName := rec.serverName
  timestamp := setTimestamp rec.timestamp
  total := rec.total
  free := rec.free
  avail := rec.avail
  buffers := rec.buffers
  cached := rec.cached
  active := rec.active
  inactive := rec.inactive
  dirty := rec.dirty

omit [CxxFloat F] in
/-- What `QuerySoftIrqDetail` copies of a record. -/
def softIrqDetailRecord (rec : SoftIrqDetailRecord) : Proto.SoftIrqDetailRecord where
  serverName := rec.serverName
  cpuName := rec.cpuName
  timestamp := setTimestamp rec.timestamp
  hi := rec.hi
  timer := rec.timer
  netTx := rec.netTx
  netRx := rec.netRx
  block := rec.block
  sched := rec.sched

/-! ### RPCs -/

/-- The answer without a `QueryManager`. -/
def unavailable : Status := ⟨.unavailable, "Query manager not initialized"⟩

/-- The answer to a reversed time range. -/
def invalidTimeRange : Status := ⟨.invalidArgument, "Invalid time range: start_time > end_time"⟩

/-- What the RPCs for a page of a time range have in common; `none` stands for a null pointer. -/
def pageRpc {R P : Type} (query : QueryFunctions F → TimeRange → Int32 → Int32 → List R × Int32)
    (copy : R → P) (queryManager : Option (QueryFunctions F)) (timeRange : Proto.TimeRange)
    (pagination : Proto.Pagination) : Status × Proto.PageResponse P :=
  match queryManager with
  | none => (unavailable, {})
  | some queryManager =>
    let timeRange := convertTimeRange timeRange
    if !validateTimeRange timeRange then (invalidTimeRange, {})
    else
      let page := normalizePage pagination.page
      let pageSize := normalizePageSize pagination.pageSize
      let (records, totalCount) := query queryManager timeRange page pageSize
      (.ok, ⟨records.map copy, totalCount, page, pageSize⟩)

variable (queryManager : Option (QueryFunctions F))

/-- `QueryPerformance`. -/
def queryPerformance (request : Proto.QueryPerformanceRequest) :
    Status × Proto.PageResponse (Proto.PerformanceRecord F) :=
  pageRpc (fun q => q.queryPerformance request.serverName) performanceRecord queryManager
    request.timeRange request.pagination

/-- `QueryTrend`. -/
def queryTrend (request : Proto.QueryTrendRequest) : Status × Proto.QueryTrendResponse F :=
  match queryManager with
  | none => (unavailable, {})
  | some queryManager =>
    let timeRange := convertTimeRange request.timeRange
    if !validateTimeRange timeRange then (invalidTimeRange, {})
    else
      let records :=
        queryManager.queryTrend request.serverName timeRange request.intervalSeconds
      (.ok, ⟨records.map trendRecord, request.intervalSeconds⟩)

/-- `QueryAnomaly`. -/
def queryAnomaly (request : Proto.QueryAnomalyRequest F) :
    Status × Proto.PageResponse (Proto.AnomalyRecord F) :=
  let thresholds := AnomalyThresholds.orDefaults ⟨request.cpuThreshold, request.memThreshold,
    request.diskThreshold, request.changeRateThreshold⟩
  pageRpc (fun q range => q.queryAnomaly request.serverName range thresholds) anomalyRecord
    queryManager request.timeRange request.pagination

/-- `QueryScoreRank`. -/
def queryScoreRank (request : Proto.QueryScoreRankRequest) :
    Status × Proto.PageResponse (Proto.ServerScoreSummary F) :=
  match queryManager with
  | none => (unavailable, {})
  | some queryManager =>
    let order : SortOrder := match request.order with
      | .asc => .asc
      | _ => .desc
    let page := normalizePage request.pagination.page
    let pageSize := normalizePageSize request.pagination.pageSize
    let (records, totalCount) := queryManager.queryScoreRank order page pageSize
    (.ok, ⟨records.map serverScoreSummary, totalCount, page, pageSize⟩)

/-- `QueryLatestScore`. -/
def queryLatestScore : Status × Proto.QueryLatestScoreResponse F :=
  match queryManager with
  | none => (unavailable, {})
  | some queryManager =>
    let (records, stats) := queryManager.queryLatestScore
    (.ok, ⟨records.map serverScoreSummary, clusterStats stats⟩)

/-- `QueryNetDetail`. -/
def queryNetDetail (request : Proto.QueryDetailRequest) :
    Status × Proto.PageResponse (Proto.NetDetailRecord F) :=
  pageRpc (fun q => q.queryNetDetail request.serverName) netDetailRecord queryManager
    request.timeRange request.pagination

/-- `QueryDiskDetail`. -/
def queryDiskDetail (request : Proto.QueryDetailRequest) :
    Status × Proto.PageResponse (Proto.DiskDetailRecord F) :=
  pageRpc (fun q => q.queryDiskDetail request.serverName) diskDetailRecord queryManager
    request.timeRange request.pagination

/-- `QueryMemDetail`. -/
def queryMemDetail (request : Proto.QueryDetailRequest) :
    Status × Proto.PageResponse (Proto.MemDetailRecord F) :=
  pageRpc (fun q => q.queryMemDetail request.serverName) memDetailRecord queryManager
    request.timeRange request.pagination

/-- `QuerySoftIrqDetail`. -/
def querySoftIrqDetail (request : Proto.QueryDetailRequest) :
    Status × Proto.PageResponse Proto.SoftIrqDetailRecord :=
  pageRpc (fun q => q.querySoftIrqDetail request.serverName) softIrqDetailRecord queryManager
    request.timeRange request.pagination

/-- With a valid time range, the records of the page are copied. -/
theorem records_pageRpc {R P : Type}
    (query : QueryFunctions F → TimeRange → Int32 → Int32 → List R × Int32) (copy : R → P)
    (q : QueryFunctions F) {timeRange : Proto.TimeRange}
    (hvalid : validateTimeRange (convertTimeRange timeRange) = true)
    (pagination : Proto.Pagination) :
    (pageRpc query copy (some q) timeRange pagination).2.records =
      (query q (convertTimeRange timeRange) (normalizePage pagination.page)
        (normalizePageSize pagination.pageSize)).1.map copy := by
  simp [pageRpc, hvalid]

/-! ### When a time range is refused -/

/-- With a `QueryManager`, the range is refused exactly when it is reversed after the conversion. -/
theorem code_pageRpc_iff {R P : Type}
    (query : QueryFunctions F → TimeRange → Int32 → Int32 → List R × Int32) (copy : R → P)
    (q : QueryFunctions F) (timeRange : Proto.TimeRange) (pagination : Proto.Pagination) :
    (pageRpc query copy (some q) timeRange pagination).1.code = .invalidArgument ↔
      validateTimeRange (convertTimeRange timeRange) = false := by
  unfold pageRpc
  cases hvalid : validateTimeRange (convertTimeRange timeRange) <;>
    simp [hvalid, invalidTimeRange, Status.ok]

theorem code_queryTrend_iff (q : QueryFunctions F) (request : Proto.QueryTrendRequest) :
    (queryTrend (some q) request).1.code = .invalidArgument ↔
      validateTimeRange (convertTimeRange request.timeRange) = false := by
  unfold queryTrend
  cases hvalid : validateTimeRange (convertTimeRange request.timeRange) <;>
    simp [hvalid, invalidTimeRange, Status.ok]

end QueryService

end MonitorSystem
