import MonitorSystem.Library.ClockText
import MonitorSystem.Library.CxxFloat
import MonitorSystem.Library.SqlText

/-!
# The statements of `QueryManager`

The statements that the query functions send to MySQL, in the order in which they do.  A name or a
time that the source puts between two quotes is a literal here; everything else is code.  A
function sends nothing when there is no connection or when the time range is reversed.
-/

namespace MonitorSystem

open SqlText

/-- `TimeRange`; a time point is a number of nanoseconds. -/
structure TimeRange where
  startTime : ℤ
  endTime : ℤ

/-- `AnomalyThresholds`. -/
structure AnomalyThresholds (F : Type) where
  cpuThreshold : F
  memThreshold : F
  diskThreshold : F
  changeRateThreshold : F

/-- `SortOrder`. -/
inductive SortOrder
  | desc
  | asc

namespace QueryManager

/-- A statement, in pieces. -/
abbrev Statement := List Segment

/-- `ValidateTimeRange`. -/
def validateTimeRange (range : TimeRange) : Bool := range.startTime ≤ range.endTime

/-- `FormatTime`. -/
def formatTime (localtime : ℤ → ClockText.Tm) (tp : ℤ) : List Char :=
  ClockText.strftime (localtime (tp.tdiv 1000000000))

/-- An integer in a statement. -/
def intText (n : Int32) : List Char := DecimalText.intText n.toInt

/-- `if (page < 1) page = 1`. -/
def normalizePage (page : Int32) : Int32 := if page < 1 then 1 else page

/-- `if (page_size < 1) page_size = 100`. -/
def normalizePageSize (pageSize : Int32) : Int32 := if pageSize < 1 then 100 else pageSize

/-- `(page - 1) * page_size`. -/
def offset (page pageSize : Int32) : Int32 := (page - 1) * pageSize

section Statements

variable (localtime : ℤ → ClockText.Tm)

/-- `'server_name' AND timestamp BETWEEN 'start_time' AND 'end_time'`. -/
def serverAndRange (serverName : String) (range : TimeRange) (rest : Statement) : Statement :=
  .literal serverName.toList :: .code " AND timestamp BETWEEN ".toList ::
    .literal (formatTime localtime range.startTime) :: .code " AND ".toList ::
    .literal (formatTime localtime range.endTime) :: rest

/-- `count_sql` of the queries for one server. -/
def countSql (table : List Char) (serverName : String) (range : TimeRange) : Statement :=
  .code ("SELECT COUNT(*) FROM ".toList ++ table ++ " WHERE server_name=".toList) ::
    serverAndRange localtime serverName range []

/-- `sql` of the queries for one page of the rows of one server. -/
def pageSql (columns table : List Char) (serverName : String) (range : TimeRange)
    (page pageSize : Int32) : Statement :=
  .code ("SELECT ".toList ++ columns ++ " FROM ".toList ++ table ++ " WHERE server_name=".toList) ::
    serverAndRange localtime serverName range
      [.code (" ORDER BY timestamp DESC LIMIT ".toList ++ intText pageSize ++ " OFFSET ".toList ++
        intText (offset page pageSize))]

/-- What the queries for one page of the rows of one server have in common; the number of rows is
asked for when the caller wants it. -/
def pageQuery (columns table : List Char) (connected wantsCount : Bool) (serverName : String)
    (range : TimeRange) (page pageSize : Int32) : List Statement :=
  if !connected then []
  else if !validateTimeRange range then []
  else
    let page := normalizePage page
    let pageSize := normalizePageSize pageSize
    (if wantsCount then [countSql localtime table serverName range] else []) ++
      [pageSql localtime columns table serverName range page pageSize]

/-- `QueryPerformance`. -/
def queryPerformance : Bool → Bool → String → TimeRange → Int32 → Int32 → List Statement :=
  pageQuery localtime
    ("server_name, timestamp, cpu_percent, usr_percent, ".toList ++
      "system_percent, nice_percent, idle_percent, io_wait_percent, ".toList ++
      "irq_percent, soft_irq_percent, load_avg_1, load_avg_3, load_avg_15, ".toList ++
      "mem_used_percent, total, free, avail, disk_util_percent, ".toList ++
      "send_rate, rcv_rate, score, cpu_percent_rate, mem_used_percent_rate, ".toList ++
      "disk_util_percent_rate, load_avg_1_rate, send_rate_rate, rcv_rate_rate".toList)
    "server_performance".toList

/-- `QueryNetDetail`. -/
def queryNetDetail : Bool → Bool → String → TimeRange → Int32 → Int32 → List Statement :=
  pageQuery localtime
    ("server_name, net_name, timestamp, err_in, err_out, ".toList ++
      "drop_in, drop_out, rcv_bytes_rate, snd_bytes_rate, ".toList ++
      "rcv_packets_rate, snd_packets_rate".toList)
    "server_net_detail".toList

/-- `QueryDiskDetail`. -/
def queryDiskDetail : Bool → Bool → String → TimeRange → Int32 → Int32 → List Statement :=
  pageQuery localtime
    ("server_name, disk_name, timestamp, read_bytes_per_sec, ".toList ++
      "write_bytes_per_sec, read_iops, write_iops, avg_read_latency_ms, ".toList ++
      "avg_write_latency_ms, util_percent".toList)
    "server_disk_detail".toList

/-- `QueryMemDetail`. -/
def queryMemDetail : Bool → Bool → String → TimeRange → Int32 → Int32 → List Statement :=
  pageQuery localtime
    ("server_name, timestamp, total, free, avail, buffers, ".toList ++
      "cached, active, inactive, dirty".toList)
    "server_mem_detail".toList

/-- `QuerySoftIrqDetail`. -/
def querySoftIrqDetail : Bool → Bool → String → TimeRange → Int32 → Int32 → List Statement :=
  pageQuery localtime
    ("server_name, cpu_name, timestamp, hi, timer, net_tx, ".toList ++
      "net_rx, block, sched".toList)
    "server_softirq_detail".toList

/-- The statement of `QueryTrend` for averages over intervals. -/
def aggregatedSql (serverName : String) (range : TimeRange) (intervalSeconds : Int32) :
    Statement :=
  .code ("SELECT server_name, FROM_UNIXTIME(FLOOR(UNIX_TIMESTAMP(timestamp) / ".toList ++
      intText intervalSeconds ++ ") * ".toList ++ intText intervalSeconds ++
      ") as time_bucket, ".toList ++
      "AVG(cpu_percent) as cpu_percent, ".toList ++
      "AVG(usr_percent) as usr_percent, ".toList ++
      "AVG(system_percent) as system_percent, ".toList ++
      "AVG(io_wait_percent) as io_wait_percent, ".toList ++
      "AVG(load_avg_1) as load_avg_1, ".toList ++
      "AVG(load_avg_3) as load_avg_3, ".toList ++
      "AVG(load_avg_15) as load_avg_15, ".toList ++
      "AVG(mem_used_percent) as mem_used_percent, ".toList ++
      "AVG(disk_util_percent) as disk_util_percent, ".toList ++
      "AVG(send_rate) as send_rate, ".toList ++
      "AVG(rcv_rate) as rcv_rate, ".toList ++
      "AVG(score) as score, ".toList ++
      "AVG(cpu_percent_rate) as cpu_percent_rate, ".toList ++
      "AVG(mem_used_percent_rate) as mem_used_percent_rate, ".toList ++
      "AVG(disk_util_percent_rate) as disk_util_percent_rate, ".toList ++
      "AVG(load_avg_1_rate) as load_avg_1_rate ".toList ++
      "FROM server_performance WHERE server_name=".toList) ::
    serverAndRange localtime serverName range
      [.code " GROUP BY server_name, time_bucket ORDER BY time_bucket".toList]

/-- The statement of `QueryTrend` for the rows themselves. -/
def plainSql (serverName : String) (range : TimeRange) : Statement :=
  .code ("SELECT server_name, timestamp, cpu_percent, usr_percent, ".toList ++
      "system_percent, io_wait_percent, load_avg_1, load_avg_3, ".toList ++
      "load_avg_15, mem_used_percent, disk_util_percent, send_rate, ".toList ++
      "rcv_rate, score, cpu_percent_rate, mem_used_percent_rate, ".toList ++
      "disk_util_percent_rate, load_avg_1_rate ".toList ++
      "FROM server_performance WHERE server_name=".toList) ::
    serverAndRange localtime serverName range [.code " ORDER BY timestamp".toList]

/-- `QueryTrend`. -/
def queryTrend (connected : Bool) (serverName : String) (range : TimeRange)
    (intervalSeconds : Int32) : List Statement :=
  if !connected then []
  else if !validateTimeRange range then []
  else if 0 < intervalSeconds then
    [aggregatedSql localtime serverName range intervalSeconds]
  else [plainSql localtime serverName range]

variable {F : Type} [CxxFloat F]

/-- The part of `where_clause` in `QueryAnomaly` about the thresholds. -/
def thresholdClause (thresholds : AnomalyThresholds F) : List Char :=
  " AND (cpu_percent > ".toList ++ CxxFloat.print thresholds.cpuThreshold ++
    " OR mem_used_percent > ".toList ++ CxxFloat.print thresholds.memThreshold ++
    " OR disk_util_percent > ".toList ++ CxxFloat.print thresholds.diskThreshold ++
    " OR ABS(cpu_percent_rate) > ".toList ++ CxxFloat.print thresholds.changeRateThreshold ++
    " OR ABS(mem_used_percent_rate) > ".toList ++ CxxFloat.print thresholds.changeRateThreshold ++
    ")".toList

/-- `where_clause` in `QueryAnomaly`; without a name, the rows of all servers. -/
def whereClause (serverName : String) (range : TimeRange) (thresholds : AnomalyThresholds F) :
    Statement :=
  [.code "timestamp BETWEEN ".toList, .literal (formatTime localtime range.startTime),
    .code " AND ".toList, .literal (formatTime localtime range.endTime)] ++
  (if serverName ≠ "" then [.code " AND server_name=".toList, .literal serverName.toList]
    else []) ++
  [.code (thresholdClause thresholds)]

/-- `QueryAnomaly`. -/
def queryAnomaly (connected wantsCount : Bool) (serverName : String) (range : TimeRange)
    (thresholds : AnomalyThresholds F) (page pageSize : Int32) : List Statement :=
  if !connected then []
  else if !validateTimeRange range then []
  else
    let page := normalizePage page
    let pageSize := normalizePageSize pageSize
    let clause := whereClause localtime serverName range thresholds
    (if wantsCount then
      [.code "SELECT COUNT(*) FROM server_performance WHERE ".toList :: clause] else []) ++
    [.code ("SELECT server_name, timestamp, cpu_percent, mem_used_percent, ".toList ++
        "disk_util_percent, cpu_percent_rate, mem_used_percent_rate ".toList ++
        "FROM server_performance WHERE ".toList) :: clause ++
      [.code (" ORDER BY timestamp DESC LIMIT ".toList ++ intText pageSize ++
        " OFFSET ".toList ++ intText (offset page pageSize))]]

end Statements

/-! ### The latest scores -/

/-- What the statements for the latest scores begin with. -/
def latestRowsSql : List Char :=
  "SELECT p1.server_name, p1.score, p1.timestamp, p1.cpu_percent, ".toList ++
    "p1.mem_used_percent, p1.disk_util_percent, p1.load_avg_1 ".toList ++
    "FROM server_performance p1 ".toList ++
    "INNER JOIN (".toList ++
    "  SELECT server_name, MAX(timestamp) as max_ts ".toList ++
    "  FROM server_performance GROUP BY server_name".toList ++
    ") p2 ON p1.server_name = p2.server_name AND p1.timestamp = p2.max_ts ".toList ++
    "ORDER BY p1.score ".toList

/-- `sql` of `QueryLatestScore`. -/
def latestScoreSql : Statement := [.code (latestRowsSql ++ "DESC".toList)]

/-- `count_sql` of `QueryScoreRank`. -/
def countServersSql : Statement :=
  [.code "SELECT COUNT(DISTINCT server_name) FROM server_performance".toList]

/-- `order_str`. -/
def orderStr : SortOrder → List Char
  | .desc => "DESC".toList
  | .asc => "ASC".toList

/-- `sql` of `QueryScoreRank`. -/
def scoreRankSql (order : SortOrder) (page pageSize : Int32) : Statement :=
  [.code (latestRowsSql ++ orderStr order ++ " LIMIT ".toList ++ intText pageSize ++
    " OFFSET ".toList ++ intText (offset page pageSize))]

/-! ### Calls about one server -/

/-- A call of a query function that takes a server name. -/
inductive Query (F : Type)
  | performance (range : TimeRange) (page pageSize : Int32)
  | trend (range : TimeRange) (intervalSeconds : Int32)
  | anomaly (range : TimeRange) (thresholds : AnomalyThresholds F) (page pageSize : Int32)
  | netDetail (range : TimeRange) (page pageSize : Int32)
  | diskDetail (range : TimeRange) (page pageSize : Int32)
  | memDetail (range : TimeRange) (page pageSize : Int32)
  | softIrqDetail (range : TimeRange) (page pageSize : Int32)

/-- `time_range` of a call. -/
def Query.range {F : Type} : Query F → TimeRange
  | .performance range _ _ => range
  | .trend range _ => range
  | .anomaly range _ _ _ => range
  | .netDetail range _ _ => range
  | .diskDetail range _ _ => range
  | .memDetail range _ _ => range
  | .softIrqDetail range _ _ => range

/-- The statements of a call. -/
def Query.statements {F : Type} [CxxFloat F] (localtime : ℤ → ClockText.Tm)
    (connected wantsCount : Bool) (serverName : String) : Query F → List Statement
  | .performance range page pageSize =>
    queryPerformance localtime connected wantsCount serverName range page pageSize
  | .trend range intervalSeconds =>
    queryTrend localtime connected serverName range intervalSeconds
  | .anomaly range thresholds page pageSize =>
    queryAnomaly localtime connected wantsCount serverName range thresholds page pageSize
  | .netDetail range page pageSize =>
    queryNetDetail localtime connected wantsCount serverName range page pageSize
  | .diskDetail range page pageSize =>
    queryDiskDetail localtime connected wantsCount serverName range page pageSize
  | .memDetail range page pageSize =>
    queryMemDetail localtime connected wantsCount serverName range page pageSize
  | .softIrqDetail range page pageSize =>
    querySoftIrqDetail localtime connected wantsCount serverName range page pageSize

end QueryManager

end MonitorSystem
