import MonitorSystem.Manager.DetailPages

/-!
# `QueryPerformance` and `QueryMemDetail`

Two more functions that answer one page of the rows of a server at a time, in the same way as those
of `Manager/DetailPages.lean`.  What they share with them is `pageQuery`; the number of rows that
comes with a page is that of `count_sql`.
-/

namespace MonitorSystem

open ClockText (Tm)
open QueryManager

variable {F : Type}

/-! ### The records -/

/-- `PerformanceRecord`; a field that is not read keeps its initial value. -/
structure PerformanceRecord (F : Type) [CxxFloat F] where
  serverName : String
  timestamp : ℤ
  cpuPercent : F := 0
  usrPercent : F := 0
  systemPercent : F := 0
  nicePercent : F := 0
  idlePercent : F := 0
  ioWaitPercent : F := 0
  irqPercent : F := 0
  softIrqPercent : F := 0
  loadAvg1 : F := 0
  loadAvg3 : F := 0
  loadAvg15 : F := 0
  memUsedPercent : F := 0
  memTotal : F := 0
  memFree : F := 0
  memAvail : F := 0
  diskUtilPercent : F := 0
  sendRate : F := 0
  rcvRate : F := 0
  score : F := 0
  cpuPercentRate : F := 0
  memUsedPercentRate : F := 0
  diskUtilPercentRate : F := 0
  loadAvg1Rate : F := 0
  sendRateRate : F := 0
  rcvRateRate : F := 0

/-- `MemDetailRecord`. -/
structure MemDetailRecord (F : Type) where
  serverName : String
  timestamp : ℤ
  total : F
  free : F
  avail : F
  buffers : F
  cached : F
  active : F
  inactive : F
  dirty : F

/-- The columns that `QueryPerformance` selects. -/
def performanceColumns : List String :=
  ["server_name", "timestamp", "cpu_percent", "usr_percent",
    "system_percent", "nice_percent", "idle_percent", "io_wait_percent",
    "irq_percent", "soft_irq_percent", "load_avg_1", "load_avg_3", "load_avg_15",
    "mem_used_percent", "total", "free", "avail", "disk_util_percent",
    "send_rate", "rcv_rate", "score", "cpu_percent_rate", "mem_used_percent_rate",
    "disk_util_percent_rate", "load_avg_1_rate", "send_rate_rate", "rcv_rate_rate"]

namespace Mysql

variable [CxxFloat F] (db : Mysql F)

/-- `QueryPerformance`. -/
def performance : DetailQuery F (PerformanceRecord F) where
  table := "server_performance"
  columns := performanceColumns
  read now row :=
    { serverName := readName (row 0)
      timestamp := db.readTime now (row 1)
      cpuPercent := db.readFloat (row 2)
      usrPercent := db.readFloat (row 3)
      systemPercent := db.readFloat (row 4)
      nicePercent := db.readFloat (row 5)
      idlePercent := db.readFloat (row 6)
      ioWaitPercent := db.readFloat (row 7)
      irqPercent := db.readFloat (row 8)
      softIrqPercent := db.readFloat (row 9)
      loadAvg1 := db.readFloat (row 10)
      loadAvg3 := db.readFloat (row 11)
      loadAvg15 := db.readFloat (row 12)
      memUsedPercent := db.readFloat (row 13)
      memTotal := db.readFloat (row 14)
      memFree := db.readFloat (row 15)
      memAvail := db.readFloat (row 16)
      diskUtilPercent := db.readFloat (row 17)
      sendRate := db.readFloat (row 18)
      rcvRate := db.readFloat (row 19)
      score := db.readFloat (row 20)
      cpuPercentRate := db.readFloat (row 21)
      memUsedPercentRate := db.readFloat (row 22)
      diskUtilPercentRate := db.readFloat (row 23)
      loadAvg1Rate := db.readFloat (row 24)
      sendRateRate := db.readFloat (row 25)
      rcvRateRate := db.readFloat (row 26) }
  read_fetch _ _ := rfl

/-- `QueryMemDetail`. -/
def memDetail : DetailQuery F (MemDetailRecord F) where
  table := "server_mem_detail"
  columns :=
    ["server_name", "timestamp", "total", "free", "avail", "buffers",
      "cached", "active", "inactive", "dirty"]
  read now row :=
    { serverName := readName (row 0)
      timestamp := db.readTime now (row 1)
      total := db.readFloat (row 2)
      free := db.readFloat (row 3)
      avail := db.readFloat (row 4)
      buffers := db.readFloat (row 5)
      cached := db.readFloat (row 6)
      active := db.readFloat (row 7)
      inactive := db.readFloat (row 8)
      dirty := db.readFloat (row 9) }
  read_fetch _ _ := rfl

end Mysql

theorem columnsText_performanceColumns : columnsText performanceColumns =
    "server_name, timestamp, cpu_percent, usr_percent, ".toList ++
      "system_percent, nice_percent, idle_percent, io_wait_percent, ".toList ++
      "irq_percent, soft_irq_percent, load_avg_1, load_avg_3, load_avg_15, ".toList ++
      "mem_used_percent, total, free, avail, disk_util_percent, ".toList ++
      "send_rate, rcv_rate, score, cpu_percent_rate, mem_used_percent_rate, ".toList ++
      "disk_util_percent_rate, load_avg_1_rate, send_rate_rate, rcv_rate_rate".toList := by
  decide +kernel

theorem queryPerformance_eq [CxxFloat F] (db : Mysql F) (localtime : ℤ → Tm) :
    queryPerformance localtime = db.performance.statements localtime := by
  have hcolumns : columnsText db.performance.columns = _ := columnsText_performanceColumns
  rw [queryPerformance, DetailQuery.statements, hcolumns]
  rfl

theorem queryMemDetail_eq [CxxFloat F] (db : Mysql F) (localtime : ℤ → Tm) :
    queryMemDetail localtime = db.memDetail.statements localtime := by
  unfold queryMemDetail DetailQuery.statements
  congr 1

/-! ### A call and its answers -/

/-- What MySQL answers: the rows of a selection, and the number of a `COUNT`; `none` stands for an
error. -/
structure World (F : Type) where
  select : Statement → Option (List (MysqlRow F))
  count : Statement → Option ℕ

/-- `GetTotalCount`. -/
def World.totalCount (world : World F) (statement : Statement) : Int32 :=
  ((world.count statement).map getTotalCount).getD 0

/-- A call of a query function for a page, at the time `now`: the records that it returns and
`total_count`. -/
def DetailQuery.run {R : Type} (query : DetailQuery F R) (localtime : ℤ → Tm) (world : World F)
    (connected : Bool) (now : ℤ) (serverName : String) (range : TimeRange)
    (page pageSize : Int32) : List R × Int32 :=
  if !connected then ([], 0)
  else if !validateTimeRange range then ([], 0)
  else
    let page := normalizePage page
    let pageSize := normalizePageSize pageSize
    (query.page true range now
      (world.select (pageSql localtime (columnsText query.columns) query.table.toList serverName
        range page pageSize)),
      world.totalCount (countSql localtime query.table.toList serverName range))

end MonitorSystem
