import MonitorSystem.Library.ClockText
import MonitorSystem.Library.SqlText
import MonitorSystem.Manager.Store

/-!
# `ProcessData` and `WriteToMysql`

What one consumer thread does with one report, as a function on the store: the score, the
performance snapshot and its relative changes, the update of the histories, and the `INSERT`
statements sent to MySQL.  Values are those of an arbitrary `CxxFloat`: `float` variables are
rounded with `toFloat` where a `double` is stored in them.

A statement is kept as its table, its columns and its values, in the order in which the source
lists them; `WriteToMysql` passes and splices everything by position, and so does
`writeToMysql`.
-/

namespace MonitorSystem

open CxxFloat (toFloat lit)
variable {F : Type}

/-- What the functions of `HostManager` take from their surroundings: `std::hash`, the number of
threads, and the time zone. -/
structure Env where
  hash : String → ℕ
  threadCount : ℕ
  localtime : ℤ → ClockText.Tm

/-- A value of an `INSERT` statement; `name` and `time` stand between quotes. -/
inductive SqlValue (F : Type)
  | name (s : String)
  | float (x : F)
  | uint64 (n : UInt64)
  | time (t : ClockText.Tm)

/-- An `INSERT` statement. -/
structure Insert (F : Type) where
  table : String
  columns : List String
  values : List (SqlValue F)

/-- The `server_name` of a statement, which is always its first value. -/
def Insert.serverName (statement : Insert F) : Option String :=
  match statement.values with
  | .name s :: _ => some s
  | _ => none

/-- What becomes of `mysql_init` and `mysql_real_connect`. -/
inductive Connection
  | initFailed
  | connectFailed
  | connected
  deriving DecidableEq

variable [CxxFloat F]

/-- A value in the text of a statement. -/
def SqlValue.segment : SqlValue F → SqlText.Segment
  | .name s => .literal s.toList
  | .float x => .code (CxxFloat.print x)
  | .uint64 n => .code (DecimalText.natText n.toNat)
  | .time t => .literal (ClockText.strftime t)

/-- The values between commas, and the closing parenthesis. -/
def valueSegments : List (SqlValue F) → List SqlText.Segment
  | [] => [.code [')']]
  | [value] => [value.segment, .code [')']]
  | value :: rest => value.segment :: .code [','] :: valueSegments rest

/-- The text of a statement up to its values. -/
def Insert.header (statement : Insert F) : List Char :=
  "INSERT INTO ".toList ++ statement.table.toList ++ " (".toList ++
    [',', ' '].intercalate (statement.columns.map String.toList) ++ ") VALUES (".toList

/-- The text of a statement, in pieces. -/
def Insert.segments (statement : Insert F) : List SqlText.Segment :=
  .code statement.header :: valueSegments statement.values

/-- The lambda `rate`. -/
def rate (nowVal lastVal : F) : F :=
  if lastVal == 0 then 0 else toFloat (toFloat (nowVal - lastVal) / lastVal)

/-- `static_cast<float>` of a counter. -/
def floatOfCounter (n : UInt64) : F := toFloat (n.toNat : F)

/-- The lambda `rate_u64`; the difference of the counters wraps around. -/
def rateU64 (nowVal lastVal : UInt64) : F :=
  if lastVal == 0 then 0
  else toFloat (floatOfCounter (nowVal - lastVal) / floatOfCounter lastVal)

/-! ### The score -/

/-- The lambda `clamp`. -/
def clamp (v : F) : F := if v < 0 then 0 else if lit 1 1 < v then lit 1 1 else v

/-- The loop for the highest utilisation of a disk. -/
def diskUtil (info : MonitorInfo F) : F :=
  info.diskInfo.foldl (fun diskUtil disk =>
    let util := toFloat disk.utilPercent
    if diskUtil < util then util else diskUtil) 0

/-- `CalcScore`. -/
def calcScore (info : MonitorInfo F) : F :=
  let cpuPercent := (info.cpuStat.head?.map (·.cpuPercent)).getD 0
  -- one less than the entries, as if the first of them were the total of the others
  let cpuCores := if info.cpuStat.length - 1 < 1 then 1 else info.cpuStat.length - 1
  let loadAvg1 := (info.cpuLoad.map (·.loadAvg1)).getD 0
  let memPercent := (info.memInfo.map (·.usedPercent)).getD 0
  let netRecvRate := (info.netInfo.head?.map (·.rcvRate)).getD 0
  let netSendRate := (info.netInfo.head?.map (·.sendRate)).getD 0
  let cpuScore := clamp (lit 1 1 - cpuPercent / lit 100 1)
  let memScore := clamp (lit 1 1 - memPercent / lit 100 1)
  let loadScore := clamp (lit 1 1 - loadAvg1 / ((cpuCores : F) * lit 3 2))
  let diskScore := clamp (lit 1 1 - diskUtil info / lit 100 1)
  let netScore := clamp (lit 1 1 - (netRecvRate + netSendRate) / (lit 2 1 * lit 125000000 1))
  let score := (cpuScore * lit 35 100 + memScore * lit 30 100 + loadScore * lit 15 100 +
    diskScore * lit 15 100 + netScore * lit 5 100) * lit 100 1
  if score < 0 then 0 else if lit 100 1 < score then lit 100 1 else score

/-! ### The performance snapshot -/

/-- `net_in_rate` in `ProcessData`. -/
def netInRate (info : MonitorInfo F) : F :=
  (info.netInfo.head?.map fun net => net.rcvRate / (lit 1024 1 * lit 1024 1)).getD 0

/-- `net_out_rate` in `ProcessData`. -/
def netOutRate (info : MonitorInfo F) : F :=
  (info.netInfo.head?.map fun net => net.sendRate / (lit 1024 1 * lit 1024 1)).getD 0

/-- `curr` in `ProcessData`. -/
def perfSample (info : MonitorInfo F) : PerfSample F where
  cpuPercent := (info.cpuStat.head?.map (·.cpuPercent)).getD 0
  usrPercent := (info.cpuStat.head?.map (·.usrPercent)).getD 0
  systemPercent := (info.cpuStat.head?.map (·.systemPercent)).getD 0
  nicePercent := (info.cpuStat.head?.map (·.nicePercent)).getD 0
  idlePercent := (info.cpuStat.head?.map (·.idlePercent)).getD 0
  ioWaitPercent := (info.cpuStat.head?.map (·.ioWaitPercent)).getD 0
  irqPercent := (info.cpuStat.head?.map (·.irqPercent)).getD 0
  softIrqPercent := (info.cpuStat.head?.map (·.softIrqPercent)).getD 0
  loadAvg1 := (info.cpuLoad.map (·.loadAvg1)).getD 0
  loadAvg3 := (info.cpuLoad.map (·.loadAvg3)).getD 0
  loadAvg15 := (info.cpuLoad.map (·.loadAvg15)).getD 0
  memUsedPercent := (info.memInfo.map (·.usedPercent)).getD 0
  memTotal := (info.memInfo.map (·.total)).getD 0
  memFree := (info.memInfo.map (·.free)).getD 0
  memAvail := (info.memInfo.map (·.avail)).getD 0
  netInRate := toFloat (netInRate info)
  netOutRate := toFloat (netOutRate info)
  score := toFloat (calcScore info)

/-! ### The statements -/

open SqlValue (name float uint64 time)

/-- The row of `server_performance`; the values are extracted from the report a second time. -/
def performanceInsert (hostName : String) (timeBuf : ClockText.Tm) (hostScore : HostScore F)
    (diskUtilPercent cpuPercentRate usrPercentRate systemPercentRate
      nicePercentRate idlePercentRate ioWaitPercentRate
      irqPercentRate softIrqPercentRate
      loadAvg1Rate loadAvg3Rate loadAvg15Rate
      memUsedPercentRate memTotalRate memFreeRate memAvailRate
      diskUtilPercentRate netInRateRate netOutRateRate : F) : Insert F :=
  let info := hostScore.info
  let total := (info.memInfo.map (·.total)).getD 0
  let freeMem := (info.memInfo.map (·.free)).getD 0
  let avail := (info.memInfo.map (·.avail)).getD 0
  let memUsedPercent := (info.memInfo.map (·.usedPercent)).getD 0
  let sendRate := (info.netInfo.head?.map fun net => toFloat (net.sendRate / lit 1024 1)).getD 0
  let rcvRate := (info.netInfo.head?.map fun net => toFloat (net.rcvRate / lit 1024 1)).getD 0
  let cpuPercent := (info.cpuStat.head?.map (·.cpuPercent)).getD 0
  let usrPercent := (info.cpuStat.head?.map (·.usrPercent)).getD 0
  let systemPercent := (info.cpuStat.head?.map (·.systemPercent)).getD 0
  let nicePercent := (info.cpuStat.head?.map (·.nicePercent)).getD 0
  let idlePercent := (info.cpuStat.head?.map (·.idlePercent)).getD 0
  let ioWaitPercent := (info.cpuStat.head?.map (·.ioWaitPercent)).getD 0
  let irqPercent := (info.cpuStat.head?.map (·.irqPercent)).getD 0
  let softIrqPercent := (info.cpuStat.head?.map (·.softIrqPercent)).getD 0
  let loadAvg1 := (info.cpuLoad.map (·.loadAvg1)).getD 0
  let loadAvg3 := (info.cpuLoad.map (·.loadAvg3)).getD 0
  let loadAvg15 := (info.cpuLoad.map (·.loadAvg15)).getD 0
  { table := "server_performance"
    columns :=
      ["server_name", "cpu_percent", "usr_percent", "system_percent", "nice_percent",
        "idle_percent", "io_wait_percent", "irq_percent", "soft_irq_percent",
        "load_avg_1", "load_avg_3", "load_avg_15",
        "mem_used_percent", "total", "free", "avail",
        "disk_util_percent", "send_rate", "rcv_rate", "score",
        "cpu_percent_rate", "usr_percent_rate", "system_percent_rate",
        "nice_percent_rate", "idle_percent_rate", "io_wait_percent_rate",
        "irq_percent_rate", "soft_irq_percent_rate",
        "load_avg_1_rate", "load_avg_3_rate", "load_avg_15_rate",
        "mem_used_percent_rate", "total_rate", "free_rate", "avail_rate",
        "disk_util_percent_rate", "send_rate_rate", "rcv_rate_rate", "timestamp"]
    values :=
      [name hostName,
        float cpuPercent, float usrPercent, float systemPercent,
        float nicePercent, float idlePercent, float ioWaitPercent,
        float irqPercent, float softIrqPercent,
        float loadAvg1, float loadAvg3, float loadAvg15,
        float memUsedPercent, float total, float freeMem, float avail,
        float diskUtilPercent, float sendRate, float rcvRate, float hostScore.score,
        float cpuPercentRate, float usrPercentRate, float systemPercentRate,
        float nicePercentRate, float idlePercentRate, float ioWaitPercentRate,
        float irqPercentRate, float softIrqPercentRate,
        float loadAvg1Rate, float loadAvg3Rate, float loadAvg15Rate,
        float memUsedPercentRate, float memTotalRate, float memFreeRate,
        float memAvailRate, float diskUtilPercentRate,
        float netInRateRate, float netOutRateRate,
        time timeBuf] }

/-- The row of `server_net_detail` for one interface. -/
def netInsert (hostName : String) (timeBuf : ClockText.Tm) (net : NetInfo F)
    (curr last : NetDetailSample F) : Insert F where
  table := "server_net_detail"
  columns :=
    ["server_name", "net_name", "err_in", "err_out", "drop_in", "drop_out",
      "rcv_bytes_rate", "rcv_packets_rate", "snd_bytes_rate", "snd_packets_rate",
      "rcv_bytes_rate_rate", "rcv_packets_rate_rate",
      "snd_bytes_rate_rate", "snd_packets_rate_rate",
      "err_in_rate", "err_out_rate", "drop_in_rate", "drop_out_rate", "timestamp"]
  values :=
    [name hostName, name net.name,
      uint64 curr.errIn, uint64 curr.errOut, uint64 curr.dropIn, uint64 curr.dropOut,
      float curr.rcvBytesRate, float curr.rcvPacketsRate,
      float curr.sndBytesRate, float curr.sndPacketsRate,
      float (rate curr.rcvBytesRate last.rcvBytesRate),
      float (rate curr.rcvPacketsRate last.rcvPacketsRate),
      float (rate curr.sndBytesRate last.sndBytesRate),
      float (rate curr.sndPacketsRate last.sndPacketsRate),
      float (rateU64 curr.errIn last.errIn), float (rateU64 curr.errOut last.errOut),
      float (rateU64 curr.dropIn last.dropIn), float (rateU64 curr.dropOut last.dropOut),
      time timeBuf]

/-- The row of `server_softirq_detail` for one CPU. -/
def softirqInsert (hostName : String) (timeBuf : ClockText.Tm) (sirq : SoftIrq F)
    (curr last : SoftIrqSample F) : Insert F where
  table := "server_softirq_detail"
  columns :=
    ["server_name", "cpu_name", "hi", "timer", "net_tx", "net_rx", "block",
      "irq_poll", "tasklet", "sched", "hrtimer", "rcu",
      "hi_rate", "timer_rate", "net_tx_rate", "net_rx_rate", "block_rate",
      "irq_poll_rate", "tasklet_rate", "sched_rate", "hrtimer_rate", "rcu_rate", "timestamp"]
  values :=
    [name hostName, name sirq.cpu,
      float curr.hi, float curr.timer, float curr.netTx, float curr.netRx, float curr.block,
      float curr.irqPoll, float curr.tasklet, float curr.sched, float curr.hrtimer,
      float curr.rcu,
      float (rate curr.hi last.hi), float (rate curr.timer last.timer),
      float (rate curr.netTx last.netTx), float (rate curr.netRx last.netRx),
      float (rate curr.block last.block), float (rate curr.irqPoll last.irqPoll),
      float (rate curr.tasklet last.tasklet), float (rate curr.sched last.sched),
      float (rate curr.hrtimer last.hrtimer), float (rate curr.rcu last.rcu),
      time timeBuf]

/-- The row of `server_mem_detail`. -/
def memInsert (hostName : String) (timeBuf : ClockText.Tm) (curr last : MemDetailSample F) :
    Insert F where
  table := "server_mem_detail"
  columns :=
    ["server_name", "total", "free", "avail", "buffers", "cached", "swap_cached",
      "active", "inactive", "active_anon", "inactive_anon", "active_file", "inactive_file",
      "dirty", "writeback", "anon_pages", "mapped", "kreclaimable", "sreclaimable", "sunreclaim",
      "total_rate", "free_rate", "avail_rate", "buffers_rate", "cached_rate", "swap_cached_rate",
      "active_rate", "inactive_rate", "active_anon_rate", "inactive_anon_rate",
      "active_file_rate", "inactive_file_rate", "dirty_rate", "writeback_rate",
      "anon_pages_rate", "mapped_rate", "kreclaimable_rate", "sreclaimable_rate",
      "sunreclaim_rate", "timestamp"]
  values :=
    [name hostName,
      float curr.total, float curr.free, float curr.avail,
      float curr.buffers, float curr.cached, float curr.swapCached,
      float curr.active, float curr.inactive, float curr.activeAnon,
      float curr.inactiveAnon, float curr.activeFile, float curr.inactiveFile,
      float curr.dirty, float curr.writeback, float curr.anonPages,
      float curr.mapped, float curr.kreclaimable, float curr.sreclaimable,
      float curr.sunreclaim,
      float (rate curr.total last.total), float (rate curr.free last.free),
      float (rate curr.avail last.avail), float (rate curr.buffers last.buffers),
      float (rate curr.cached last.cached), float (rate curr.swapCached last.swapCached),
      float (rate curr.active last.active), float (rate curr.inactive last.inactive),
      float (rate curr.activeAnon last.activeAnon),
      float (rate curr.inactiveAnon last.inactiveAnon),
      float (rate curr.activeFile last.activeFile),
      float (rate curr.inactiveFile last.inactiveFile),
      float (rate curr.dirty last.dirty), float (rate curr.writeback last.writeback),
      float (rate curr.anonPages last.anonPages), float (rate curr.mapped last.mapped),
      float (rate curr.kreclaimable last.kreclaimable),
      float (rate curr.sreclaimable last.sreclaimable),
      float (rate curr.sunreclaim last.sunreclaim),
      time timeBuf]

/-- The row of `server_disk_detail` for one disk; nothing quotes the column `reads`, which is a
reserved word. -/
def diskInsert (hostName : String) (timeBuf : ClockText.Tm) (disk : DiskInfo F)
    (curr last : DiskDetailSample F) : Insert F where
  table := "server_disk_detail"
  columns :=
    ["server_name", "disk_name", "reads", "writes", "sectors_read", "sectors_written",
      "read_time_ms", "write_time_ms", "io_in_progress", "io_time_ms", "weighted_io_time_ms",
      "read_bytes_per_sec", "write_bytes_per_sec", "read_iops", "write_iops",
      "avg_read_latency_ms", "avg_write_latency_ms", "util_percent",
      "read_bytes_per_sec_rate", "write_bytes_per_sec_rate", "read_iops_rate", "write_iops_rate",
      "avg_read_latency_ms_rate", "avg_write_latency_ms_rate", "util_percent_rate", "timestamp"]
  values :=
    [name hostName, name disk.name,
      uint64 disk.reads, uint64 disk.writes, uint64 disk.sectorsRead, uint64 disk.sectorsWritten,
      uint64 disk.readTimeMs, uint64 disk.writeTimeMs, uint64 disk.ioInProgress,
      uint64 disk.ioTimeMs, uint64 disk.weightedIoTimeMs,
      float curr.readBytesPerSec, float curr.writeBytesPerSec,
      float curr.readIops, float curr.writeIops,
      float curr.avgReadLatencyMs, float curr.avgWriteLatencyMs, float curr.utilPercent,
      float (rate curr.readBytesPerSec last.readBytesPerSec),
      float (rate curr.writeBytesPerSec last.writeBytesPerSec),
      float (rate curr.readIops last.readIops), float (rate curr.writeIops last.writeIops),
      float (rate curr.avgReadLatencyMs last.avgReadLatencyMs),
      float (rate curr.avgWriteLatencyMs last.avgWriteLatencyMs),
      float (rate curr.utilPercent last.utilPercent),
      time timeBuf]

/-- `curr` in the loop over the interfaces. -/
def netDetailSample (net : NetInfo F) : NetDetailSample F where
  rcvBytesRate := net.rcvRate
  rcvPacketsRate := net.rcvPacketsRate
  sndBytesRate := net.sendRate
  sndPacketsRate := net.sendPacketsRate
  errIn := net.errIn
  errOut := net.errOut
  dropIn := net.dropIn
  dropOut := net.dropOut

/-- `curr` in the loop over the CPUs. -/
def softIrqSample (sirq : SoftIrq F) : SoftIrqSample F where
  hi := sirq.hi
  timer := sirq.timer
  netTx := sirq.netTx
  netRx := sirq.netRx
  block := sirq.block
  irqPoll := sirq.irqPoll
  tasklet := sirq.tasklet
  sched := sirq.sched
  hrtimer := sirq.hrtimer
  rcu := sirq.rcu

/-- `curr` for the memory. -/
def memDetailSample (mem : MemInfo F) : MemDetailSample F where
  total := mem.total
  free := mem.free
  avail := mem.avail
  buffers := mem.buffers
  cached := mem.cached
  swapCached := mem.swapCached
  active := mem.active
  inactive := mem.inactive
  activeAnon := mem.activeAnon
  inactiveAnon := mem.inactiveAnon
  activeFile := mem.activeFile
  inactiveFile := mem.inactiveFile
  dirty := mem.dirty
  writeback := mem.writeback
  anonPages := mem.anonPages
  mapped := mem.mapped
  kreclaimable := mem.kReclaimable
  sreclaimable := mem.sReclaimable
  sunreclaim := mem.sUnreclaim

/-- `curr` in the loop over the disks. -/
def diskDetailSample (disk : DiskInfo F) : DiskDetailSample F where
  readBytesPerSec := toFloat disk.readBytesPerSec
  writeBytesPerSec := toFloat disk.writeBytesPerSec
  readIops := toFloat disk.readIops
  writeIops := toFloat disk.writeIops
  avgReadLatencyMs := toFloat disk.avgReadLatencyMs
  avgWriteLatencyMs := toFloat disk.avgWriteLatencyMs
  utilPercent := toFloat disk.utilPercent

/-- A loop over the devices of a report: each turn reads the last sample of its device, issues a
statement and stores the current sample. -/
def writeDetail {A S : Type} [Zero S] (nameOf : A → String) (sampleOf : A → S)
    (insertOf : A → S → S → Insert F) (shardIdx : ℕ) (hostName : String) :
    List A → DeviceMap S → DeviceMap S × List (Insert F)
  | [], samples => (samples, [])
  | a :: rest, samples =>
    let curr := sampleOf a
    let last := (samples shardIdx hostName (nameOf a)).getD 0
    let statement := insertOf a curr last
    let (samples', statements) := writeDetail nameOf sampleOf insertOf shardIdx hostName rest
      (samples.put shardIdx hostName (nameOf a) curr)
    (samples', statement :: statements)

/-- The memory, which has no devices. -/
def writeMemDetail (hostName : String) (shardIdx : ℕ) (timeBuf : ClockText.Tm) :
    Option (MemInfo F) → HostMap (MemDetailSample F) →
      HostMap (MemDetailSample F) × List (Insert F)
  | none, samples => (samples, [])
  | some mem, samples =>
    let curr := memDetailSample mem
    let last := (samples shardIdx hostName).getD 0
    (samples.put shardIdx hostName curr, [memInsert hostName timeBuf curr last])

/-- The four detail tables of `WriteToMysql`, in the order of the source. -/
def writeDetails (hostName : String) (shardIdx : ℕ) (timeBuf : ClockText.Tm)
    (info : MonitorInfo F) (store : Store F) : Store F × List (Insert F) :=
  let (netSamples, netStatements) := writeDetail (·.name) netDetailSample
    (netInsert hostName timeBuf) shardIdx hostName info.netInfo store.lastNetSamplesShards
  let (softirqSamples, softirqStatements) := writeDetail (·.cpu) softIrqSample
    (softirqInsert hostName timeBuf) shardIdx hostName info.softIrq
    store.lastSoftirqSamplesShards
  let (memSamples, memStatements) := writeMemDetail hostName shardIdx timeBuf info.memInfo
    store.lastMemSamplesShards
  let (diskSamples, diskStatements) := writeDetail (·.name) diskDetailSample
    (diskInsert hostName timeBuf) shardIdx hostName info.diskInfo store.lastDiskSamplesShards
  ({ store with
      lastNetSamplesShards := netSamples
      lastSoftirqSamplesShards := softirqSamples
      lastMemSamplesShards := memSamples
      lastDiskSamplesShards := diskSamples },
    netStatements ++ softirqStatements ++ memStatements ++ diskStatements)

/-- `disk_util_percent_rate` in `WriteToMysql`. -/
def diskUtilPercentRate (diskUtilPercent : F) (lastDiskUtil : Option F) : F :=
  match lastDiskUtil with
  | some last =>
    if last == 0 then 0 else toFloat (toFloat (diskUtilPercent - last) / last)
  | none => 0

/-- `WriteToMysql`, run by thread `thread`. -/
def writeToMysql (env : Env) (thread : ℕ) (connection : Connection) (store : Store F)
    (hostName : String) (hostScore : HostScore F)
    (_netInRate _netOutRate cpuPercentRate
      usrPercentRate systemPercentRate nicePercentRate
      idlePercentRate ioWaitPercentRate irqPercentRate
      softIrqPercentRate _stealPercentRate
      _guestPercentRate _guestNicePercentRate
      loadAvg1Rate loadAvg3Rate loadAvg15Rate
      memUsedPercentRate memTotalRate memFreeRate
      memAvailRate netInRateRate netOutRateRate
      _netInDropRateRate _netOutDropRateRate : F) : Store F × List (Insert F) :=
  match connection with
  | .initFailed => (store, [])
  | .connectFailed => (store, [])
  | .connected =>
    let shardIdx := shardIndex env.hash env.threadCount hostName
    let timeBuf := env.localtime (hostScore.timestamp.tdiv 1000000000)
    let info := hostScore.info
    let diskUtilPercent := diskUtil info
    let performance := performanceInsert hostName timeBuf hostScore diskUtilPercent
      cpuPercentRate usrPercentRate systemPercentRate
      nicePercentRate idlePercentRate ioWaitPercentRate
      irqPercentRate softIrqPercentRate
      loadAvg1Rate loadAvg3Rate loadAvg15Rate
      memUsedPercentRate memTotalRate memFreeRate memAvailRate
      (diskUtilPercentRate diskUtilPercent (store.lastDiskUtil thread hostName))
      netInRateRate netOutRateRate
    let store := store.rememberDiskUtil thread hostName diskUtilPercent
    -- 2. to 5. the detail tables
    let (store, statements) := writeDetails hostName shardIdx timeBuf info store
    (store, performance :: statements)

/-! ### One report -/

/-- A report to process, with the time at which and the connection with which it is. -/
structure Job (F : Type) where
  info : MonitorInfo F
  now : ℤ
  connection : Connection

/-- `ProcessData`, run by thread `thread`: the store it leaves and the statements it issues. -/
def processData (env : Env) (thread : ℕ) (store : Store F) (job : Job F) :
    Store F × List (Insert F) :=
  let info := job.info
  let hostName := serverIdentifier info
  if hostName = "" then (store, [])
  else
    let shardIdx := shardIndex env.hash env.threadCount hostName
    let score := calcScore info
    let curr := perfSample info
    let last := (store.lastPerfSamplesShards shardIdx hostName).getD 0
    let hostScore : HostScore F := ⟨info, score, job.now⟩
    let store := store.remember shardIdx hostName curr hostScore
    writeToMysql env thread job.connection store hostName hostScore
      (netInRate info) (netOutRate info)
      (rate curr.cpuPercent last.cpuPercent)
      (rate curr.usrPercent last.usrPercent) (rate curr.systemPercent last.systemPercent)
      (rate curr.nicePercent last.nicePercent) (rate curr.idlePercent last.idlePercent)
      (rate curr.ioWaitPercent last.ioWaitPercent)
      (rate curr.irqPercent last.irqPercent) (rate curr.softIrqPercent last.softIrqPercent) 0 0 0
      (rate curr.loadAvg1 last.loadAvg1) (rate curr.loadAvg3 last.loadAvg3)
      (rate curr.loadAvg15 last.loadAvg15)
      (rate curr.memUsedPercent last.memUsedPercent) (rate curr.memTotal last.memTotal)
      (rate curr.memFree last.memFree) (rate curr.memAvail last.memAvail)
      (rate curr.netInRate last.netInRate) (rate curr.netOutRate last.netOutRate) 0 0

end MonitorSystem
