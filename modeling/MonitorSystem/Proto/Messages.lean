import MonitorSystem.Library.CxxFloat

/-!
# The messages a worker pushes to the manager

The records of `monitor_info.proto` and of the files it imports, over a type `F` of
floating-point numbers.  A singular message field is an `Option` (`has_host_info()` is
`hostInfo.isSome`), a repeated field a list.  Reading a field of an absent submessage gives the
default value, as the generated accessors do; a `float` or `double` defaults to zero and a
`string` to the empty string.
-/

namespace MonitorSystem

/-- `HostInfo`: what identifies a server. -/
structure HostInfo where
  hostname : String := ""
  ipAddress : String := ""
  deriving DecidableEq

/-- `SoftIrq`: the softirq rates of one CPU. -/
structure SoftIrq (F : Type) where
  cpu : String
  hi : F
  timer : F
  netTx : F
  netRx : F
  block : F
  irqPoll : F
  tasklet : F
  sched : F
  hrtimer : F
  rcu : F

/-- `CpuLoad`: the load averages. -/
structure CpuLoad (F : Type) where
  loadAvg1 : F
  loadAvg3 : F
  loadAvg15 : F

/-- `CpuStat`: the time shares of one CPU. -/
structure CpuStat (F : Type) where
  cpuName : String
  cpuPercent : F
  usrPercent : F
  systemPercent : F
  nicePercent : F
  idlePercent : F
  ioWaitPercent : F
  irqPercent : F
  softIrqPercent : F

/-- `MemInfo`: `/proc/meminfo`. -/
structure MemInfo (F : Type) where
  total : F
  free : F
  avail : F
  buffers : F
  cached : F
  swapCached : F
  active : F
  inactive : F
  activeAnon : F
  inactiveAnon : F
  activeFile : F
  inactiveFile : F
  dirty : F
  writeback : F
  anonPages : F
  mapped : F
  kReclaimable : F
  sReclaimable : F
  sUnreclaim : F
  usedPercent : F

/-- `NetInfo`: the traffic of one interface. -/
structure NetInfo (F : Type) where
  name : String
  sendRate : F
  rcvRate : F
  sendPacketsRate : F
  rcvPacketsRate : F
  errIn : UInt64
  errOut : UInt64
  dropIn : UInt64
  dropOut : UInt64

/-- `DiskInfo`: the counters of one block device and the rates derived from them. -/
structure DiskInfo (F : Type) where
  name : String
  reads : UInt64
  writes : UInt64
  sectorsRead : UInt64
  sectorsWritten : UInt64
  readTimeMs : UInt64
  writeTimeMs : UInt64
  ioInProgress : UInt64
  ioTimeMs : UInt64
  weightedIoTimeMs : UInt64
  readBytesPerSec : F
  writeBytesPerSec : F
  readIops : F
  writeIops : F
  avgReadLatencyMs : F
  avgWriteLatencyMs : F
  utilPercent : F

/-- `MonitorInfo`: one report. -/
structure MonitorInfo (F : Type) where
  name : String := ""
  hostInfo : Option HostInfo := none
  softIrq : List (SoftIrq F) := []
  cpuLoad : Option (CpuLoad F) := none
  cpuStat : List (CpuStat F) := []
  memInfo : Option (MemInfo F) := none
  netInfo : List (NetInfo F) := []
  diskInfo : List (DiskInfo F) := []

namespace MonitorInfo

variable {F : Type}

/-- `host_info().hostname()`. -/
def hostname (info : MonitorInfo F) : String := (info.hostInfo.getD {}).hostname

/-- `host_info().ip_address()`. -/
def ipAddress (info : MonitorInfo F) : String := (info.hostInfo.getD {}).ipAddress

end MonitorInfo

end MonitorSystem
