import MonitorSystem.Manager.Identity

/-!
# What the manager remembers

The samples that `host_manager.cpp` keeps between two reports of a host, one record per history,
and the stores that hold them.  A vector of maps is indexed by shard and then by host, and by
device in the nested ones; an absent key is `none`, and `operator[]` reads it as a sample of
zeros.  `last_disk_util` is `thread_local` and indexed by thread in place of shard.
-/

namespace MonitorSystem

/-- `PerfSample`. -/
structure PerfSample (F : Type) where
  cpuPercent : F
  usrPercent : F
  systemPercent : F
  nicePercent : F
  idlePercent : F
  ioWaitPercent : F
  irqPercent : F
  softIrqPercent : F
  loadAvg1 : F
  loadAvg3 : F
  loadAvg15 : F
  memUsedPercent : F
  memTotal : F
  memFree : F
  memAvail : F
  netInRate : F
  netOutRate : F
  score : F

/-- `NetDetailSample`. -/
structure NetDetailSample (F : Type) where
  rcvBytesRate : F
  rcvPacketsRate : F
  sndBytesRate : F
  sndPacketsRate : F
  errIn : UInt64
  errOut : UInt64
  dropIn : UInt64
  dropOut : UInt64

/-- `SoftIrqSample`. -/
structure SoftIrqSample (F : Type) where
  hi : F
  timer : F
  netTx : F
  netRx : F
  block : F
  irqPoll : F
  tasklet : F
  sched : F
  hrtimer : F
  rcu : F

/-- `MemDetailSample`. -/
structure MemDetailSample (F : Type) where
  total : F
  free : F
  avail : F
  buffers : F
  cached : F
  swapCached : F
  active : F
  inactive : F
  activeAnon : F
  inactiveAnon : F
  activeFile : F
  inactiveFile : F
  dirty : F
  writeback : F
  anonPages : F
  mapped : F
  kreclaimable : F
  sreclaimable : F
  sunreclaim : F

/-- `DiskDetailSample`. -/
structure DiskDetailSample (F : Type) where
  readBytesPerSec : F
  writeBytesPerSec : F
  readIops : F
  writeIops : F
  avgReadLatencyMs : F
  avgWriteLatencyMs : F
  utilPercent : F

section Zero

variable {F : Type} [Zero F]

instance : Zero (PerfSample F) := ⟨⟨0, 0, 0, 0, 0, 0, 0, 0, 0, 0, 0, 0, 0, 0, 0, 0, 0, 0⟩⟩

instance : Zero (NetDetailSample F) := ⟨⟨0, 0, 0, 0, 0, 0, 0, 0⟩⟩

instance : Zero (SoftIrqSample F) := ⟨⟨0, 0, 0, 0, 0, 0, 0, 0, 0, 0⟩⟩

instance : Zero (MemDetailSample F) := ⟨⟨0, 0, 0, 0, 0, 0, 0, 0, 0, 0, 0, 0, 0, 0, 0, 0, 0, 0, 0⟩⟩

instance : Zero (DiskDetailSample F) := ⟨⟨0, 0, 0, 0, 0, 0, 0⟩⟩

end Zero

/-- `HostScore`; the timestamp counts the nanoseconds of `system_clock`. -/
structure HostScore (F : Type) where
  info : MonitorInfo F
  score : F
  timestamp : ℤ

/-! ### Vectors of maps -/

/-- A vector of maps from hosts. -/
abbrev HostMap (V : Type) := ℕ → String → Option V

/-- A vector of maps from hosts to maps from devices. -/
abbrev DeviceMap (V : Type) := ℕ → String → String → Option V

open Function (update)

/-- `m[k][host] = v`. -/
def HostMap.put {V : Type} (m : HostMap V) (k : ℕ) (host : String) (v : V) : HostMap V :=
  update m k (update (m k) host (some v))

/-- `m[k][host][device] = v`. -/
def DeviceMap.put {V : Type} (m : DeviceMap V) (k : ℕ) (host device : String) (v : V) :
    DeviceMap V :=
  update m k (update (m k) host (update (m k host) device (some v)))

theorem HostMap.put_self {V : Type} (m : HostMap V) (k : ℕ) (host : String) (v : V) :
    m.put k host v k host = some v := by
  rw [HostMap.put, Function.update_self, Function.update_self]

theorem HostMap.put_of_ne {V : Type} (m : HostMap V) (k j : ℕ) {host other : String} (v : V)
    (h : other ≠ host) : m.put k host v j other = m j other := by
  rw [HostMap.put]
  by_cases hj : j = k
  · rw [hj, Function.update_self, Function.update_of_ne h]
  · rw [Function.update_of_ne hj]

/-- For its host and in its shard a write is an update of the map from devices. -/
theorem DeviceMap.put_same {V : Type} (m : DeviceMap V) (k : ℕ) (host device : String) (v : V) :
    m.put k host device v k host = update (m k host) device (some v) := by
  rw [DeviceMap.put, Function.update_self, Function.update_self]

/-- A write leaves the other hosts, and the other shards, alone. -/
theorem DeviceMap.put_elsewhere {V : Type} (m : DeviceMap V) {k j : ℕ} {host other : String}
    (device : String) (v : V) (h : j ≠ k ∨ other ≠ host) :
    m.put k host device v j other = m j other := by
  rw [DeviceMap.put]
  by_cases hj : j = k
  · rw [hj, Function.update_self, Function.update_of_ne (h.resolve_left (not_not.2 hj))]
  · rw [Function.update_of_ne hj]

/-- What a host finds after its own write depends on what it found before. -/
theorem HostMap.put_congr {V : Type} {m m' : HostMap V} {host : String}
    (h : ∀ j, m j host = m' j host) (k : ℕ) (v : V) (j : ℕ) :
    m.put k host v j host = m'.put k host v j host := by
  rw [HostMap.put, HostMap.put]
  by_cases hj : j = k
  · rw [hj, Function.update_self, Function.update_self, Function.update_self,
      Function.update_self]
  · rw [Function.update_of_ne hj, Function.update_of_ne hj, h]

/-- The histories, and the table of the latest scores. -/
structure Store (F : Type) where
  lastPerfSamplesShards : HostMap (PerfSample F) := fun _ _ => none
  lastNetSamplesShards : DeviceMap (NetDetailSample F) := fun _ _ _ => none
  lastSoftirqSamplesShards : DeviceMap (SoftIrqSample F) := fun _ _ _ => none
  lastMemSamplesShards : HostMap (MemDetailSample F) := fun _ _ => none
  lastDiskSamplesShards : DeviceMap (DiskDetailSample F) := fun _ _ _ => none
  lastDiskUtil : HostMap F := fun _ _ => none
  hostScores : String → Option (HostScore F) := fun _ => none

/-- Steps 7 and 8 of `ProcessData`: the new snapshot and the new score of a host. -/
def Store.remember {F : Type} (store : Store F) (shardIdx : ℕ) (hostName : String)
    (curr : PerfSample F) (hostScore : HostScore F) : Store F :=
  { store with
    lastPerfSamplesShards := store.lastPerfSamplesShards.put shardIdx hostName curr
    hostScores := update store.hostScores hostName (some hostScore) }

/-- `last_disk_util[host_name] = disk_util_percent` in `WriteToMysql`. -/
def Store.rememberDiskUtil {F : Type} (store : Store F) (thread : ℕ) (hostName : String)
    (diskUtilPercent : F) : Store F :=
  { store with lastDiskUtil := store.lastDiskUtil.put thread hostName diskUtilPercent }

end MonitorSystem
