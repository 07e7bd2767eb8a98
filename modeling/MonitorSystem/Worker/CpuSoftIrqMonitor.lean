import MonitorSystem.Proto.Messages
import MonitorSystem.Worker.SoftirqCollector

/-!
# `CpuSoftIrqMonitor`

`UpdateOnce` maps the table of the kernel module, goes through its rows up to the empty name, and
reports the softirqs of each CPU: the counters themselves at the first sight of a CPU, and their
growth for each second afterwards.  The arithmetic of `double` and `float` is exact here.
-/

namespace MonitorSystem

namespace CpuSoftIrqMonitor

open SoftirqCollector

/-! ### The program -/

/-- `CpuSoftIrqMonitor::SoftIrq`; the time point counts the nanoseconds of `steady_clock`. -/
structure CachedSoftIrq where
  cpuName : String
  hi : Int64
  timer : Int64
  netTx : Int64
  netRx : Int64
  block : Int64
  irqPoll : Int64
  tasklet : Int64
  sched : Int64
  hrtimer : Int64
  rcu : Int64
  timepoint : ℤ

/-- `cpu_softirqs_`. -/
abbrev SoftIrqMap := String → Option CachedSoftIrq

/-- `static_cast<int64_t>` of a `double` in the range of the type. -/
def truncate (x : ℚ) : ℤ := x.num.tdiv x.den

/-- `seconds`, from a whole number of milliseconds. -/
def seconds (now timepoint : ℤ) : ℚ := (((now - timepoint).tdiv 1000000 : ℤ) : ℚ) / 1000

/-- The value of a field: the growth of the counter for each second, when the CPU was seen and time
has passed since, and the counter itself otherwise.  The old counter is converted to `uint64_t`. -/
def fieldValue (now : ℤ) (stat : UInt64) (old : Option (Int64 × ℤ)) : ℚ :=
  match old with
  | some (last, timepoint) =>
    if 0 < seconds now timepoint then
      truncate ((stat - last.toUInt64).toNat / seconds now timepoint)
    else stat.toNat
  | none => stat.toNat

/-- The message for a CPU; `stats` is the row, and `it` what was kept of the last one. -/
def softirqMsg (now : ℤ) (name : String) (stats : SoftirqStat) (it : Option CachedSoftIrq) :
    SoftIrq ℚ :=
  let value (stat : UInt64) (field : CachedSoftIrq → Int64) : ℚ :=
    fieldValue now stat (it.map fun old => (field old, old.timepoint))
  { cpu := name
    hi := value stats.hi (·.hi)
    timer := value stats.timer (·.timer)
    netTx := value stats.netTx (·.netTx)
    netRx := value stats.netRx (·.netRx)
    block := value stats.block (·.block)
    irqPoll := value stats.irqPoll (·.irqPoll)
    tasklet := value stats.tasklet (·.tasklet)
    sched := value stats.sched (·.sched)
    hrtimer := value stats.hrtimer (·.hrtimer)
    rcu := value stats.rcu (·.rcu) }

/-- `cached`, what is kept of a row. -/
def cached (now : ℤ) (name : String) (stats : SoftirqStat) : CachedSoftIrq where
  cpuName := name
  hi := stats.hi.toInt64
  timer := stats.timer.toInt64
  netTx := stats.netTx.toInt64
  netRx := stats.netRx.toInt64
  block := stats.block.toInt64
  irqPoll := stats.irqPoll.toInt64
  tasklet := stats.tasklet.toInt64
  sched := stats.sched.toInt64
  hrtimer := stats.hrtimer.toInt64
  rcu := stats.rcu.toInt64
  timepoint := now

/-- `MAX_CPUS` of the collector. -/
def mapCount : ℕ := 256

/-- `UpdateOnce`: the messages it adds and the map it leaves.  There is no table when the device
cannot be opened or mapped. -/
def updateOnce (mapped : Option Table) (now : ℤ) (cpuSoftirqs : SoftIrqMap) :
    List (SoftIrq ℚ) × SoftIrqMap :=
  match mapped with
  | none => ([], cpuSoftirqs)
  | some table =>
    table.read mapCount (fun name stats it => some (softirqMsg now name stats it)) (cached now)
      cpuSoftirqs

/-! ### The round trip -/

/-- The message with the ten counters of a CPU. -/
def countersMsg (name : String) (kstat : KstatSoftirqs) : SoftIrq ℚ where
  cpu := name
  hi := kstat.hi.toNat
  timer := kstat.timer.toNat
  netTx := kstat.netTx.toNat
  netRx := kstat.netRx.toNat
  block := kstat.block.toNat
  irqPoll := kstat.irqPoll.toNat
  tasklet := kstat.tasklet.toNat
  sched := kstat.sched.toNat
  hrtimer := kstat.hrtimer.toNat
  rcu := kstat.rcu.toNat

/-- A kept record has the ten counters of a CPU. -/
structure CachedSoftIrq.Holds (kept : CachedSoftIrq) (kstat : KstatSoftirqs) : Prop where
  hi : kept.hi.toInt = kstat.hi.toNat
  timer : kept.timer.toInt = kstat.timer.toNat
  netTx : kept.netTx.toInt = kstat.netTx.toNat
  netRx : kept.netRx.toInt = kstat.netRx.toNat
  block : kept.block.toInt = kstat.block.toNat
  irqPoll : kept.irqPoll.toInt = kstat.irqPoll.toNat
  tasklet : kept.tasklet.toInt = kstat.tasklet.toNat
  sched : kept.sched.toInt = kstat.sched.toNat
  hrtimer : kept.hrtimer.toInt = kstat.hrtimer.toNat
  rcu : kept.rcu.toInt = kstat.rcu.toNat

/-- A counter of 32 bits survives the change to a signed type. -/
theorem toInt_toInt64 (n : UInt32) : n.toUInt64.toInt64.toInt = n.toNat := by
  have hn : n.toNat < 2 ^ 32 := n.toNat_lt
  have hnat : n.toUInt64.toBitVec.toNat = n.toNat := rfl
  show n.toUInt64.toBitVec.toInt = n.toNat
  rw [BitVec.toInt_eq_toNat_of_lt (by omega), hnat]

theorem holds_cached (now : ℤ) (name : String) (kstat : KstatSoftirqs) :
    (cached now name (softirqStat kstat)).Holds kstat := by
  constructor <;> exact toInt_toInt64 _

/-- The collector reads as far as the module writes. -/
theorem take_mapCount_listed {V : Type} (cpus : List Cpu) (f : Cpu → V) :
    ((listed cpus).map f).take mapCount = (listed cpus).map f :=
  List.take_of_length_le (by rw [List.length_map]; exact List.length_take_le _ _)

/-- **The round trip of the softirq table.**  After any sequence of passes of the module, the last
of which finds distinct CPUs, a new collector emits one message for each CPU that the table has
room for, in order, with the counters of that CPU; and whatever a collector has seen before, a call
leaves exactly these counters in its map under the names of these CPUs, and what it held under all
other names. -/
theorem softirq_round_trip (calls : List Call) {cpus : List Cpu} (hcpus : cpus.Nodup)
    (kstat : Cpu → KstatSoftirqs) (now : ℤ) :
    (updateOnce (some (tableAfter (calls ++ [(cpus, kstat)]))) now fun _ => none).1 =
      (listed cpus).map (fun cpu => countersMsg (cpuName cpu) (kstat cpu)) ∧
    ∀ cpuSoftirqs : SoftIrqMap,
      (∀ cpu ∈ listed cpus, ∃ kept,
        (updateOnce (some (tableAfter (calls ++ [(cpus, kstat)]))) now cpuSoftirqs).2
          (cpuName cpu) = some kept ∧
        kept.cpuName = cpuName cpu ∧ kept.Holds (kstat cpu) ∧ kept.timepoint = now) ∧
      ∀ name, name ∉ (listed cpus).map cpuName →
        (updateOnce (some (tableAfter (calls ++ [(cpus, kstat)]))) now cpuSoftirqs).2 name =
          cpuSoftirqs name := by
  have hnodup := nodup_entries_tableAfter calls hcpus kstat
  have hentries := entries_tableAfter calls cpus kstat
  refine ⟨?_, fun cpuSoftirqs => ⟨fun cpu hcpu => ?_, fun name hname => ?_⟩⟩
  · rw [updateOnce, KernelTable.read_messages hnodup, hentries, take_mapCount_listed,
      List.filterMap_map]
    exact congrFun List.filterMap_eq_map (listed cpus)
  · refine ⟨_, KernelTable.read_cache_of_mem hnodup ?_, rfl, holds_cached now _ (kstat cpu), rfl⟩
    rw [hentries, take_mapCount_listed]
    exact List.mem_map_of_mem hcpu
  · refine KernelTable.read_cache_of_notMem ?_
    rw [hentries, take_mapCount_listed, List.map_map]
    exact hname

/-- Two CPUs, after a pass that found three. -/
theorem softirq_round_trip_two :
    (updateOnce (some (tableAfter [([0, 1, 2], fun _ => {}), ([4, 0], fun _ => { rcu := 7 })])) 0
      fun _ => none).1 =
      [countersMsg (cpuName 4) { rcu := 7 }, countersMsg (cpuName 0) { rcu := 7 }] :=
  (softirq_round_trip [([0, 1, 2], fun _ => {})] (by decide) (fun _ => { rcu := 7 }) 0).1

end CpuSoftIrqMonitor

end MonitorSystem
