import MonitorSystem.Worker.KernelTables

/-!
# The kernel module for the softirqs

`update_softirq_stats` copies ten counters of each CPU, which the kernel keeps in 32 bits, into the
64 bits of the shared table.
-/

namespace MonitorSystem

namespace SoftirqCollector

/-- `kstat_softirqs_cpu` of a CPU. -/
structure KstatSoftirqs where
  hi : UInt32 := 0
  timer : UInt32 := 0
  netTx : UInt32 := 0
  netRx : UInt32 := 0
  block : UInt32 := 0
  irqPoll : UInt32 := 0
  tasklet : UInt32 := 0
  sched : UInt32 := 0
  hrtimer : UInt32 := 0
  rcu : UInt32 := 0

/-- The counters in a `struct softirq_stat`, behind its name. -/
structure SoftirqStat where
  hi : UInt64 := 0
  timer : UInt64 := 0
  netTx : UInt64 := 0
  netRx : UInt64 := 0
  block : UInt64 := 0
  irqPoll : UInt64 := 0
  tasklet : UInt64 := 0
  sched : UInt64 := 0
  hrtimer : UInt64 := 0
  rcu : UInt64 := 0

/-- What `update_softirq_stats` writes for a CPU. -/
def softirqStat (kstat : KstatSoftirqs) : SoftirqStat where
  hi := kstat.hi.toUInt64
  timer := kstat.timer.toUInt64
  netTx := kstat.netTx.toUInt64
  netRx := kstat.netRx.toUInt64
  block := kstat.block.toUInt64
  irqPoll := kstat.irqPoll.toUInt64
  tasklet := kstat.tasklet.toUInt64
  sched := kstat.sched.toUInt64
  hrtimer := kstat.hrtimer.toUInt64
  rcu := kstat.rcu.toUInt64

/-- `softirq_data`. -/
abbrev Table := KernelTable SoftirqStat

/-- `update_softirq_stats`, with the possible CPUs and their counters. -/
def updateSoftirqStats (cpus : List Cpu) (kstat : Cpu → KstatSoftirqs) (table : Table) : Table :=
  table.refill (cpus.map fun cpu => (cpu, softirqStat (kstat cpu)))

/-- The list of CPUs and their counters that one call finds. -/
abbrev Call := List Cpu × (Cpu → KstatSoftirqs)

/-- The table after some calls, the first of which finds it filled with zeros. -/
def tableAfter (calls : List Call) : Table :=
  calls.foldl (fun table call => updateSoftirqStats call.1 call.2 table) (.zero {})

theorem tableAfter_concat (calls : List Call) (call : Call) :
    tableAfter (calls ++ [call]) = updateSoftirqStats call.1 call.2 (tableAfter calls) := by
  rw [tableAfter, List.foldl_append]
  rfl

/-- Whatever the earlier calls found, the entries are those of the last one. -/
theorem entries_tableAfter (calls : List Call) (cpus : List Cpu) (kstat : Cpu → KstatSoftirqs) :
    (tableAfter (calls ++ [(cpus, kstat)])).entries =
      (listed cpus).map fun cpu => (cpuName cpu, softirqStat (kstat cpu)) := by
  rw [tableAfter_concat]
  exact KernelTable.entries_refill _ cpus _

theorem nodup_entries_tableAfter (calls : List Call) {cpus : List Cpu} (hcpus : cpus.Nodup)
    (kstat : Cpu → KstatSoftirqs) :
    ((tableAfter (calls ++ [(cpus, kstat)])).entries.map Prod.fst).Nodup := by
  rw [tableAfter_concat]
  exact KernelTable.nodup_entries_refill hcpus _ _

end SoftirqCollector

end MonitorSystem
