import MonitorSystem.Library.CallRuns
import MonitorSystem.Worker.CpuSoftIrqMonitor
import MonitorSystem.Worker.CpuStatMonitor
import MonitorSystem.Worker.DiskMonitor
import MonitorSystem.Worker.HostInfoMonitor
import MonitorSystem.Worker.MemMonitor
import MonitorSystem.Worker.NetEbpfMonitor
import MonitorSystem.Worker.ProcNetDev

/-!
# `MetricCollector`

`CollectAll` sets the name of a report and lets the seven monitors of `monitors_` fill it, one after
another.  Each monitor has members of its own and adds fields of its own; `MemMonitor` may throw,
and nothing on the way to the push thread catches what it throws.  A field of `MenInfo` that no line
assigns, or a total of zero, does not end its call: the message is filled with what the member holds
and with what the division gives, and both are part of the readings here.  Only a blank line, or one
without its second word, is left undefined: the model stops there, and nothing is claimed of what
follows.

`report_of_monitors` takes a run of `CollectAll` apart into runs of the single monitors.  Floats are
taken as exact rationals, as in the models of the monitors.
-/

namespace MonitorSystem

open HostInfoMonitor (Ifaddrs)
open MemMonitor (MenInfo memFile memInfoOf readLines usedPercent)
open NetEbpf (NetStats)

/-- `CpuLoadMonitor::UpdateOnce`: the load averages of the mapped device, else the three numbers
that `fscanf` reads from `/proc/loadavg`, if it reads three. -/
def CpuLoadMonitor.updateOnce (device proc : Option (CpuLoad ℚ)) : Option (CpuLoad ℚ) :=
  match device with
  | some info => some info
  | none => proc

namespace MetricCollector

/-! ### The program -/

/-- The network monitor that the worker is built with. -/
structure NetCollector where
  Reading : Type
  State : Type
  start : State
  updateOnce : Reading → State → List (NetInfo ℚ) × State

/-- What `NetMonitor` reads: the clock, `/proc/net/dev`, and what the variables of its parser hold
that are not initialised. -/
structure ProcReading where
  now : ℤ
  file : Option (List Char)
  stat : ℕ → NetMonitor.NetStat
  dummy : ℕ → UInt64

/-- Without `ENABLE_EBPF`. -/
def netMonitor : NetCollector where
  Reading := ProcReading
  State := NetMonitor.LastNetInfoMap
  start _ := none
  updateOnce r := NetMonitor.updateOnce r.now (NetMonitor.getNetStatsFromProc r.stat r.dummy r.file)

/-- What `NetEbpfMonitor` reads: the clock, the names of the interfaces and the BPF map. -/
structure EbpfReading where
  now : ℤ
  indexToName : UInt32 → Option String
  entries : NetEbpfMonitor.Entries

/-- With `ENABLE_EBPF`; `loaded` is what the constructor has achieved. -/
def netEbpfMonitor (loaded : Bool) : NetCollector where
  Reading := EbpfReading
  State := NetEbpfMonitor.State
  start := {}
  updateOnce r := NetEbpfMonitor.updateOnce loaded r.indexToName r.now r.entries

/-- What `MemMonitor` meets: `/proc/meminfo`, what the fields of `MenInfo` hold that are not
initialised, and what a division by a total of zero gives, for which `ℚ` has no value of its own. -/
structure MemReading where
  file : Option (List Char)
  stale : MemMonitor.Field → Int64
  overZero : ℚ

/-- The end of `MemMonitor::UpdateOnce` where not every field needs to have been assigned. -/
def MemReading.message (r : MemReading) (memInfo : MenInfo) : MemInfo ℚ :=
  let value field := (memInfo field).getD (r.stale field)
  memInfoOf value ((usedPercent (value .total) (value .avail)).toOption.getD r.overZero)

/-- `MemMonitor::UpdateOnce`, which ends early only inside its loop over the lines. -/
def memCall (r : MemReading) : Except MemMonitor.Fault (MemInfo ℚ) :=
  (readLines r.file).map r.message

/-- What the monitors read in one call of `CollectAll`. -/
structure Readings (net : NetCollector) where
  loadDevice : Option (CpuLoad ℚ)
  loadProc : Option (CpuLoad ℚ)
  cpuStat : Option CpuStatCollector.Table
  softirq : Option SoftirqCollector.Table
  softirqNow : ℤ
  mem : MemReading
  net : net.Reading
  diskNow : ℤ
  diskstats : List Char
  hostname : Option String
  ifaddr : Option (List HostInfoMonitor.Ifaddrs)

/-- The members of the monitors. -/
structure Monitors (net : NetCollector) where
  cpuStatMap : CpuStatMonitor.CpuStatMap ℚ
  cpuSoftirqs : CpuSoftIrqMonitor.SoftIrqMap
  net : net.State
  disk : DiskMonitor.State ℚ
  hostInfo : HostInfoMonitor.State

variable {net : NetCollector}

/-- `CollectAll`: the report it fills and the members it leaves, or the fault at which `MemMonitor`
stops.  `hostname` is the member `hostname_`. -/
def collectAll (hostname : String) (r : Readings net) (s : Monitors net)
    (info : MonitorInfo ℚ) : Except MemMonitor.Fault (MonitorInfo ℚ × Monitors net) :=
  let info := { info with name := hostname }
  let info :=
    match CpuLoadMonitor.updateOnce r.loadDevice r.loadProc with
    | some load => { info with cpuLoad := some load }
    | none => info
  let (cpuStats, cpuStatMap) := CpuStatMonitor.updateOnce r.cpuStat s.cpuStatMap
  let info := { info with cpuStat := info.cpuStat ++ cpuStats }
  let (softIrqs, cpuSoftirqs) := CpuSoftIrqMonitor.updateOnce r.softirq r.softirqNow s.cpuSoftirqs
  let info := { info with softIrq := info.softIrq ++ softIrqs }
  match memCall r.mem with
  | .error fault => .error fault
  | .ok mem =>
    let info := { info with memInfo := some mem }
    let (netInfos, netState) := net.updateOnce r.net s.net
    let info := { info with netInfo := info.netInfo ++ netInfos }
    let (disks, disk) := DiskMonitor.updateOnce (r.diskNow : ℚ) r.diskstats s.disk
    let info := { info with diskInfo := info.diskInfo ++ disks }
    let (hostInfo, hostInfoState) := HostInfoMonitor.updateOnce r.hostname r.ifaddr s.hostInfo
    let info := { info with hostInfo := some hostInfo }
    .ok (info, ⟨cpuStatMap, cpuSoftirqs, netState, disk, hostInfoState⟩)

/-- The members of a new collector. -/
def start (net : NetCollector) : Monitors net where
  cpuStatMap _ := none
  cpuSoftirqs _ := none
  net := net.start
  disk := {}
  hostInfo := {}

/-- A worker: how it was built, what `gethostname` told its constructor, and what its monitors read
in each call. -/
structure Worker where
  net : NetCollector
  hostname : Option String
  readings : ℕ → Readings net

namespace Worker

variable (w : Worker)

/-- `hostname_`. -/
def name : String := HostInfoMonitor.getHostname w.hostname

/-- The members before call `n` of `CollectAll`; `none` once `MemMonitor` has stopped at a fault. -/
def membersAt : ℕ → Option (Monitors w.net)
  | 0 => some (start w.net)
  | n + 1 =>
    (membersAt n).bind fun s => (collectAll w.name (w.readings n) s {}).toOption.map Prod.snd

/-- The report that call `n` fills for `PushOnce`. -/
def report (n : ℕ) : Option (MonitorInfo ℚ) :=
  (w.membersAt n).bind fun s => (collectAll w.name (w.readings n) s {}).toOption.map Prod.fst

end Worker

/-! ### The monitors one by one -/

section Alone

open CallRuns (stateAt answerAt)

/-- `CpuStatMonitor` in a call of `CollectAll`. -/
def cpuStatCall (r : Readings net) :
    CpuStatMonitor.CpuStatMap ℚ → List (CpuStat ℚ) × CpuStatMonitor.CpuStatMap ℚ :=
  CpuStatMonitor.updateOnce r.cpuStat

/-- `CpuSoftIrqMonitor` in a call of `CollectAll`. -/
def softirqCall (r : Readings net) :
    CpuSoftIrqMonitor.SoftIrqMap → List (SoftIrq ℚ) × CpuSoftIrqMonitor.SoftIrqMap :=
  CpuSoftIrqMonitor.updateOnce r.softirq r.softirqNow

/-- The network monitor in a call of `CollectAll`. -/
def netCall (r : Readings net) : net.State → List (NetInfo ℚ) × net.State := net.updateOnce r.net

/-- `DiskMonitor` in a call of `CollectAll`. -/
def diskCall (r : Readings net) :
    DiskMonitor.State ℚ → List (DiskInfo ℚ) × DiskMonitor.State ℚ :=
  DiskMonitor.updateOnce (r.diskNow : ℚ) r.diskstats

/-- `HostInfoMonitor` in a call of `CollectAll`. -/
def hostInfoCall (r : Readings net) : HostInfoMonitor.State → HostInfo × HostInfoMonitor.State :=
  HostInfoMonitor.updateOnce r.hostname r.ifaddr

/-- When `MemMonitor` does not stop, every field of the report comes from one monitor, which saw its
own members only. -/
theorem collectAll_eq_ok {hostname : String} {r : Readings net} {s : Monitors net}
    {mem : MemInfo ℚ} (hmem : memCall r.mem = .ok mem) :
    collectAll hostname r s {} = .ok
      ({ name := hostname
         hostInfo := some (hostInfoCall r s.hostInfo).1
         softIrq := (softirqCall r s.cpuSoftirqs).1
         cpuLoad := CpuLoadMonitor.updateOnce r.loadDevice r.loadProc
         cpuStat := (cpuStatCall r s.cpuStatMap).1
         memInfo := some mem
         netInfo := (netCall r s.net).1
         diskInfo := (diskCall r s.disk).1 },
        ⟨(cpuStatCall r s.cpuStatMap).2, (softirqCall r s.cpuSoftirqs).2, (netCall r s.net).2,
          (diskCall r s.disk).2, (hostInfoCall r s.hostInfo).2⟩) := by
  unfold collectAll
  rw [hmem]
  cases hload : CpuLoadMonitor.updateOnce r.loadDevice r.loadProc <;> rfl

/-- Where `MemMonitor` stops, `CollectAll` does. -/
theorem collectAll_eq_error {hostname : String} {r : Readings net} {s : Monitors net}
    {fault : MemMonitor.Fault}
    (hmem : memCall r.mem = .error fault) (info : MonitorInfo ℚ) :
    collectAll hostname r s info = .error fault := by
  unfold collectAll
  rw [hmem]

namespace Worker

variable (w : Worker)

/-- The members before call `n`, had each monitor been called alone. -/
def alone (n : ℕ) : Monitors w.net where
  cpuStatMap := stateAt cpuStatCall w.readings (fun _ => none) n
  cpuSoftirqs := stateAt softirqCall w.readings (fun _ => none) n
  net := stateAt netCall w.readings w.net.start n
  disk := stateAt diskCall w.readings {} n
  hostInfo := stateAt hostInfoCall w.readings {} n

/-- The report put together from the answers of monitors that are called alone. -/
def assembled (n : ℕ) (mem : MemInfo ℚ) : MonitorInfo ℚ where
  name := w.name
  hostInfo := some (answerAt hostInfoCall w.readings {} n)
  softIrq := answerAt softirqCall w.readings (fun _ => none) n
  cpuLoad := CpuLoadMonitor.updateOnce (w.readings n).loadDevice (w.readings n).loadProc
  cpuStat := answerAt cpuStatCall w.readings (fun _ => none) n
  memInfo := some mem
  netInfo := answerAt netCall w.readings w.net.start n
  diskInfo := answerAt diskCall w.readings {} n

/-- In call `n` no line of `/proc/meminfo` is blank, and every line with a key has a number for its
second word. -/
def Readable (n : ℕ) : Prop := ∃ memInfo, readLines (w.readings n).mem.file = .ok memInfo

/-- In call `n` an exception of `std::stoll` escapes from `MemMonitor`. -/
def Throws (n : ℕ) : Prop :=
  readLines (w.readings n).mem.file = .error .invalidArgument ∨
    readLines (w.readings n).mem.file = .error .outOfRange

theorem collectAll_alone {n : ℕ} {mem : MemInfo ℚ}
    (hmem : memCall (w.readings n).mem = .ok mem) :
    collectAll w.name (w.readings n) (w.alone n) {} = .ok (w.assembled n mem, w.alone (n + 1)) :=
  collectAll_eq_ok hmem

theorem readable_iff (n : ℕ) :
    w.Readable n ↔ (readLines (w.readings n).mem.file).toOption.isSome = true := by
  rw [Readable]
  cases readLines (w.readings n).mem.file <;> simp [Except.toOption]

variable {w} in
theorem Readable.exists_mem {n : ℕ} (h : w.Readable n) :
    ∃ mem, memCall (w.readings n).mem = .ok mem := by
  obtain ⟨memInfo, hread⟩ := h
  exact ⟨_, by rw [memCall, hread]; rfl⟩

theorem not_readable {n : ℕ} (h : ¬ w.Readable n) :
    ∃ fault, memCall (w.readings n).mem = .error fault := by
  cases hread : readLines (w.readings n).mem.file with
  | error fault => exact ⟨fault, by rw [memCall, hread]; rfl⟩
  | ok memInfo => exact absurd ⟨memInfo, hread⟩ h

variable {w} in
theorem Throws.not_readable {n : ℕ} (h : w.Throws n) : ¬ w.Readable n := by
  rintro ⟨memInfo, hread⟩
  rcases h with hthrow | hthrow <;> simp [hread] at hthrow

/-- Where every field is assigned and the total is not zero, the message has the values of the
file. -/
theorem memCall_of_updateOnce {r : MemReading} {mem : MemInfo ℚ}
    (h : MemMonitor.updateOnce r.file = .ok mem) : memCall r = .ok mem := by
  obtain ⟨memInfo, hread, hfill⟩ := MemMonitor.bind_eq_ok.1 h
  obtain ⟨value, percent, hvalue, hpercent, rfl⟩ := MemMonitor.fillMessage_eq_ok.1 hfill
  have hget : ∀ field, (memInfo field).getD (r.stale field) = value field := fun field => by
    rw [hvalue field, Option.getD_some]
  rw [memCall, hread]
  show Except.ok (r.message memInfo) = _
  simp only [MemReading.message, hget, hpercent, Except.toOption, Option.getD_some]

/-- Until `MemMonitor` stops, the members are those of monitors that are called alone. -/
theorem membersAt_eq_some_iff (n : ℕ) (s : Monitors w.net) :
    w.membersAt n = some s ↔ (∀ k < n, w.Readable k) ∧ s = w.alone n := by
  induction n generalizing s with
  | zero =>
    show some (start w.net) = some s ↔ _
    rw [Option.some_inj]
    exact ⟨fun h => ⟨fun k hk => absurd hk k.not_lt_zero, h.symm⟩, fun h => h.2.symm⟩
  | succ n ih =>
    show (w.membersAt n).bind _ = some s ↔ _
    rw [Option.bind_eq_some_iff]
    constructor
    · rintro ⟨t, ht, hs⟩
      obtain ⟨hread, rfl⟩ := (ih t).1 ht
      by_cases hn : w.Readable n
      · obtain ⟨mem, hmem⟩ := hn.exists_mem
        rw [w.collectAll_alone hmem] at hs
        refine ⟨fun k hk => ?_, (Option.some.inj hs).symm⟩
        rcases Nat.lt_succ_iff_lt_or_eq.1 hk with hlt | rfl
        · exact hread k hlt
        · exact hn
      · obtain ⟨fault, hfault⟩ := w.not_readable hn
        rw [collectAll_eq_error hfault] at hs
        cases hs
    · rintro ⟨hread, rfl⟩
      obtain ⟨mem, hmem⟩ := (hread n (Nat.lt_succ_self n)).exists_mem
      refine ⟨w.alone n, (ih _).2 ⟨fun k hk => hread k (by omega), rfl⟩, ?_⟩
      rw [w.collectAll_alone hmem]
      rfl

theorem assembled_of_report {n : ℕ} {info : MonitorInfo ℚ} (h : w.report n = some info) :
    (∀ k ≤ n, w.Readable k) ∧ ∃ mem,
      memCall (w.readings n).mem = .ok mem ∧ info = w.assembled n mem := by
  obtain ⟨s, hs, hinfo⟩ := Option.bind_eq_some_iff.1 h
  obtain ⟨hread, rfl⟩ := (w.membersAt_eq_some_iff n s).1 hs
  by_cases hn : w.Readable n
  · obtain ⟨mem, hmem⟩ := hn.exists_mem
    rw [w.collectAll_alone hmem] at hinfo
    refine ⟨fun k hk => ?_, mem, hmem, (Option.some.inj hinfo).symm⟩
    rcases Nat.lt_or_eq_of_le hk with hlt | rfl
    · exact hread k hlt
    · exact hn
  · obtain ⟨fault, hfault⟩ := w.not_readable hn
    rw [collectAll_eq_error hfault] at hinfo
    cases hinfo

theorem report_of_readable {n : ℕ} (hread : ∀ k < n, w.Readable k) {mem : MemInfo ℚ}
    (hmem : memCall (w.readings n).mem = .ok mem) : w.report n = some (w.assembled n mem) := by
  refine Option.bind_eq_some_iff.2 ⟨w.alone n, (w.membersAt_eq_some_iff n _).2 ⟨hread, rfl⟩, ?_⟩
  rw [w.collectAll_alone hmem]
  rfl

/-- **A report is put together from its monitors.**  When `MemMonitor` could read its file in call
`n` of `CollectAll` and in all calls before, the call fills a report that has in every field what
the monitor of that field reports in a run of its own, on what it reads itself; its memory message
is the one for the values of the file whenever the file has them all.  From the first call in which
an exception of `std::stoll` escapes, no report is filled. -/
theorem report_of_monitors (n : ℕ) :
    ((∀ k ≤ n, w.Readable k) → ∃ mem, memCall (w.readings n).mem = .ok mem ∧
      w.report n = some (w.assembled n mem) ∧
      ∀ mem', MemMonitor.updateOnce (w.readings n).mem.file = .ok mem' → mem = mem') ∧
      ∀ k ≤ n, (∀ j < k, w.Readable j) → w.Throws k → w.report n = none := by
  constructor
  · intro hread
    obtain ⟨mem, hmem⟩ := (hread n le_rfl).exists_mem
    refine ⟨mem, hmem, w.report_of_readable (fun k hk => hread k hk.le) hmem, fun mem' hfull => ?_⟩
    exact Except.ok.inj (hmem.symm.trans (memCall_of_updateOnce hfull))
  · intro k hk _ hthrows
    rw [Option.eq_none_iff_forall_ne_some]
    intro info hinfo
    exact hthrows.not_readable ((w.assembled_of_report hinfo).1 k hk)

/-- A worker on a host with this name and these interfaces, where of all files only `/proc/meminfo`
can be read. -/
def onlyMem (hostname : String) (ifaddr : List Ifaddrs) (mem : ℕ → MemReading) : Worker where
  net := netMonitor
  hostname := some hostname
  readings n :=
    { loadDevice := none
      loadProc := none
      cpuStat := none
      softirq := none
      softirqNow := 0
      mem := mem n
      net := ⟨0, none, fun _ => { name := "" }, fun _ => 0⟩
      diskNow := 0
      diskstats := []
      hostname := some hostname
      ifaddr := some ifaddr }

/-- Its reports are about no devices. -/
theorem devices_of_report_onlyMem {hostname : String} {ifaddr : List Ifaddrs}
    {mem : ℕ → MemReading} {n : ℕ} {info : MonitorInfo ℚ}
    (h : (onlyMem hostname ifaddr mem).report n = some info) :
    info.netInfo = [] ∧ info.softIrq = [] ∧ info.diskInfo = [] := by
  obtain ⟨-, m, -, rfl⟩ := assembled_of_report _ h
  exact ⟨rfl, rfl, rfl⟩

/-- A kernel that does not print `KReclaimable:`, and whose first word for the total is no number
from the second call on. -/
def untidy : Worker := onlyMem "web" [] fun n =>
  { file := some (if n = 0 then memFile (MemMonitor.Field.all.filter (· ≠ .kReclaimable)) "1"
      else "MemTotal: kB\n".toList)
    stale := fun _ => 7000000
    overZero := 0 }

theorem report_of_monitors_untidy :
    (∃ info mem, untidy.report 0 = some info ∧ info.memInfo = some mem ∧ mem.kReclaimable = 7) ∧
      untidy.report 1 = none := by
  have hfirst : (memCall (untidy.readings 0).mem).toOption.map (·.kReclaimable) = some 7 := by
    rw [memCall, MemMonitor.readLines_words]
    decide +kernel
  have hreadable : untidy.Readable 0 := by
    rw [readable_iff, MemMonitor.readLines_words]
    decide +kernel
  have hthrows : untidy.Throws 1 := by
    refine .inl (show readLines (some "MemTotal: kB\n".toList) = _ from ?_)
    rw [MemMonitor.readLines_words]
    have hlines : MemMonitor.linesRead (some "MemTotal: kB\n".toList) =
        ["MemTotal: kB".toList] := by decide +kernel
    rw [hlines]
    rfl
  obtain ⟨mem, hmem, hreport, -⟩ :=
    (untidy.report_of_monitors 0).1 fun k hk => by rwa [Nat.le_zero.1 hk]
  rw [hmem] at hfirst
  refine ⟨⟨_, mem, hreport, rfl, Option.some.inj hfirst⟩,
    (untidy.report_of_monitors 1).2 1 le_rfl (fun j hj => ?_) hthrows⟩
  rwa [Nat.lt_one_iff.1 hj]

/-- All fields have the number 1. -/
def plain (hostname : String) (ifaddr : List Ifaddrs) : Worker :=
  onlyMem hostname ifaddr fun _ => ⟨some (memFile MemMonitor.Field.all "1"), fun _ => 0, 0⟩

theorem readable_plain (hostname : String) (ifaddr : List Ifaddrs) (n : ℕ) :
    (plain hostname ifaddr).Readable n := by
  have hfile : ((plain hostname ifaddr).readings n).mem.file =
      some (memFile MemMonitor.Field.all "1") := rfl
  rw [readable_iff, hfile, MemMonitor.readLines_words]
  decide +kernel

/-- It never stops reporting. -/
theorem exists_report_plain (hostname : String) (ifaddr : List Ifaddrs) (n : ℕ) :
    ∃ info, (plain hostname ifaddr).report n = some info := by
  obtain ⟨mem, hmem⟩ := (readable_plain hostname ifaddr n).exists_mem
  exact ⟨_, report_of_readable _ (fun k _ => readable_plain hostname ifaddr k) hmem⟩

/-! ### Name and host -/

/-- The host information of the first report. -/
def hostInfo : HostInfo where
  hostname := HostInfoMonitor.getHostname (w.readings 0).hostname
  ipAddress := HostInfoMonitor.getPrimaryIpAddress (w.readings 0).ifaddr

/-- After the first call `HostInfoMonitor` has cached what it found then. -/
theorem hostInfo_stateAt_succ (n : ℕ) : stateAt hostInfoCall w.readings {} (n + 1) =
    { cachedHostname := w.hostInfo.hostname
      cachedIp := w.hostInfo.ipAddress
      infoCached := true } := by
  induction n with
  | zero => rfl
  | succ n ih =>
    show (hostInfoCall _ (stateAt hostInfoCall w.readings {} (n + 1))).2 = _
    rw [ih]
    exact congrArg Prod.snd (HostInfoMonitor.updateOnce_of_infoCached _ _ rfl)

/-- The host information never changes. -/
theorem hostInfo_answerAt (n : ℕ) : answerAt hostInfoCall w.readings {} n = w.hostInfo := by
  cases n with
  | zero => rfl
  | succ n =>
    show (hostInfoCall _ (stateAt hostInfoCall w.readings {} (n + 1))).1 = _
    rw [hostInfo_stateAt_succ]
    exact congrArg Prod.fst (HostInfoMonitor.updateOnce_of_infoCached _ _ rfl)

variable {w}

theorem name_of_report {n : ℕ} {info : MonitorInfo ℚ} (h : w.report n = some info) :
    info.name = w.name := by
  obtain ⟨-, mem, -, rfl⟩ := w.assembled_of_report h
  rfl

theorem hostInfo_of_report {n : ℕ} {info : MonitorInfo ℚ} (h : w.report n = some info) :
    info.hostInfo = some w.hostInfo := by
  obtain ⟨-, mem, -, rfl⟩ := w.assembled_of_report h
  exact congrArg some (w.hostInfo_answerAt n)

end Worker

end Alone

end MetricCollector

end MonitorSystem
