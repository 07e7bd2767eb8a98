import MonitorSystem.Library.SinglePrecision
import MonitorSystem.Proto.Messages
import MonitorSystem.Worker.CpuStatCollector

/-!
# `CpuStatMonitor`

`UpdateOnce` maps the table of the kernel module, goes through its rows up to the empty name, and
reports the shares of the time since the last call for each CPU that it has seen before.

The module fills up to 256 rows; the collector maps and reads 128.  It also keeps the counters as
`float`, which has 24 significant bits.  `cpu_table_read_back_iff` says when none of this matters.
-/

namespace MonitorSystem

namespace CpuStatMonitor

open CxxFloat (toFloat lit)
open CpuStatCollector
open SinglePrecision (Single)

/-! ### The program -/

/-- `CpuStatMonitor::CpuStat`. -/
structure CachedCpuStat (F : Type) where
  cpuName : String
  user : F
  system : F
  idle : F
  nice : F
  ioWait : F
  irq : F
  softIrq : F
  steal : F
  guest : F
  guestNice : F

/-- `cpu_stat_map_`. -/
abbrev CpuStatMap (F : Type) := String → Option (CachedCpuStat F)

variable {F : Type} [CxxFloat F]

/-- A counter as a `float`. -/
def float (n : UInt64) : F := toFloat (n.toNat : F)

/-- A sum of `float` values, from the left. -/
def floatSum (x : F) (rest : List F) : F := rest.foldl (fun sum y => toFloat (sum + y)) x

/-- The message for a CPU; `stats` is the row, and `old` what was kept of the last one. -/
def cpuStatMsg (name : String) (stats : CpuTimes) (old : CachedCpuStat F) : CpuStat F :=
  let newCpuTotalTime : F := float (stats.user + stats.system + stats.idle + stats.nice +
    stats.iowait + stats.irq + stats.softirq + stats.steal)
  let oldCpuTotalTime := floatSum old.user [old.system, old.idle, old.nice, old.ioWait, old.irq,
    old.softIrq, old.steal]
  let newCpuBusyTime : F := float (stats.user + stats.system + stats.nice + stats.irq +
    stats.softirq + stats.steal)
  let oldCpuBusyTime := floatSum old.user [old.system, old.nice, old.irq, old.softIrq, old.steal]
  let percent (newTime oldTime : F) : F :=
    toFloat (toFloat (toFloat (newTime - oldTime) / toFloat (newCpuTotalTime - oldCpuTotalTime)) *
      lit 100 1)
  { cpuName := name
    cpuPercent := percent newCpuBusyTime oldCpuBusyTime
    usrPercent := percent (float stats.user) old.user
    systemPercent := percent (float stats.system) old.system
    nicePercent := percent (float stats.nice) old.nice
    idlePercent := percent (float stats.idle) old.idle
    ioWaitPercent := percent (float stats.iowait) old.ioWait
    irqPercent := percent (float stats.irq) old.irq
    softIrqPercent := percent (float stats.softirq) old.softIrq }

/-- `cached`, what is kept of a row. -/
def cached (name : String) (stats : CpuTimes) : CachedCpuStat F where
  cpuName := name
  user := float stats.user
  nice := float stats.nice
  system := float stats.system
  idle := float stats.idle
  ioWait := float stats.iowait
  irq := float stats.irq
  softIrq := float stats.softirq
  steal := float stats.steal
  guest := float stats.guest
  guestNice := float stats.guestNice

/-- `stat_count`. -/
def statCount : ℕ := 128

/-- `UpdateOnce`: the messages it adds and the map it leaves.  There is no table when the device
cannot be opened or mapped. -/
def updateOnce (mapped : Option Table) (cpuStatMap : CpuStatMap F) :
    List (CpuStat F) × CpuStatMap F :=
  match mapped with
  | none => ([], cpuStatMap)
  | some table =>
    -- a CPU that was not seen before has no message
    table.read statCount (fun name stats old => old.map (cpuStatMsg name stats)) cached cpuStatMap

/-! ### One call -/

/-- The entries that a call reads. -/
def readEntries (table : Table) : List (String × CpuTimes) := table.entries.take statCount

/-- The messages are those of the entries that the map knows. -/
theorem updateOnce_messages {table : Table} (hnodup : (table.entries.map Prod.fst).Nodup)
    (cpuStatMap : CpuStatMap F) : (updateOnce (some table) cpuStatMap).1 =
      (readEntries table).filterMap fun e => (cpuStatMap e.1).map (cpuStatMsg e.1 e.2) :=
  KernelTable.read_messages hnodup

/-- The map afterwards holds every entry that was read. -/
theorem updateOnce_map_of_mem {table : Table} (hnodup : (table.entries.map Prod.fst).Nodup)
    (cpuStatMap : CpuStatMap F) {name : String} {stats : CpuTimes}
    (hmem : (name, stats) ∈ readEntries table) :
    (updateOnce (some table) cpuStatMap).2 name = some (cached name stats) :=
  KernelTable.read_cache_of_mem hnodup hmem

theorem updateOnce_map_of_notMem {table : Table} (cpuStatMap : CpuStatMap F) {name : String}
    (hmem : name ∉ (readEntries table).map Prod.fst) :
    (updateOnce (some table) cpuStatMap).2 name = cpuStatMap name :=
  KernelTable.read_cache_of_notMem hmem

/-- The names in the messages. -/
theorem updateOnce_names {table : Table} (hnodup : (table.entries.map Prod.fst).Nodup)
    (cpuStatMap : CpuStatMap F) :
    (updateOnce (some table) cpuStatMap).1.map (·.cpuName) =
      ((readEntries table).map Prod.fst).filter fun name => (cpuStatMap name).isSome := by
  rw [updateOnce_messages hnodup, List.map_filterMap, List.filter_map, ← List.filterMap_eq_map,
    List.filterMap_filter]
  refine List.filterMap_congr fun e _ => ?_
  cases h : cpuStatMap e.1 <;> simp [h, cpuStatMsg]

/-! ### The module and the collector -/

/-- A pass of the module, with what the kernel knows of the CPUs, or a call of the collector. -/
inductive Event
  | update (kcs : Cpu → KernelCpustat)
  | read

/-- The shared table, and the map of the collector. -/
structure State (F : Type) where
  table : Table := .zero {}
  cpuStatMap : CpuStatMap F := fun _ => none

/-- A call reads the table as it stands between two passes. -/
def step (K : Kernel) (cpus : List Cpu) (s : State F) : Event → State F
  | .update kcs => { s with table := updateCpuStats K cpus kcs s.table }
  | .read => { s with cpuStatMap := (updateOnce (some s.table) s.cpuStatMap).2 }

/-- From the start of both to the state after some events. -/
def after (F : Type) [CxxFloat F] (K : Kernel) (cpus : List Cpu) (es : List Event) : State F :=
  es.foldl (step K cpus) {}

/-- What the last pass found. -/
def written (es : List Event) : Option (Cpu → KernelCpustat) :=
  es.foldl (fun last e => match e with | .update kcs => some kcs | .read => last) none

/-- A call has read a table that was written. -/
def Primed (es : List Event) : Prop := ∃ kcs es₁ es₂, es = es₁ ++ .update kcs :: es₂ ∧ .read ∈ es₂

/-- A kept record is exactly what the module wrote. -/
structure CachedCpuStat.Holds (kept : CachedCpuStat F) (times : CpuTimes) : Prop where
  user : kept.user = (times.user.toNat : F)
  nice : kept.nice = (times.nice.toNat : F)
  system : kept.system = (times.system.toNat : F)
  idle : kept.idle = (times.idle.toNat : F)
  ioWait : kept.ioWait = (times.iowait.toNat : F)
  irq : kept.irq = (times.irq.toNat : F)
  softIrq : kept.softIrq = (times.softirq.toNat : F)
  steal : kept.steal = (times.steal.toNat : F)
  guest : kept.guest = (times.guest.toNat : F)
  guestNice : kept.guestNice = (times.guestNice.toNat : F)

open SinglePrecision (Representable)

/-- Each time has 24 significant bits. -/
structure FitsFloat (times : CpuTimes) : Prop where
  user : Representable times.user.toNat
  nice : Representable times.nice.toNat
  system : Representable times.system.toNat
  idle : Representable times.idle.toNat
  iowait : Representable times.iowait.toNat
  irq : Representable times.irq.toNat
  softirq : Representable times.softirq.toNat
  steal : Representable times.steal.toNat
  guest : Representable times.guest.toNat
  guestNice : Representable times.guestNice.toNat

theorem holds_cached_iff {name : String} {times : CpuTimes} :
    (cached name times : CachedCpuStat Single).Holds times ↔ FitsFloat times := by
  have hfield := Single.toFloat_natCast_eq_iff
  constructor
  · intro h
    exact ⟨(hfield _).1 h.user, (hfield _).1 h.nice, (hfield _).1 h.system, (hfield _).1 h.idle,
      (hfield _).1 h.ioWait, (hfield _).1 h.irq, (hfield _).1 h.softIrq, (hfield _).1 h.steal,
      (hfield _).1 h.guest, (hfield _).1 h.guestNice⟩
  · intro h
    exact ⟨(hfield _).2 h.user, (hfield _).2 h.nice, (hfield _).2 h.system, (hfield _).2 h.idle,
      (hfield _).2 h.iowait, (hfield _).2 h.irq, (hfield _).2 h.softirq, (hfield _).2 h.steal,
      (hfield _).2 h.guest, (hfield _).2 h.guestNice⟩

/-- The call of the collector after some events. -/
def nextCall (F : Type) [CxxFloat F] (K : Kernel) (cpus : List Cpu) (es : List Event) :
    List (CpuStat F) × CpuStatMap F :=
  updateOnce (some (after F K cpus es).table) (after F K cpus es).cpuStatMap

/-- A call reads the table back completely: it emits the CPUs that the table has room for, in order,
and keeps exactly the times that the module wrote for them. -/
def ReadsBack (K : Kernel) (cpus : List Cpu) (es : List Event) : Prop :=
  (nextCall Single K cpus es).1.map (·.cpuName) = (listed cpus).map cpuName ∧
    ∀ cpu ∈ listed cpus, ∃ kcs kept, written es = some kcs ∧
      (nextCall Single K cpus es).2 (cpuName cpu) = some kept ∧ kept.cpuName = cpuName cpu ∧
      kept.Holds (cpuTimes K (kcs cpu))

/-! ### Runs -/

section Runs

variable {K : Kernel} {cpus : List Cpu}

theorem after_concat (es : List Event) (e : Event) :
    after F K cpus (es ++ [e]) = step K cpus (after F K cpus es) e := by
  rw [after, after, List.foldl_append]
  rfl

theorem written_update (es : List Event) (kcs : Cpu → KernelCpustat) :
    written (es ++ [.update kcs]) = some kcs := by
  rw [written, List.foldl_append]
  rfl

theorem written_read (es : List Event) : written (es ++ [.read]) = written es := by
  rw [written, List.foldl_append]
  rfl

theorem written_isSome_iff {es : List Event} :
    (written es).isSome ↔ ∃ kcs, .update kcs ∈ es := by
  induction es using List.reverseRecOn with
  | nil => simp [written]
  | append_singleton es e ih =>
    cases e with
    | update kcs => simp [written_update]
    | read => simp [written_read, ih]

theorem primed_concat {es : List Event} {e : Event} :
    Primed (es ++ [e]) ↔ Primed es ∨ e = .read ∧ (written es).isSome := by
  rw [written_isSome_iff]
  constructor
  · rintro ⟨kcs, es₁, es₂, heq, hread⟩
    obtain ⟨es₂, e', rfl⟩ := (List.eq_nil_or_concat' es₂).resolve_left (List.ne_nil_of_mem hread)
    rw [← List.cons_append, ← List.append_assoc] at heq
    obtain ⟨rfl, he⟩ := List.append_inj' heq rfl
    obtain rfl : e = e' := List.singleton_inj.1 he
    rcases List.mem_append.1 hread with hread | hread
    · exact .inl ⟨kcs, es₁, es₂, rfl, hread⟩
    · exact .inr ⟨(List.mem_singleton.1 hread).symm, kcs, by simp⟩
  · rintro (⟨kcs, es₁, es₂, rfl, hread⟩ | ⟨rfl, kcs, hmem⟩)
    · exact ⟨kcs, es₁, es₂ ++ [e], by simp, List.mem_append_left _ hread⟩
    · obtain ⟨es₁, es₂, rfl⟩ := List.append_of_mem hmem
      exact ⟨kcs, es₁, es₂ ++ [.read], by simp, by simp⟩

theorem Primed.written_isSome {es : List Event} (h : Primed es) : (written es).isSome := by
  obtain ⟨kcs, es₁, es₂, rfl, -⟩ := h
  exact written_isSome_iff.2 ⟨kcs, by simp⟩

/-- The table and the map after some events: the table holds what the last pass found, and the map
knows the CPUs that a call could read. -/
structure Inv (F : Type) [CxxFloat F] (K : Kernel) (cpus : List Cpu) (es : List Event) : Prop where
  entries_eq : (after F K cpus es).table.entries = match written es with
    | none => []
    | some kcs => (listed cpus).map fun cpu => (cpuName cpu, cpuTimes K (kcs cpu))
  isSome_iff : ∀ name, ((after F K cpus es).cpuStatMap name).isSome ↔
    Primed es ∧ name ∈ (cpus.take statCount).map cpuName

theorem take_listed (cpus : List Cpu) : (listed cpus).take statCount = cpus.take statCount :=
  List.take_take

theorem Inv.readEntries_eq {es : List Event} (h : Inv F K cpus es) {kcs : Cpu → KernelCpustat}
    (hkcs : written es = some kcs) : readEntries (after F K cpus es).table =
      (cpus.take statCount).map fun cpu => (cpuName cpu, cpuTimes K (kcs cpu)) := by
  rw [readEntries, h.entries_eq, hkcs, ← take_listed, List.map_take]

theorem Inv.names_eq {es : List Event} (h : Inv F K cpus es) :
    (readEntries (after F K cpus es).table).map Prod.fst =
      if (written es).isSome then (cpus.take statCount).map cpuName else [] := by
  cases hkcs : written es with
  | none =>
    rw [readEntries, h.entries_eq, hkcs]
    rfl
  | some kcs =>
    rw [h.readEntries_eq hkcs, List.map_map]
    rfl

theorem Inv.nodup {es : List Event} (h : Inv F K cpus es) (hcpus : cpus.Nodup) :
    ((after F K cpus es).table.entries.map Prod.fst).Nodup := by
  rw [h.entries_eq]
  cases written es with
  | none => exact List.nodup_nil
  | some kcs =>
    rw [List.map_map]
    exact nodup_map_cpuName (nodup_listed hcpus)

theorem inv_after (hcpus : cpus.Nodup) (es : List Event) : Inv F K cpus es := by
  induction es using List.reverseRecOn with
  | nil =>
    refine ⟨KernelTable.entries_zero _, fun name => ⟨nofun, ?_⟩⟩
    rintro ⟨hprimed, -⟩
    exact absurd hprimed.written_isSome nofun
  | append_singleton es e ih =>
    cases e with
    | update kcs =>
      refine ⟨?_, fun name => ?_⟩
      · rw [after_concat, written_update]
        exact KernelTable.entries_refill _ cpus _
      · rw [after_concat, primed_concat]
        exact (ih.isSome_iff name).trans (by simp)
    | read =>
      refine ⟨?_, fun name => ?_⟩
      · rw [after_concat, written_read]
        exact ih.entries_eq
      · rw [after_concat, primed_concat]
        show ((updateOnce _ _).2 name).isSome ↔ _
        by_cases hmem : name ∈ (readEntries (after F K cpus es).table).map Prod.fst
        · obtain ⟨⟨name, times⟩, hentry, rfl⟩ := List.mem_map.1 hmem
          rw [updateOnce_map_of_mem (ih.nodup hcpus) _ hentry]
          rw [ih.names_eq] at hmem
          split_ifs at hmem with hwritten
          · exact ⟨fun _ => ⟨.inr ⟨rfl, hwritten⟩, hmem⟩, fun _ => rfl⟩
          · exact absurd hmem List.not_mem_nil
        · rw [updateOnce_map_of_notMem _ hmem, ih.isSome_iff]
          rw [ih.names_eq] at hmem
          refine and_congr_left fun hname => ⟨.inl, fun h => h.resolve_right ?_⟩
          rintro ⟨-, hwritten⟩
          rw [if_pos hwritten] at hmem
          exact hmem hname

/-- The names that a call emits, once there was a call that could read them. -/
theorem names_of_primed (hcpus : cpus.Nodup) {es : List Event} (h : Primed es) :
    (nextCall F K cpus es).1.map (·.cpuName) = (cpus.take statCount).map cpuName := by
  have hinv := inv_after (K := K) (F := F) hcpus es
  rw [nextCall, updateOnce_names (hinv.nodup hcpus), hinv.names_eq, if_pos h.written_isSome,
    List.filter_eq_self]
  exact fun name hname => (hinv.isSome_iff name).2 ⟨h, hname⟩

theorem names_of_not_primed (hcpus : cpus.Nodup) {es : List Event} (h : ¬ Primed es) :
    (nextCall F K cpus es).1.map (·.cpuName) = [] := by
  have hinv := inv_after (K := K) (F := F) hcpus es
  rw [nextCall, updateOnce_names (hinv.nodup hcpus), List.filter_eq_nil_iff]
  exact fun name _ hsome => h ((hinv.isSome_iff name).1 hsome).1

/-- What a call keeps of a CPU that it can read. -/
theorem map_of_mem (hcpus : cpus.Nodup) {es : List Event} {kcs : Cpu → KernelCpustat}
    (hkcs : written es = some kcs) {cpu : Cpu} (hcpu : cpu ∈ cpus.take statCount) :
    (nextCall F K cpus es).2 (cpuName cpu) =
      some (cached (cpuName cpu) (cpuTimes K (kcs cpu))) := by
  have hinv := inv_after (K := K) (F := F) hcpus es
  refine updateOnce_map_of_mem (hinv.nodup hcpus) _ ?_
  rw [hinv.readEntries_eq hkcs]
  exact List.mem_map_of_mem hcpu

theorem length_le_of_map_take_eq {l : List Cpu}
    (h : (l.take statCount).map cpuName = (listed l).map cpuName) : l.length ≤ statCount := by
  have hlength := congrArg List.length h
  simp only [List.length_map, listed, List.length_take, statCount, maxCpus] at hlength ⊢
  omega

end Runs

/-- **Reading the table back.**  After any sequence of passes and calls, the next call reads the
table back completely if and only if there are no CPUs at all, or an earlier call has read a written
table, there are at most 128 CPUs, and every time of the last pass has 24 significant bits. -/
theorem cpu_table_read_back_iff (K : Kernel) {cpus : List Cpu} (hcpus : cpus.Nodup)
    (es : List Event) :
    ReadsBack K cpus es ↔ cpus = [] ∨ Primed es ∧ cpus.length ≤ 128 ∧
      ∀ kcs, written es = some kcs → ∀ cpu ∈ cpus, FitsFloat (cpuTimes K (kcs cpu)) := by
  by_cases hprimed : Primed es
  · rw [ReadsBack, names_of_primed hcpus hprimed]
    obtain ⟨kcs, hkcs⟩ := Option.isSome_iff_exists.1 hprimed.written_isSome
    constructor
    · rintro ⟨hnames, hkept⟩
      have hlength : cpus.length ≤ 128 := length_le_of_map_take_eq hnames
      have htake : cpus.take statCount = cpus := List.take_of_length_le hlength
      have hlisted : listed cpus = cpus := List.take_of_length_le (hlength.trans (by decide))
      refine .inr ⟨hprimed, hlength, fun kcs hkcs cpu hcpu => ?_⟩
      obtain ⟨kcs', kept, hkcs', hmap, -, hholds⟩ := hkept cpu (by rwa [hlisted])
      obtain rfl : kcs = kcs' := Option.some.inj (hkcs.symm.trans hkcs')
      rw [map_of_mem hcpus hkcs (by rwa [htake])] at hmap
      obtain rfl := Option.some.inj hmap
      exact holds_cached_iff.1 hholds
    · rintro (rfl | ⟨-, hlength, hfits⟩)
      · exact ⟨rfl, nofun⟩
      · have htake : cpus.take statCount = cpus := List.take_of_length_le hlength
        have hlisted : listed cpus = cpus := List.take_of_length_le (hlength.trans (by decide))
        rw [hlisted, htake]
        refine ⟨rfl, fun cpu hcpu => ⟨kcs, _, hkcs, map_of_mem hcpus hkcs (by rwa [htake]), rfl,
          holds_cached_iff.2 (hfits kcs hkcs cpu hcpu)⟩⟩
  · rw [ReadsBack, names_of_not_primed hcpus hprimed]
    constructor
    · rintro ⟨hnames, -⟩
      refine .inl ?_
      simpa [listed, maxCpus] using hnames.symm
    · rintro (rfl | ⟨hprimed', -⟩)
      · exact ⟨rfl, nofun⟩
      · exact absurd hprimed' hprimed

theorem cpu_table_read_back_two :
    ReadsBack kernel1000 [0, 1] [.update fun _ => {}, .read, .update fun _ => idleFor 5000] := by
  refine (cpu_table_read_back_iff kernel1000 (by decide) _).2
    (.inr ⟨⟨_, [], _, rfl, by simp⟩, by decide, ?_⟩)
  have hfits : FitsFloat (cpuTimes kernel1000 (idleFor 5000)) := by
    constructor <;> exact ⟨_, 0, by decide, (mul_one _).symm⟩
  rintro kcs hkcs cpu -
  obtain rfl := Option.some.inj hkcs
  exact hfits

/-- A machine with 129 CPUs. -/
def manyCpus : List Cpu := (List.finRange 129).map (Fin.castLE (by decide))

theorem nodup_manyCpus : manyCpus.Nodup :=
  (List.nodup_finRange 129).map (Fin.castLE_injective _)

theorem length_manyCpus : manyCpus.length = 129 := by
  rw [manyCpus, List.length_map, List.length_finRange]

/-- The last of 129 CPUs is never seen. -/
theorem cpu_table_not_read_back :
    ¬ ∀ (K : Kernel) (cpus : List Cpu), cpus.Nodup → ∀ es : List Event, .read ∈ es →
      ReadsBack K cpus es := by
  intro hclaim
  have hback := hclaim kernel1000 manyCpus nodup_manyCpus [.update fun _ => {}, .read] (by simp)
  have hprimed : Primed [.update fun _ => {}, .read] := ⟨_, [], _, rfl, by simp⟩
  have hlength := length_le_of_map_take_eq
    ((names_of_primed nodup_manyCpus hprimed).symm.trans hback.1)
  rw [length_manyCpus] at hlength
  exact absurd hlength (by decide)

end CpuStatMonitor

end MonitorSystem
