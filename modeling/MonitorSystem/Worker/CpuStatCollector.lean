import Mathlib.Algebra.Order.Floor.Div
import MonitorSystem.Worker.KernelTables

/-!
# The kernel module for the CPU times

`update_cpu_stats` writes ten times of each CPU, in jiffies, into the shared table.  Eight of them
are converted from nanoseconds of 64 bits.  The idle and iowait times come in microseconds, and
`usecs_to_jiffies` takes an `unsigned int`: the conversion drops the upper 32 bits, that is, it
starts again from zero every 2^32 microseconds.  `cpu_times_monotone_iff` says which runs are
spared.
-/

namespace MonitorSystem

namespace CpuStatCollector

/-! ### The program -/

/-- What the module takes from the kernel: the timer frequency, and `usecs_to_jiffies`, which rounds
up. -/
structure Kernel where
  hz : ℕ
  hz_pos : 0 < hz
  hz_dvd : hz ∣ 1000000
  usecsToJiffies : UInt32 → UInt64
  usecsToJiffies_eq : ∀ u, (usecsToJiffies u).toNat = u.toNat ⌈/⌉ (1000000 / hz)

/-- What the kernel knows of the times of a CPU: `kcpustat_cpu(cpu).cpustat` in nanoseconds, and the
results of `get_cpu_idle_time_us` and `get_cpu_iowait_time_us`. -/
structure KernelCpustat where
  user : UInt64 := 0
  nice : UInt64 := 0
  system : UInt64 := 0
  softirq : UInt64 := 0
  irq : UInt64 := 0
  idle : UInt64 := 0
  iowait : UInt64 := 0
  steal : UInt64 := 0
  guest : UInt64 := 0
  guestNice : UInt64 := 0
  idleTimeUs : UInt64 := 0
  iowaitTimeUs : UInt64 := 0

/-- The times in a `struct cpu_stat`, behind its name. -/
structure CpuTimes where
  user : UInt64 := 0
  nice : UInt64 := 0
  system : UInt64 := 0
  idle : UInt64 := 0
  iowait : UInt64 := 0
  irq : UInt64 := 0
  softirq : UInt64 := 0
  steal : UInt64 := 0
  guest : UInt64 := 0
  guestNice : UInt64 := 0

variable (K : Kernel)

/-- `nsec_to_jiffies`. -/
def nsecToJiffies (nsec : UInt64) : UInt64 := nsec / UInt64.ofNat (1000000000 / K.hz)

/-- `cpu_stat_get_idle_time`; the argument of `usecs_to_jiffies` is cut to 32 bits. -/
def cpuStatGetIdleTime (kcs : KernelCpustat) : UInt64 :=
  if kcs.idleTimeUs = -1 then nsecToJiffies K kcs.idle
  else K.usecsToJiffies kcs.idleTimeUs.toUInt32

/-- `cpu_stat_get_iowait_time`. -/
def cpuStatGetIowaitTime (kcs : KernelCpustat) : UInt64 :=
  if kcs.iowaitTimeUs = -1 then nsecToJiffies K kcs.iowait
  else K.usecsToJiffies kcs.iowaitTimeUs.toUInt32

/-- What `update_cpu_stats` writes for a CPU. -/
def cpuTimes (kcs : KernelCpustat) : CpuTimes where
  user := nsecToJiffies K kcs.user
  nice := nsecToJiffies K kcs.nice
  system := nsecToJiffies K kcs.system
  idle := cpuStatGetIdleTime K kcs
  iowait := cpuStatGetIowaitTime K kcs
  irq := nsecToJiffies K kcs.irq
  softirq := nsecToJiffies K kcs.softirq
  steal := nsecToJiffies K kcs.steal
  guest := nsecToJiffies K kcs.guest
  guestNice := nsecToJiffies K kcs.guestNice

/-- `cpu_stat_data`. -/
abbrev Table := KernelTable CpuTimes

/-- `update_cpu_stats`, with the possible CPUs and what the kernel knows of them. -/
def updateCpuStats (cpus : List Cpu) (kcs : Cpu → KernelCpustat) (table : Table) : Table :=
  table.refill (cpus.map fun cpu => (cpu, cpuTimes K (kcs cpu)))

theorem mem_entries_updateCpuStats {cpus : List Cpu} {kcs : Cpu → KernelCpustat} {table : Table}
    {name : String} {times : CpuTimes} :
    (name, times) ∈ (updateCpuStats K cpus kcs table).entries ↔
      ∃ cpu ∈ listed cpus, cpuName cpu = name ∧ cpuTimes K (kcs cpu) = times := by
  rw [updateCpuStats, KernelTable.entries_refill fun cpu => cpuTimes K (kcs cpu)]
  simp only [List.mem_map, Prod.mk.injEq]

/-! ### Times that never go backwards -/

/-- No counter of the kernel decreases. -/
structure KernelCpustat.Le (kcs kcs' : KernelCpustat) : Prop where
  user : kcs.user ≤ kcs'.user
  nice : kcs.nice ≤ kcs'.nice
  system : kcs.system ≤ kcs'.system
  softirq : kcs.softirq ≤ kcs'.softirq
  irq : kcs.irq ≤ kcs'.irq
  idle : kcs.idle ≤ kcs'.idle
  iowait : kcs.iowait ≤ kcs'.iowait
  steal : kcs.steal ≤ kcs'.steal
  guest : kcs.guest ≤ kcs'.guest
  guestNice : kcs.guestNice ≤ kcs'.guestNice
  idleTimeUs : kcs.idleTimeUs ≤ kcs'.idleTimeUs
  iowaitTimeUs : kcs.iowaitTimeUs ≤ kcs'.iowaitTimeUs

/-- No time of an entry decreases. -/
structure CpuTimes.Le (times times' : CpuTimes) : Prop where
  user : times.user ≤ times'.user
  nice : times.nice ≤ times'.nice
  system : times.system ≤ times'.system
  idle : times.idle ≤ times'.idle
  iowait : times.iowait ≤ times'.iowait
  irq : times.irq ≤ times'.irq
  softirq : times.softirq ≤ times'.softirq
  steal : times.steal ≤ times'.steal
  guest : times.guest ≤ times'.guest
  guestNice : times.guestNice ≤ times'.guestNice

/-- The entry of a CPU shows no smaller time in the second table than in the first. -/
def NeverBackwards (table table' : Table) : Prop :=
  ∀ name times times', (name, times) ∈ table.entries → (name, times') ∈ table'.entries →
    times.Le times'

/-- The tables after each of a sequence of calls. -/
def tables (cpus : List Cpu) : Table → List (Cpu → KernelCpustat) → List Table
  | _, [] => []
  | table, kcs :: rest =>
    let table' := updateCpuStats K cpus kcs table
    table' :: tables cpus table' rest

/-- The two totals in microseconds are given, and not the mark for their absence. -/
def KernelCpustat.Exact (kcs : KernelCpustat) : Prop := kcs.idleTimeUs ≠ -1 ∧ kcs.iowaitTimeUs ≠ -1

/-- Between two totals in microseconds the lower 32 bits fall back over the end of a jiffy. -/
def FallsBack (total total' : UInt64) : Prop :=
  ∃ jiffies : ℕ, total'.toNat % 2 ^ 32 ≤ 1000000 / K.hz * jiffies ∧
    1000000 / K.hz * jiffies < total.toNat % 2 ^ 32

variable {K}

theorem nsecToJiffies_mono {nsec nsec' : UInt64} (h : nsec ≤ nsec') :
    nsecToJiffies K nsec ≤ nsecToJiffies K nsec' := by
  rw [UInt64.le_iff_toNat_le] at h ⊢
  rw [nsecToJiffies, nsecToJiffies, UInt64.toNat_div, UInt64.toNat_div]
  exact Nat.div_le_div_right h

/-- What is cut to 32 bits before the conversion decreases exactly when it falls back over the end
of a jiffy. -/
theorem usecsToJiffies_le_iff {total total' : UInt64} :
    K.usecsToJiffies total.toUInt32 ≤ K.usecsToJiffies total'.toUInt32 ↔
      ¬ FallsBack K total total' := by
  have hjiffy : 0 < 1000000 / K.hz :=
    Nat.div_pos (Nat.le_of_dvd (by decide) K.hz_dvd) K.hz_pos
  rw [UInt64.le_iff_toNat_le, K.usecsToJiffies_eq, K.usecsToJiffies_eq, UInt64.toNat_toUInt32,
    UInt64.toNat_toUInt32, ceilDiv_le_iff_le_mul hjiffy]
  constructor
  · rintro hle ⟨jiffies, hlow, hhigh⟩
    have hceil := (ceilDiv_le_iff_le_mul hjiffy).2 hlow
    exact absurd (hle.trans (Nat.mul_le_mul_left _ hceil)) (not_le.2 hhigh)
  · intro hno
    by_contra hlt
    exact hno ⟨_, (ceilDiv_le_iff_le_mul hjiffy).1 le_rfl, not_le.1 hlt⟩

/-- The eight times in nanoseconds never go backwards, so that the two others decide. -/
theorem cpuTimes_le_iff {kcs kcs' : KernelCpustat} (hle : kcs.Le kcs') (h : kcs.Exact)
    (h' : kcs'.Exact) : (cpuTimes K kcs).Le (cpuTimes K kcs') ↔
      ¬ FallsBack K kcs.idleTimeUs kcs'.idleTimeUs ∧
        ¬ FallsBack K kcs.iowaitTimeUs kcs'.iowaitTimeUs := by
  have hidle : (cpuTimes K kcs).idle ≤ (cpuTimes K kcs').idle ↔
      ¬ FallsBack K kcs.idleTimeUs kcs'.idleTimeUs := by
    rw [cpuTimes, cpuTimes, cpuStatGetIdleTime, cpuStatGetIdleTime, if_neg h.1, if_neg h'.1]
    exact usecsToJiffies_le_iff
  have hiowait : (cpuTimes K kcs).iowait ≤ (cpuTimes K kcs').iowait ↔
      ¬ FallsBack K kcs.iowaitTimeUs kcs'.iowaitTimeUs := by
    rw [cpuTimes, cpuTimes, cpuStatGetIowaitTime, cpuStatGetIowaitTime, if_neg h.2, if_neg h'.2]
    exact usecsToJiffies_le_iff
  rw [← hidle, ← hiowait]
  constructor
  · exact fun hall => ⟨hall.idle, hall.iowait⟩
  · rintro ⟨hidle, hiowait⟩
    exact
      { user := nsecToJiffies_mono hle.user
        nice := nsecToJiffies_mono hle.nice
        system := nsecToJiffies_mono hle.system
        idle := hidle
        iowait := hiowait
        irq := nsecToJiffies_mono hle.irq
        softirq := nsecToJiffies_mono hle.softirq
        steal := nsecToJiffies_mono hle.steal
        guest := nsecToJiffies_mono hle.guest
        guestNice := nsecToJiffies_mono hle.guestNice }

/-- Two calls compare CPU by CPU. -/
theorem neverBackwards_iff {cpus : List Cpu} {kcs kcs' : Cpu → KernelCpustat}
    {table table' : Table} :
    NeverBackwards (updateCpuStats K cpus kcs table) (updateCpuStats K cpus kcs' table') ↔
      ∀ cpu ∈ listed cpus, (cpuTimes K (kcs cpu)).Le (cpuTimes K (kcs' cpu)) := by
  constructor
  · intro h cpu hcpu
    exact h (cpuName cpu) _ _ ((mem_entries_updateCpuStats K).2 ⟨cpu, hcpu, rfl, rfl⟩)
      ((mem_entries_updateCpuStats K).2 ⟨cpu, hcpu, rfl, rfl⟩)
  · intro h name times times' hmem hmem'
    obtain ⟨cpu, hcpu, rfl, rfl⟩ := (mem_entries_updateCpuStats K).1 hmem
    obtain ⟨cpu', -, hname, rfl⟩ := (mem_entries_updateCpuStats K).1 hmem'
    obtain rfl := cpuName_injective hname
    exact h cpu' hcpu

/-- A property of two successive tables that depends on the calls only holds along a run when it
holds of all successive calls. -/
theorem isChain_tables_iff {cpus : List Cpu} {P : Table → Table → Prop}
    {Q : (Cpu → KernelCpustat) → (Cpu → KernelCpustat) → Prop}
    (hPQ : ∀ kcs kcs' table table',
      P (updateCpuStats K cpus kcs table) (updateCpuStats K cpus kcs' table') ↔ Q kcs kcs')
    (calls : List (Cpu → KernelCpustat)) (table : Table) :
    (tables K cpus table calls).IsChain P ↔ calls.IsChain Q := by
  induction calls generalizing table with
  | nil => simp [tables]
  | cons kcs rest ih =>
    cases rest with
    | nil => simp [tables]
    | cons kcs' rest =>
      have htail := ih (updateCpuStats K cpus kcs table)
      rw [tables] at htail
      rw [tables, tables, List.isChain_cons_cons, List.isChain_cons_cons, hPQ, htail]

/-- **The exported CPU times.**  Over a run of calls in which no counter of the kernel decreases,
no field of an entry ever goes backwards if and only if no idle or iowait total of a listed CPU
falls back, in its lower 32 bits, over the end of a jiffy between two calls. -/
theorem cpu_times_monotone_iff (K : Kernel) (cpus : List Cpu) (table : Table)
    (calls : List (Cpu → KernelCpustat))
    (hmono : calls.IsChain fun kcs kcs' => ∀ cpu ∈ cpus, (kcs cpu).Le (kcs' cpu))
    (hexact : ∀ kcs ∈ calls, ∀ cpu ∈ cpus, (kcs cpu).Exact) :
    (tables K cpus table calls).IsChain NeverBackwards ↔
      calls.IsChain fun kcs kcs' => ∀ cpu ∈ listed cpus,
        ¬ FallsBack K (kcs cpu).idleTimeUs (kcs' cpu).idleTimeUs ∧
          ¬ FallsBack K (kcs cpu).iowaitTimeUs (kcs' cpu).iowaitTimeUs := by
  rw [isChain_tables_iff fun _ _ _ _ => neverBackwards_iff]
  rw [List.isChain_iff_getElem] at hmono
  rw [List.isChain_iff_getElem, List.isChain_iff_getElem]
  refine forall₂_congr fun i hi => forall₂_congr fun cpu hcpu => ?_
  have hmem : cpu ∈ cpus := List.mem_of_mem_take hcpu
  exact cpuTimes_le_iff (hmono i hi cpu hmem) (hexact _ (List.getElem_mem _) cpu hmem)
    (hexact _ (List.getElem_mem _) cpu hmem)

/-- The kernel with the timer frequency `hz`. -/
def Kernel.ofHz (hz : ℕ) (hz_pos : 0 < hz) (hz_dvd : hz ∣ 1000000) : Kernel where
  hz := hz
  hz_pos := hz_pos
  hz_dvd := hz_dvd
  usecsToJiffies u := UInt64.ofNat (u.toNat ⌈/⌉ (1000000 / hz))
  usecsToJiffies_eq u := by
    have hjiffy : 0 < 1000000 / hz := Nat.div_pos (Nat.le_of_dvd (by decide) hz_dvd) hz_pos
    have hle : u.toNat ⌈/⌉ (1000000 / hz) ≤ u.toNat :=
      (ceilDiv_le_iff_le_mul hjiffy).2 (Nat.le_mul_of_pos_left _ hjiffy)
    have hlt : u.toNat < 2 ^ 32 := u.toNat_lt
    exact UInt64.toNat_ofNat_of_lt' (by rw [UInt64.size]; omega)

/-- A timer frequency of 1000. -/
def kernel1000 : Kernel := .ofHz 1000 (by decide) (by decide)

/-- A CPU that has been idle for `us` microseconds. -/
def idleFor (us : UInt64) : KernelCpustat := { idleTimeUs := us }

theorem idleFor_le {us us' : UInt64} (h : us ≤ us') : (idleFor us).Le (idleFor us') := by
  constructor <;> first | exact h | exact UInt64.le_refl _

theorem idleFor_exact {us : UInt64} (h : us ≠ -1) : (idleFor us).Exact :=
  ⟨h, show (0 : UInt64) ≠ -1 by decide⟩

theorem cpu_times_monotone_second :
    (tables kernel1000 [0] (.zero {})
      [fun _ => idleFor 1000000, fun _ => idleFor 2000000]).IsChain NeverBackwards := by
  refine (cpu_times_monotone_iff kernel1000 [0] (.zero {}) _ ?_ ?_).2 ?_
  · exact List.isChain_pair.2 fun _ _ => idleFor_le (by decide)
  · rintro kcs hkcs cpu -
    rcases List.mem_pair.1 hkcs with rfl | rfl <;> exact idleFor_exact (by decide)
  · refine List.isChain_pair.2 fun cpu _ => ⟨?_, ?_⟩
    · rintro ⟨jiffies, hlow, hhigh⟩
      have hlow' : 2000000 % 2 ^ 32 ≤ 1000000 / 1000 * jiffies := hlow
      have hhigh' : 1000000 / 1000 * jiffies < 1000000 % 2 ^ 32 := hhigh
      omega
    · rintro ⟨jiffies, -, hhigh⟩
      exact absurd hhigh (Nat.not_lt_zero _)

/-- After 71.6 minutes the idle time of a CPU starts again from zero. -/
theorem cpu_times_go_backwards :
    ¬ ∀ (K : Kernel) (cpus : List Cpu) (table : Table) (calls : List (Cpu → KernelCpustat)),
      calls.IsChain (fun kcs kcs' => ∀ cpu ∈ cpus, (kcs cpu).Le (kcs' cpu)) →
      (∀ kcs ∈ calls, ∀ cpu ∈ cpus, (kcs cpu).Exact) →
      (tables K cpus table calls).IsChain NeverBackwards := by
  intro hclaim
  have hchain := hclaim kernel1000 [0] (.zero {})
    [fun _ => idleFor 4294967295, fun _ => idleFor 4294967296]
    (List.isChain_pair.2 fun _ _ => idleFor_le (by decide)) (by
      rintro kcs hkcs cpu -
      rcases List.mem_pair.1 hkcs with rfl | rfl <;> exact idleFor_exact (by decide))
  have hidle := (neverBackwards_iff.1 (List.isChain_pair.1 hchain) 0 (by decide)).idle
  revert hidle
  decide

end CpuStatCollector

end MonitorSystem
