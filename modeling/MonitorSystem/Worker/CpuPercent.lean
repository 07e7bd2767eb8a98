import MonitorSystem.Library.LastSeen
import MonitorSystem.Worker.CpuStatMonitor

/-!
# The percentages of `CpuStatMonitor`

Over a sequence of calls, each message compares what a call reads of a CPU with what the last call
before it has read of the same CPU (`mem_messagesAt`).  In exact arithmetic the percentages are
shares of the growth of the total time between the two.

Nothing in the code looks at this growth before it divides by it; `cpu_no_zero_division_iff` says
for which readings it is never zero.
-/

namespace MonitorSystem

namespace CpuStatCollector

/-- `total_time`: the sum of eight of the times; guests run within the others. -/
def CpuTimes.total (times : CpuTimes) : ℕ :=
  times.user.toNat + times.system.toNat + times.idle.toNat + times.nice.toNat +
    times.iowait.toNat + times.irq.toNat + times.softirq.toNat + times.steal.toNat

/-- `busy_time`: the total without the idle time and the time of waiting. -/
def CpuTimes.busy (times : CpuTimes) : ℕ :=
  times.user.toNat + times.system.toNat + times.nice.toNat + times.irq.toNat +
    times.softirq.toNat + times.steal.toNat

end CpuStatCollector

namespace CpuStatMonitor

open CxxFloat (toFloat lit)
open CpuStatCollector
open LastSeen (Previous Tracks)
open SinglePrecision (Single)

/-! ### Calls -/

/-- A table in which no CPU has two entries. -/
structure Snapshot where
  table : Table
  nodup : (table.entries.map Prod.fst).Nodup

/-- What a call reads; nothing when the device cannot be opened or mapped. -/
def entriesRead (mapped : Option Snapshot) : List (String × CpuTimes) :=
  match mapped with
  | none => []
  | some snapshot => readEntries snapshot.table

section Calls

variable (F : Type) [CxxFloat F] (calls : ℕ → Option Snapshot)

/-- `cpu_stat_map_` before call `n`. -/
def mapAt : ℕ → CpuStatMap F
  | 0 => fun _ => none
  | n + 1 => (updateOnce ((calls n).map Snapshot.table) (mapAt n)).2

/-- The messages of call `n`. -/
def messagesAt (n : ℕ) : List (CpuStat F) :=
  (updateOnce ((calls n).map Snapshot.table) (mapAt F calls n)).1

/-- What the calls read. -/
def readings (n : ℕ) : List (String × CpuTimes) := entriesRead (calls n)

theorem messagesAt_eq (n : ℕ) : messagesAt F calls n =
    (readings calls n).filterMap fun e => (mapAt F calls n e.1).map (cpuStatMsg e.1 e.2) := by
  unfold messagesAt readings
  cases calls n with
  | none => rfl
  | some snapshot => exact updateOnce_messages snapshot.nodup _

/-- The map follows the readings. -/
theorem tracks_mapAt : Tracks (readings calls) (fun _ => cached) (mapAt F calls) where
  start _ := rfl
  seen n name stats hmem := by
    rw [readings] at hmem
    rw [mapAt]
    cases hcall : calls n with
    | none =>
      rw [hcall] at hmem
      cases hmem
    | some snapshot =>
      rw [hcall] at hmem
      exact updateOnce_map_of_mem snapshot.nodup _ hmem
  unseen n name hmem := by
    rw [readings] at hmem
    rw [mapAt]
    cases hcall : calls n with
    | none => rfl
    | some snapshot =>
      rw [hcall] at hmem
      exact updateOnce_map_of_notMem _ hmem

variable {F calls}

/-- Each message compares an entry with the last reading of its CPU. -/
theorem mem_messagesAt {n : ℕ} {m : CpuStat F} (hm : m ∈ messagesAt F calls n) :
    ∃ i old new, Previous (readings calls) n m.cpuName i old ∧
      (m.cpuName, new) ∈ readings calls n ∧
      m = cpuStatMsg m.cpuName new (cached m.cpuName old) := by
  rw [messagesAt_eq, List.mem_filterMap] at hm
  obtain ⟨⟨name, new⟩, hmem, hsome⟩ := hm
  obtain ⟨kept, hkept, rfl⟩ := Option.map_eq_some_iff.1 hsome
  obtain ⟨i, old, hprev, rfl⟩ := (tracks_mapAt F calls).exists_previous hkept
  exact ⟨i, old, new, hprev, hmem, rfl⟩

end Calls

/-- No time of a CPU decreases up to call `n`. -/
def NonDecreasing (calls : ℕ → Option Snapshot) (n : ℕ) : Prop :=
  ∀ i j, i < j → j ≤ n → ∀ name old new, (name, old) ∈ readings calls i →
    (name, new) ∈ readings calls j → old.Le new

/-! ### The percentages in exact arithmetic -/

/-- The share in percent of a part of the time between two readings. -/
def percentOf (part : CpuTimes → ℕ) (old new : CpuTimes) : ℚ :=
  ((part new : ℚ) - part old) / ((new.total : ℚ) - old.total) * 100

/-- The message for the time between two readings. -/
def measured (name : String) (old new : CpuTimes) : CpuStat ℚ where
  cpuName := name
  cpuPercent := percentOf CpuTimes.busy old new
  usrPercent := percentOf (·.user.toNat) old new
  systemPercent := percentOf (·.system.toNat) old new
  nicePercent := percentOf (·.nice.toNat) old new
  idlePercent := percentOf (·.idle.toNat) old new
  ioWaitPercent := percentOf (·.iowait.toNat) old new
  irqPercent := percentOf (·.irq.toNat) old new
  softIrqPercent := percentOf (·.softirq.toNat) old new

/-- The percentages of a message belong together. -/
structure Consistent (m : CpuStat ℚ) : Prop where
  cpuPercent : m.cpuPercent ∈ Set.Icc 0 100
  usrPercent : m.usrPercent ∈ Set.Icc 0 100
  systemPercent : m.systemPercent ∈ Set.Icc 0 100
  nicePercent : m.nicePercent ∈ Set.Icc 0 100
  idlePercent : m.idlePercent ∈ Set.Icc 0 100
  ioWaitPercent : m.ioWaitPercent ∈ Set.Icc 0 100
  irqPercent : m.irqPercent ∈ Set.Icc 0 100
  softIrqPercent : m.softIrqPercent ∈ Set.Icc 0 100
  whole : m.cpuPercent + m.idlePercent + m.ioWaitPercent = 100
  parts : m.usrPercent + m.systemPercent + m.nicePercent + m.irqPercent + m.softIrqPercent ≤
    m.cpuPercent

theorem toNat_total (stats : CpuTimes) :
    (stats.user + stats.system + stats.idle + stats.nice + stats.iowait + stats.irq +
      stats.softirq + stats.steal).toNat = stats.total % 2 ^ 64 := by
  simp only [UInt64.toNat_add, CpuTimes.total, Nat.mod_add_mod]

theorem toNat_busy (stats : CpuTimes) :
    (stats.user + stats.system + stats.nice + stats.irq + stats.softirq + stats.steal).toNat =
      stats.busy % 2 ^ 64 := by
  simp only [UInt64.toNat_add, CpuTimes.busy, Nat.mod_add_mod]

theorem busy_add_eq_total (stats : CpuTimes) :
    stats.busy + stats.idle.toNat + stats.iowait.toNat = stats.total := by
  simp only [CpuTimes.busy, CpuTimes.total]
  omega

/-- The message of the code, as long as the new total does not wrap around. -/
theorem cpuStatMsg_cached (name : String) {old new : CpuTimes} (hnew : new.total < 2 ^ 64) :
    cpuStatMsg name new (cached name old) = measured name old new := by
  have hbusy : new.busy < 2 ^ 64 := by
    have := busy_add_eq_total new
    omega
  have htotal := toNat_total new
  have hbusy' := toNat_busy new
  rw [Nat.mod_eq_of_lt hnew] at htotal
  rw [Nat.mod_eq_of_lt hbusy] at hbusy'
  simp [cpuStatMsg, cached, float, floatSum, measured, percentOf, lit, htotal, hbusy',
    CpuTimes.total, CpuTimes.busy]

section Measured

variable {old new : CpuTimes}

/-- A part of the time grows by no more than the whole. -/
theorem percentOf_mem {part : CpuTimes → ℕ} (hle : part old ≤ part new)
    (hshare : part new + old.total ≤ part old + new.total) (hgrew : old.total < new.total) :
    percentOf part old new ∈ Set.Icc 0 100 := by
  have hpos : (0 : ℚ) < (new.total : ℚ) - old.total := sub_pos.2 (by exact_mod_cast hgrew)
  have hnonneg : (0 : ℚ) ≤ (part new : ℚ) - part old := sub_nonneg.2 (by exact_mod_cast hle)
  have hshare' : (part new : ℚ) + old.total ≤ part old + new.total := by exact_mod_cast hshare
  have hone : ((part new : ℚ) - part old) / ((new.total : ℚ) - old.total) ≤ 1 :=
    (div_le_one hpos).2 (by linarith)
  have hzero := div_nonneg hnonneg hpos.le
  rw [percentOf]
  constructor <;> linarith

theorem total_ne (hgrew : old.total < new.total) : (new.total : ℚ) - old.total ≠ 0 :=
  sub_ne_zero.2 (by exact_mod_cast hgrew.ne')

/-- Busy time, idle time and the time of waiting are all the time. -/
theorem percentOf_busy_add (hgrew : old.total < new.total) :
    percentOf CpuTimes.busy old new + percentOf (·.idle.toNat) old new +
      percentOf (·.iowait.toNat) old new = 100 := by
  have hold : (old.total : ℚ) = old.busy + old.idle.toNat + old.iowait.toNat := by
    exact_mod_cast (busy_add_eq_total old).symm
  have hnew : (new.total : ℚ) = new.busy + new.idle.toNat + new.iowait.toNat := by
    exact_mod_cast (busy_add_eq_total new).symm
  have hne := total_ne hgrew
  simp only [percentOf]
  rw [← add_mul, ← add_mul, ← add_div, ← add_div]
  have hsum : ((new.busy : ℚ) - old.busy) + ((new.idle.toNat : ℚ) - old.idle.toNat) +
      ((new.iowait.toNat : ℚ) - old.iowait.toNat) = new.total - old.total := by
    rw [hold, hnew]
    ring
  rw [hsum, div_self hne, one_mul]

/-- The busy time has one more part, which is not reported. -/
theorem percentOf_busy_eq (old new : CpuTimes) : percentOf CpuTimes.busy old new =
    percentOf (·.user.toNat) old new + percentOf (·.system.toNat) old new +
      percentOf (·.nice.toNat) old new + percentOf (·.irq.toNat) old new +
      percentOf (·.softirq.toNat) old new + percentOf (·.steal.toNat) old new := by
  simp only [percentOf, CpuTimes.busy]
  push_cast
  ring

theorem consistent_measured (name : String) (hle : old.Le new) (hgrew : old.total < new.total) :
    Consistent (measured name old new) := by
  have huser := UInt64.le_iff_toNat_le.1 hle.user
  have hnice := UInt64.le_iff_toNat_le.1 hle.nice
  have hsystem := UInt64.le_iff_toNat_le.1 hle.system
  have hidle := UInt64.le_iff_toNat_le.1 hle.idle
  have hiowait := UInt64.le_iff_toNat_le.1 hle.iowait
  have hirq := UInt64.le_iff_toNat_le.1 hle.irq
  have hsoftirq := UInt64.le_iff_toNat_le.1 hle.softirq
  have hsteal := UInt64.le_iff_toNat_le.1 hle.steal
  have hbusy : old.busy ≤ new.busy := by
    simp only [CpuTimes.busy]
    omega
  have hsteal' : percentOf (·.steal.toNat) old new ∈ Set.Icc 0 100 :=
    percentOf_mem hsteal (by simp only [CpuTimes.total]; omega) hgrew
  constructor
  case whole => exact percentOf_busy_add hgrew
  case parts =>
    have hbusy := percentOf_busy_eq old new
    simp only [measured]
    linarith [hsteal'.1]
  all_goals
    refine percentOf_mem (by assumption) ?_ hgrew
    simp only [CpuTimes.busy, CpuTimes.total]
    omega

end Measured

/-- **The percentages are consistent.**  For every sequence of calls in which the times of no CPU
decrease: each message compares a CPU with its last reading before the call, and when the total
time has grown in between, all percentages lie between 0 and 100, those of the busy, idle and
waiting time make up 100, and the reported parts of the busy time do not exceed it.  A CPU that no
earlier call has read has no message. -/
theorem cpu_percentages_consistent (calls : ℕ → Option Snapshot) (n : ℕ)
    (hmono : NonDecreasing calls n) (hsum : ∀ e ∈ readings calls n, e.2.total < 2 ^ 64) :
    (∀ m ∈ messagesAt ℚ calls n, ∃ i old new, Previous (readings calls) n m.cpuName i old ∧
      (m.cpuName, new) ∈ readings calls n ∧ m = measured m.cpuName old new ∧
      (old.total < new.total → Consistent m)) ∧
    ∀ name, (∀ i < n, name ∉ (readings calls i).map Prod.fst) →
      ∀ m ∈ messagesAt ℚ calls n, m.cpuName ≠ name := by
  constructor
  · intro m hm
    obtain ⟨i, old, new, hprev, hmem, heq⟩ := mem_messagesAt hm
    rw [cpuStatMsg_cached _ (hsum _ hmem)] at heq
    refine ⟨i, old, new, hprev, hmem, heq, fun hgrew => ?_⟩
    rw [heq]
    exact consistent_measured _ (hmono i n hprev.lt le_rfl _ _ _ hprev.mem hmem) hgrew
  · rintro name hunseen m hm rfl
    obtain ⟨i, old, -, hprev, -⟩ := mem_messagesAt hm
    exact hunseen i hprev.lt (List.mem_map_of_mem hprev.mem)

/-- What a call finds after a pass of the module. -/
def Snapshot.ofPass (cpus : List Cpu) (hcpus : cpus.Nodup) (kcs : Cpu → KernelCpustat) :
    Snapshot where
  table := updateCpuStats kernel1000 cpus kcs (.zero {})
  nodup := KernelTable.nodup_entries_refill hcpus _ _

/-- The times of one CPU are read. -/
theorem entriesRead_ofPass (kcs : Cpu → KernelCpustat) :
    entriesRead (some (.ofPass [bootCpu] (List.nodup_singleton _) kcs)) =
      [(cpuName bootCpu, cpuTimes kernel1000 (kcs 0))] := by
  have hentries := KernelTable.entries_refill (fun cpu => cpuTimes kernel1000 (kcs cpu)) [bootCpu]
    (.zero {})
  exact congrArg (List.take statCount) hentries

/-- One CPU that is idle for `k` seconds before call `k`. -/
def idling (k : ℕ) : Option Snapshot :=
  some (.ofPass [bootCpu] (List.nodup_singleton _) fun _ => idleFor (UInt64.ofNat (k * 1000000)))

theorem readings_idling (k : ℕ) : readings idling k =
    [(cpuName bootCpu, cpuTimes kernel1000 (idleFor (UInt64.ofNat (k * 1000000))))] :=
  entriesRead_ofPass _

theorem cpu_percentages_idling :
    messagesAt ℚ idling 1 ≠ [] ∧ ∀ m ∈ messagesAt ℚ idling 1, Consistent m := by
  have hmem : (cpuName bootCpu, cpuTimes kernel1000 (idleFor (UInt64.ofNat (0 * 1000000)))) ∈
      readings idling 0 := by
    rw [readings_idling]
    exact List.mem_singleton_self _
  have hkept := (tracks_mapAt ℚ idling).eq_some (Previous.of_mem hmem)
  constructor
  · rw [messagesAt_eq, readings_idling, List.filterMap_cons_some (by rw [hkept]; rfl)]
    exact List.cons_ne_nil _ _
  · intro m hm
    have hmono : NonDecreasing idling 1 := by
      intro i j hij hj name old new hold hnew
      obtain ⟨rfl, rfl⟩ : i = 0 ∧ j = 1 := by omega
      rw [readings_idling, List.mem_singleton] at hold hnew
      obtain ⟨-, rfl⟩ := Prod.mk.inj hold
      obtain ⟨-, rfl⟩ := Prod.mk.inj hnew
      constructor <;> decide +kernel
    have hsum : ∀ e ∈ readings idling 1, e.2.total < 2 ^ 64 := by
      rw [readings_idling]
      decide +kernel
    obtain ⟨i, old, new, hprev, hmem, -, hconsistent⟩ :=
      (cpu_percentages_consistent idling 1 hmono hsum).1 m hm
    obtain rfl : i = 0 := Nat.lt_one_iff.1 hprev.lt
    have hold := hprev.mem
    rw [readings_idling, List.mem_singleton] at hold hmem
    obtain ⟨-, rfl⟩ := Prod.mk.inj hold
    obtain ⟨-, rfl⟩ := Prod.mk.inj hmem
    exact hconsistent (by decide +kernel)

/-! ### The divisor -/

section Divisor

variable {F : Type} [CxxFloat F]

variable (F) in
/-- `new_cpu_total_time`. -/
def newCpuTotalTime (stats : CpuTimes) : F :=
  float (stats.user + stats.system + stats.idle + stats.nice + stats.iowait + stats.irq +
    stats.softirq + stats.steal)

/-- `old_cpu_total_time`. -/
def oldCpuTotalTime (old : CachedCpuStat F) : F :=
  floatSum old.user [old.system, old.idle, old.nice, old.ioWait, old.irq, old.softIrq, old.steal]

/-- `new_cpu_total_time - old_cpu_total_time`. -/
def totalTimeDiff (stats : CpuTimes) (old : CachedCpuStat F) : F :=
  toFloat (newCpuTotalTime F stats - oldCpuTotalTime old)

/-- A percentage. -/
def percent (divisor newTime oldTime : F) : F :=
  toFloat (toFloat (toFloat (newTime - oldTime) / divisor) * lit 100 1)

/-- All percentages of a message are divided by the growth of the total time. -/
theorem cpuStatMsg_eq_percent (name : String) (stats : CpuTimes) (old : CachedCpuStat F) :
    let percent := percent (totalTimeDiff stats old)
    cpuStatMsg name stats old =
      { cpuName := name
        cpuPercent := percent
          (float (stats.user + stats.system + stats.nice + stats.irq + stats.softirq +
            stats.steal))
          (floatSum old.user [old.system, old.nice, old.irq, old.softIrq, old.steal])
        usrPercent := percent (float stats.user) old.user
        systemPercent := percent (float stats.system) old.system
        nicePercent := percent (float stats.nice) old.nice
        idlePercent := percent (float stats.idle) old.idle
        ioWaitPercent := percent (float stats.iowait) old.ioWait
        irqPercent := percent (float stats.irq) old.irq
        softIrqPercent := percent (float stats.softirq) old.softIrq } := rfl

variable (F) in
/-- The total time as the sum of eight `float` values. -/
def floatTotal (times : CpuTimes) : F :=
  floatSum (float times.user) [float times.system, float times.idle, float times.nice,
    float times.iowait, float times.irq, float times.softirq, float times.steal]

variable (F) (calls : ℕ → Option Snapshot) (n : ℕ)

/-- No message of the first `n` calls is computed with a difference of zero. -/
def NeverDividesByZero : Prop :=
  ∀ i < n, ∀ name stats old, (name, stats) ∈ readings calls i →
    mapAt F calls i name = some old → totalTimeDiff stats old ≠ 0

/-- `P` holds of each reading of a CPU in the first `n` calls and the last one before it. -/
def Rereads (P : CpuTimes → CpuTimes → Prop) : Prop :=
  ∀ i < n, ∀ name j old new, Previous (readings calls) i name j old →
    (name, new) ∈ readings calls i → P old new

variable {F calls n}

theorem neverDividesByZero_iff (hsub : ∀ x y : F, toFloat (x - y) = 0 ↔ x = y) :
    NeverDividesByZero F calls n ↔
      Rereads calls n fun old new => newCpuTotalTime F new ≠ floatTotal F old := by
  have hdiff (name : String) (old new : CpuTimes) :
      totalTimeDiff new (cached name old : CachedCpuStat F) ≠ 0 ↔
        newCpuTotalTime F new ≠ floatTotal F old := not_congr (hsub _ _)
  constructor
  · intro hnever i hi name j old new hprev hmem
    have hkept := (tracks_mapAt F calls).eq_some hprev
    exact (hdiff name old new).1 (hnever i hi name new _ hmem hkept)
  · intro hrereads i hi name new kept hmem hkept
    obtain ⟨j, old, hprev, rfl⟩ := (tracks_mapAt F calls).exists_previous hkept
    exact (hdiff name old new).2 (hrereads i hi name j old new hprev hmem)

theorem Rereads.congr {P Q : CpuTimes → CpuTimes → Prop}
    (h : ∀ i < n, ∀ name j old new, Previous (readings calls) i name j old →
      (name, new) ∈ readings calls i → (P old new ↔ Q old new)) :
    Rereads calls n P ↔ Rereads calls n Q := by
  constructor
  · exact fun hP i hi name j old new hprev hmem =>
      (h i hi name j old new hprev hmem).1 (hP i hi name j old new hprev hmem)
  · exact fun hQ i hi name j old new hprev hmem =>
      (h i hi name j old new hprev hmem).2 (hQ i hi name j old new hprev hmem)

end Divisor

/-- One of the eight times has grown. -/
def Grew (old new : CpuTimes) : Prop :=
  old.user < new.user ∨ old.nice < new.nice ∨ old.system < new.system ∨ old.idle < new.idle ∨
    old.iowait < new.iowait ∨ old.irq < new.irq ∨ old.softirq < new.softirq ∨
    old.steal < new.steal

theorem newCpuTotalTime_rat (stats : CpuTimes) :
    newCpuTotalTime ℚ stats = (stats.total % 2 ^ 64 : ℕ) := by
  rw [newCpuTotalTime, float, toNat_total]
  rfl

theorem floatTotal_rat (times : CpuTimes) : floatTotal ℚ times = times.total := by
  simp [floatTotal, floatSum, float, CpuTimes.total]

/-- When no time decreases and the total does not wrap around, it differs as soon as one of the
times has grown. -/
theorem total_ne_iff_grew {old new : CpuTimes} (hle : old.Le new) (hnew : new.total < 2 ^ 64) :
    new.total % 2 ^ 64 ≠ old.total ↔ Grew old new := by
  have huser := UInt64.le_iff_toNat_le.1 hle.user
  have hnice := UInt64.le_iff_toNat_le.1 hle.nice
  have hsystem := UInt64.le_iff_toNat_le.1 hle.system
  have hidle := UInt64.le_iff_toNat_le.1 hle.idle
  have hiowait := UInt64.le_iff_toNat_le.1 hle.iowait
  have hirq := UInt64.le_iff_toNat_le.1 hle.irq
  have hsoftirq := UInt64.le_iff_toNat_le.1 hle.softirq
  have hsteal := UInt64.le_iff_toNat_le.1 hle.steal
  rw [Nat.mod_eq_of_lt hnew]
  simp only [Grew, UInt64.lt_iff_toNat_lt, CpuTimes.total]
  omega

/-- **Division by zero.**  For every sequence of calls, in exact arithmetic no percentage is
computed with a difference of zero if and only if, whenever a CPU is read again, its total time,
modulo `2 ^ 64`, is not the one of its last reading; for times that do not decrease, with totals
below `2 ^ 64`, this says that one of the eight times has grown.  When `float` values are rounded,
the total rounded as a whole must differ from the sum of the rounded times of the last reading. -/
theorem cpu_no_zero_division_iff (calls : ℕ → Option Snapshot) (n : ℕ) :
    (NeverDividesByZero ℚ calls n ↔
      Rereads calls n fun old new => new.total % 2 ^ 64 ≠ old.total) ∧
    (NonDecreasing calls n → (∀ i < n, ∀ e ∈ readings calls i, e.2.total < 2 ^ 64) →
      (NeverDividesByZero ℚ calls n ↔ Rereads calls n Grew)) ∧
    (NeverDividesByZero Single calls n ↔
      Rereads calls n fun old new => newCpuTotalTime Single new ≠ floatTotal Single old) := by
  have hexact : NeverDividesByZero ℚ calls n ↔
      Rereads calls n fun old new => new.total % 2 ^ 64 ≠ old.total := by
    have hsub : ∀ x y : ℚ, toFloat (x - y) = 0 ↔ x = y := fun x y => sub_eq_zero
    simp only [neverDividesByZero_iff hsub, newCpuTotalTime_rat, floatTotal_rat, ne_eq,
      Nat.cast_inj]
  refine ⟨hexact, fun hmono hsum => ?_, neverDividesByZero_iff Single.toFloat_sub_eq_zero_iff⟩
  rw [hexact]
  refine Rereads.congr fun i hi name j old new hprev hmem => ?_
  have hle : old.Le new := hmono j i hprev.lt hi.le name old new hprev.mem hmem
  exact total_ne_iff_grew hle (hsum i hi (name, new) hmem)

/-- Two calls within a second, which find the same table. -/
def twice (_ : ℕ) : Option Snapshot :=
  some (.ofPass [bootCpu] (List.nodup_singleton _) fun _ => idleFor 1000000)

theorem cpu_division_by_zero_twice :
    ¬ ∀ (calls : ℕ → Option Snapshot) (n : ℕ), NonDecreasing calls n →
      NeverDividesByZero ℚ calls n := by
  intro hclaim
  have hread (k : ℕ) : readings twice k =
      [(cpuName bootCpu, cpuTimes kernel1000 (idleFor 1000000))] :=
    entriesRead_ofPass _
  have hmono : NonDecreasing twice 2 := by
    intro i j _ _ name old new hold hnew
    rw [hread, List.mem_singleton] at hold hnew
    obtain ⟨-, rfl⟩ := Prod.mk.inj hold
    obtain ⟨-, rfl⟩ := Prod.mk.inj hnew
    constructor <;> exact UInt64.le_refl _
  have hmem (k : ℕ) :
      (cpuName bootCpu, cpuTimes kernel1000 (idleFor 1000000)) ∈ readings twice k := by
    rw [hread]
    exact List.mem_singleton_self _
  have hkept := (tracks_mapAt ℚ twice).eq_some (Previous.of_mem (hmem 0))
  have hzero : totalTimeDiff (cpuTimes kernel1000 (idleFor 1000000))
      (cached (cpuName bootCpu) (cpuTimes kernel1000 (idleFor 1000000)) : CachedCpuStat ℚ) = 0 := by
    have hsmall : (cpuTimes kernel1000 (idleFor 1000000)).total < 2 ^ 64 := by decide +kernel
    show newCpuTotalTime ℚ _ - floatTotal ℚ _ = 0
    rw [newCpuTotalTime_rat, floatTotal_rat, Nat.mod_eq_of_lt hsmall, sub_self]
  exact hclaim twice 2 hmono 1 (by decide) _ _ _ (hmem 1) hkept hzero

end CpuStatMonitor

end MonitorSystem
