import MonitorSystem.Library.CxxInt
import MonitorSystem.Worker.CpuSoftIrqMonitor

/-!
# Softirq rates over a roll of the counters

The kernel counts softirqs in 32 bits, the module passes the counters on in 64, and the collector
subtracts them in 64.  When a counter starts over between two calls, the difference is off by
`2 ^ 64 - 2 ^ 32`.
-/

namespace MonitorSystem

namespace CpuSoftIrqMonitor

open CxxInt
open SoftirqCollector

/-! ### The ten kinds -/

/-- A kind of softirq. -/
inductive Softirq
  | hi
  | timer
  | netTx
  | netRx
  | block
  | irqPoll
  | tasklet
  | sched
  | hrtimer
  | rcu
  deriving DecidableEq

/-- What `kstat_softirqs_cpu` shows of the true numbers of events: their low 32 bits. -/
def lowBits (count : Softirq → ℕ) : KstatSoftirqs where
  hi := UInt32.ofNat (count .hi)
  timer := UInt32.ofNat (count .timer)
  netTx := UInt32.ofNat (count .netTx)
  netRx := UInt32.ofNat (count .netRx)
  block := UInt32.ofNat (count .block)
  irqPoll := UInt32.ofNat (count .irqPoll)
  tasklet := UInt32.ofNat (count .tasklet)
  sched := UInt32.ofNat (count .sched)
  hrtimer := UInt32.ofNat (count .hrtimer)
  rcu := UInt32.ofNat (count .rcu)

/-- A counter in a row of the table. -/
def statOf (stats : SoftirqStat) : Softirq → UInt64
  | .hi => stats.hi
  | .timer => stats.timer
  | .netTx => stats.netTx
  | .netRx => stats.netRx
  | .block => stats.block
  | .irqPoll => stats.irqPoll
  | .tasklet => stats.tasklet
  | .sched => stats.sched
  | .hrtimer => stats.hrtimer
  | .rcu => stats.rcu

/-- A counter in a kept record. -/
def keptOf (old : CachedSoftIrq) : Softirq → Int64
  | .hi => old.hi
  | .timer => old.timer
  | .netTx => old.netTx
  | .netRx => old.netRx
  | .block => old.block
  | .irqPoll => old.irqPoll
  | .tasklet => old.tasklet
  | .sched => old.sched
  | .hrtimer => old.hrtimer
  | .rcu => old.rcu

/-- A value in a message. -/
def valueOf (m : SoftIrq ℚ) : Softirq → ℚ
  | .hi => m.hi
  | .timer => m.timer
  | .netTx => m.netTx
  | .netRx => m.netRx
  | .block => m.block
  | .irqPoll => m.irqPoll
  | .tasklet => m.tasklet
  | .sched => m.sched
  | .hrtimer => m.hrtimer
  | .rcu => m.rcu

theorem statOf_softirqStat (count : Softirq → ℕ) (kind : Softirq) :
    statOf (softirqStat (lowBits count)) kind = (UInt32.ofNat (count kind)).toUInt64 := by
  cases kind <;> rfl

theorem keptOf_cached (now : ℤ) (name : String) (stats : SoftirqStat) (kind : Softirq) :
    keptOf (cached now name stats) kind = (statOf stats kind).toInt64 := by
  cases kind <;> rfl

theorem valueOf_softirqMsg (now : ℤ) (name : String) (stats : SoftirqStat)
    (it : Option CachedSoftIrq) (kind : Softirq) :
    valueOf (softirqMsg now name stats it) kind =
      fieldValue now (statOf stats kind) (it.map fun old => (keptOf old kind, old.timepoint)) := by
  cases kind <;> rfl

/-! ### The quotient -/

/-- The `double` that is cast to `int64_t`. -/
def quotient (now : ℤ) (stat : UInt64) (old : Int64) (timepoint : ℤ) : ℚ :=
  (stat - old.toUInt64).toNat / seconds now timepoint

/-- The value of a field, once time has passed. -/
theorem fieldValue_some {now timepoint : ℤ} (h : 0 < seconds now timepoint) (stat : UInt64)
    (old : Int64) :
    fieldValue now stat (some (old, timepoint)) = truncate (quotient now stat old timepoint) :=
  if_pos h

/-- The difference of two counters: right unless the counter has started over in between. -/
theorem growth_eq {c₀ c₁ : ℕ} (hle : c₀ ≤ c₁) (hlt : c₁ - c₀ < 2 ^ 31) :
    ((UInt32.ofNat c₁).toUInt64 - (UInt32.ofNat c₀).toUInt64).toNat =
      if c₀ % 2 ^ 32 + (c₁ - c₀) < 2 ^ 32 then c₁ - c₀ else c₁ - c₀ + (2 ^ 64 - 2 ^ 32) := by
  rw [UInt64.toNat_sub, UInt32.toNat_toUInt64, UInt32.toNat_toUInt64, UInt32.toNat_ofNat',
    UInt32.toNat_ofNat']
  split_ifs with hroll <;> omega

/-- The quotient is cut downwards. -/
theorem truncate_div (growth ms : ℕ) :
    truncate ((growth : ℚ) / (ms / 1000)) = (growth * 1000 / ms : ℕ) := by
  have hquotient : ((growth : ℚ) / (ms / 1000)) = ((growth * 1000 : ℕ) : ℚ) / (ms : ℚ) := by
    push_cast
    rw [div_div_eq_mul_div]
  have hnonneg : 0 ≤ ((growth * 1000 : ℕ) : ℚ) / (ms : ℚ) := by positivity
  rw [hquotient, truncate, Int.tdiv_eq_ediv_of_nonneg (Rat.num_nonneg.2 hnonneg), ← Rat.floor_def',
    Rat.floor_natCast_div_natCast]
  rfl

/-! ### Two calls -/

/-- One kind of softirq on one CPU, over two successive calls that are at least a millisecond
apart.  The tables show the numbers `count₀` and `count₁`, and in between fewer than `2 ^ 31` events
have happened. -/
structure TwoReads where
  cpuSoftirqs : SoftIrqMap
  table₀ : Table
  table₁ : Table
  nodup₀ : (table₀.entries.map Prod.fst).Nodup
  nodup₁ : (table₁.entries.map Prod.fst).Nodup
  cpu : Cpu
  count₀ : Softirq → ℕ
  count₁ : Softirq → ℕ
  mem₀ : (cpuName cpu, softirqStat (lowBits count₀)) ∈ table₀.entries
  mem₁ : (cpuName cpu, softirqStat (lowBits count₁)) ∈ table₁.entries
  kind : Softirq
  le : count₀ kind ≤ count₁ kind
  lt : count₁ kind - count₀ kind < 2 ^ 31
  t₀ : SteadyTime
  t₁ : SteadyTime
  ms : ℕ
  wholeMs_eq : wholeMs t₁ t₀ = ms
  one_le_ms : 1 ≤ ms

namespace TwoReads

variable (calls : TwoReads)

/-- What the first call leaves. -/
def kept : SoftIrqMap := (updateOnce (some calls.table₀) (calls.t₀ : ℤ) calls.cpuSoftirqs).2

/-- What the second call adds. -/
def messages : List (SoftIrq ℚ) :=
  (updateOnce (some calls.table₁) (calls.t₁ : ℤ) calls.kept).1

/-- The number of events. -/
def growth : ℕ := calls.count₁ calls.kind - calls.count₀ calls.kind

/-- The second call has a message for the CPU, with the events for each second, and the quotient
that it casts is in the range of `int64_t`. -/
def Survives : Prop :=
  (∃ m ∈ calls.messages, m.cpu = cpuName calls.cpu) ∧
    (∀ m ∈ calls.messages, m.cpu = cpuName calls.cpu →
      valueOf m calls.kind = (calls.growth * 1000 / calls.ms : ℕ)) ∧
    ∀ stats old, (cpuName calls.cpu, stats) ∈ calls.table₁.entries →
      calls.kept (cpuName calls.cpu) = some old →
      InInt64 (truncate (quotient calls.t₁ (statOf stats calls.kind) (keptOf old calls.kind)
        old.timepoint))

theorem take_entries (table : Table) : table.entries.take mapCount = table.entries :=
  List.take_of_length_le table.length_entries_le

theorem kept_eq : calls.kept (cpuName calls.cpu) =
    some (cached calls.t₀ (cpuName calls.cpu) (softirqStat (lowBits calls.count₀))) := by
  refine KernelTable.read_cache_of_mem calls.nodup₀ ?_
  rw [take_entries]
  exact calls.mem₀

theorem messages_eq : calls.messages = calls.table₁.entries.map fun e =>
    softirqMsg calls.t₁ e.1 e.2 (calls.kept e.1) := by
  rw [messages, updateOnce, KernelTable.read_messages calls.nodup₁, take_entries]
  exact congrFun List.filterMap_eq_map _

theorem stats_eq {stats : SoftirqStat} (h : (cpuName calls.cpu, stats) ∈ calls.table₁.entries) :
    stats = softirqStat (lowBits calls.count₁) :=
  congrArg Prod.snd (List.inj_on_of_nodup_map calls.nodup₁ h calls.mem₁ rfl)

theorem seconds_eq : seconds calls.t₁ calls.t₀ = calls.ms / 1000 := by
  have hms : ((calls.t₁ : ℤ) - (calls.t₀ : ℤ)).tdiv 1000000 = calls.ms := calls.wholeMs_eq
  rw [seconds, hms, Int.cast_natCast]

/-- The cast of the quotient, before the message is made. -/
theorem truncate_quotient : truncate (quotient calls.t₁
      (statOf (softirqStat (lowBits calls.count₁)) calls.kind)
      (keptOf (cached calls.t₀ (cpuName calls.cpu) (softirqStat (lowBits calls.count₀))) calls.kind)
      calls.t₀) =
    ((if calls.count₀ calls.kind % 2 ^ 32 + calls.growth < 2 ^ 32 then calls.growth
      else calls.growth + (2 ^ 64 - 2 ^ 32)) * 1000 / calls.ms : ℕ) := by
  rw [keptOf_cached, statOf_softirqStat, statOf_softirqStat, quotient, seconds_eq,
    UInt64.toUInt64_toInt64, growth_eq calls.le calls.lt, truncate_div]
  rfl

/-- The message for the CPU, and no other one for it. -/
theorem valueOf_messages : (∃ m ∈ calls.messages, m.cpu = cpuName calls.cpu) ∧
    ∀ m ∈ calls.messages, m.cpu = cpuName calls.cpu → valueOf m calls.kind =
      ((if calls.count₀ calls.kind % 2 ^ 32 + calls.growth < 2 ^ 32 then calls.growth
        else calls.growth + (2 ^ 64 - 2 ^ 32)) * 1000 / calls.ms : ℕ) := by
  have hseconds : 0 < seconds calls.t₁ calls.t₀ := by
    rw [seconds_eq]
    exact div_pos (by exact_mod_cast calls.one_le_ms) (by norm_num)
  rw [messages_eq]
  refine ⟨⟨_, List.mem_map_of_mem calls.mem₁, rfl⟩, fun m hm hcpu => ?_⟩
  obtain ⟨⟨name, stats⟩, hmem, rfl⟩ := List.mem_map.1 hm
  obtain rfl : name = cpuName calls.cpu := hcpu
  obtain rfl := calls.stats_eq hmem
  rw [kept_eq, valueOf_softirqMsg]
  refine (fieldValue_some hseconds _ _).trans ?_
  rw [calls.truncate_quotient, Int.cast_natCast]

/-- A difference that is off by so much is noticed, however long the calls are apart. -/
theorem div_lt_div_of_roll : calls.growth * 1000 / calls.ms <
    (calls.growth + (2 ^ 64 - 2 ^ 32)) * 1000 / calls.ms := by
  have hms : calls.ms < 10 ^ 13 := by
    have hlt := wholeMs_lt calls.t₁ calls.t₀
    rw [calls.wholeMs_eq] at hlt
    exact_mod_cast hlt
  have hone : calls.growth * 1000 / calls.ms + 1 =
      (calls.growth * 1000 + calls.ms) / calls.ms :=
    (Nat.add_div_right _ calls.one_le_ms).symm
  rw [← Nat.add_one_le_iff, hone]
  exact Nat.div_le_div_right (by omega)

end TwoReads

/-- **Softirq rates.**  Over two successive calls the reported value is the number of events for
each second, and within the range of `int64_t`, if and only if the low 32 bits of the count have not
started over in between. -/
theorem softirq_rate_iff (calls : TwoReads) : calls.Survives ↔
    calls.count₀ calls.kind % 2 ^ 32 + (calls.count₁ calls.kind - calls.count₀ calls.kind) <
      2 ^ 32 := by
  obtain ⟨⟨m, hm, hcpu⟩, hvalue⟩ := calls.valueOf_messages
  constructor
  · rintro ⟨-, hright, -⟩
    by_contra hroll
    have heq := (hright m hm hcpu).symm.trans (hvalue m hm hcpu)
    rw [TwoReads.growth, if_neg hroll, Nat.cast_inj] at heq
    exact calls.div_lt_div_of_roll.ne heq
  · intro hroll
    refine ⟨⟨m, hm, hcpu⟩, fun m hm hcpu => ?_, fun stats old hmem hold => ?_⟩
    · rw [hvalue m hm hcpu, TwoReads.growth, if_pos hroll]
    · obtain rfl := calls.stats_eq hmem
      obtain rfl := Option.some.inj (calls.kept_eq.symm.trans hold)
      have hlt := calls.lt
      have hdiv := Nat.div_le_self (calls.growth * 1000) calls.ms
      refine calls.truncate_quotient ▸ inInt64_natCast ?_
      rw [TwoReads.growth, if_pos hroll]
      rw [TwoReads.growth] at hdiv
      omega

/-- The `2 ^ 32`-nd softirq of each kind comes within half a second. -/
def rolling : TwoReads where
  cpuSoftirqs := fun _ => none
  table₀ := tableAfter ([] ++ [([bootCpu], fun _ => lowBits fun _ => 2 ^ 32 - 1)])
  table₁ := tableAfter ([([bootCpu], fun _ => lowBits fun _ => 2 ^ 32 - 1)] ++
    [([bootCpu], fun _ => lowBits fun _ => 2 ^ 32)])
  nodup₀ := nodup_entries_tableAfter _ (List.nodup_singleton _) _
  nodup₁ := nodup_entries_tableAfter _ (List.nodup_singleton _) _
  cpu := bootCpu
  count₀ := fun _ => 2 ^ 32 - 1
  count₁ := fun _ => 2 ^ 32
  mem₀ := by
    rw [entries_tableAfter]
    exact List.mem_singleton_self _
  mem₁ := by
    rw [entries_tableAfter]
    exact List.mem_singleton_self _
  kind := .timer
  le := by decide
  lt := by decide
  t₀ := ⟨0, by decide⟩
  t₁ := ⟨500000000, by decide⟩
  ms := 500
  wholeMs_eq := by decide
  one_le_ms := by decide

/-- One event in half a second is reported as more than `2 ^ 63` events for each second. -/
theorem softirq_rate_after_roll : ¬ ∀ calls : TwoReads, calls.Survives := by
  intro hclaim
  obtain ⟨⟨m, hm, hcpu⟩, hvalue⟩ := rolling.valueOf_messages
  have heq := ((hclaim rolling).2.1 m hm hcpu).symm.trans (hvalue m hm hcpu)
  rw [Nat.cast_inj] at heq
  revert heq
  decide

end CpuSoftIrqMonitor

end MonitorSystem
