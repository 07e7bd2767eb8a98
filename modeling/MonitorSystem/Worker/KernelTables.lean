import MonitorSystem.Library.CharBuffer
import MonitorSystem.Library.SharedTable

/-!
# The tables of the kernel modules

`cpu_stat_collector.c` and `softirq_collector.c` each share a table of `MAX_CPUS` rows with a
collector of the worker.  A row starts with the name of a CPU, `cpu%d`, in 16 characters; an empty
name is the mark behind the last row.
-/

namespace MonitorSystem

/-! ### The names of the CPUs -/

/-- A CPU id: an `int` that is not negative. -/
abbrev Cpu := Fin (2 ^ 31)

/-- The CPU with the id 0. -/
def bootCpu : Cpu := ⟨0, Nat.two_pow_pos 31⟩

/-- The output of the format `cpu%d`. -/
def cpuText (cpu : Cpu) : List Char := "cpu".toList ++ DecimalText.natText cpu

/-- The name of a CPU as a string. -/
def cpuName (cpu : Cpu) : String := String.ofList (cpuText cpu)

theorem cpuText_injective : Function.Injective cpuText := by
  intro cpu cpu' h
  have hdigits : Nat.toDigits 10 cpu = Nat.toDigits 10 cpu' := List.append_cancel_left h
  refine Fin.ext ?_
  calc (cpu : ℕ) = Nat.ofDigitChars 10 (Nat.toDigits 10 cpu) 0 :=
        Nat.ofDigitChars_ten_toDigits.symm
    _ = Nat.ofDigitChars 10 (Nat.toDigits 10 cpu') 0 := by rw [hdigits]
    _ = cpu' := Nat.ofDigitChars_ten_toDigits

theorem cpuName_injective : Function.Injective cpuName := fun _ _ h =>
  cpuText_injective (String.ofList_injective h)

/-- The name and its terminator fit: an `int` has at most ten digits. -/
theorem length_cpuText_lt (cpu : Cpu) : (cpuText cpu).length < 16 := by
  have hdigits : (Nat.toDigits 10 cpu).length ≤ 10 :=
    Nat.toDigits_length 10 cpu 10 (by decide) (by omega)
  have hcpu : "cpu".toList.length = 3 := by decide
  rw [cpuText, List.length_append, hcpu, DecimalText.natText]
  omega

theorem nul_notMem_cpuText (cpu : Cpu) : CharBuffer.nul ∉ cpuText cpu := by
  intro h
  rcases List.mem_append.1 h with h | h
  · exact absurd h (by decide)
  · have hnumeric := DecimalText.isNumeric_natText cpu _ h
    revert hnumeric
    simp only [DecimalText.IsNumeric]
    decide

theorem cpuText_ne_nil (cpu : Cpu) : cpuText cpu ≠ [] :=
  List.append_ne_nil_of_left_ne_nil (by decide) _

/-- The name in a row. -/
abbrev CpuNameBuffer := CharBuffer 16

theorem cString_cpuText (cpu : Cpu) (name : CpuNameBuffer) :
    (name.snprintf (cpuText cpu)).cString = cpuText cpu :=
  CharBuffer.cString_snprintf (length_cpuText_lt cpu) (nul_notMem_cpuText cpu) name

theorem isEmpty_cpuText (cpu : Cpu) (name : CpuNameBuffer) :
    (name.snprintf (cpuText cpu)).isEmpty = false :=
  CharBuffer.isEmpty_snprintf (length_cpuText_lt cpu) (nul_notMem_cpuText cpu)
    (cpuText_ne_nil cpu) name

/-! ### The tables -/

/-- `MAX_CPUS`, the same in both modules. -/
def maxCpus : ℕ := 256

/-- The CPUs that a table has room for. -/
def listed (cpus : List Cpu) : List Cpu := cpus.take maxCpus

theorem nodup_listed {cpus : List Cpu} (h : cpus.Nodup) : (listed cpus).Nodup :=
  h.sublist (List.take_sublist _ _)

theorem nodup_map_cpuName {cpus : List Cpu} (h : cpus.Nodup) : (cpus.map cpuName).Nodup :=
  h.map cpuName_injective

/-- `struct cpu_stat` or `struct softirq_stat`: a name and some counters. -/
structure KernelRow (T : Type) where
  cpuName : CpuNameBuffer := .zero
  counters : T

/-- The name of a row as a string. -/
def KernelRow.name {T : Type} (row : KernelRow T) : String := String.ofList row.cpuName.cString

/-- How the modules write a row and mark it. -/
def rowLayout (T : Type) : SharedTable.Layout (Cpu × T) (KernelRow T) where
  write e row := ⟨row.cpuName.snprintf (cpuText e.1), e.2⟩
  terminate row := { row with cpuName := row.cpuName.terminate }
  isEnd row := row.cpuName.isEmpty
  isEnd_write e row := isEmpty_cpuText e.1 row.cpuName
  isEnd_terminate row := CharBuffer.isEmpty_terminate (by decide) row.cpuName

/-- A table of `MAX_CPUS` rows. -/
structure KernelTable (T : Type) where
  rows : List (KernelRow T)
  length_eq : rows.length = maxCpus

namespace KernelTable

variable {T C M : Type}

/-- The pages of `__get_free_pages` with `__GFP_ZERO`. -/
def zero (counters : T) : KernelTable T :=
  ⟨List.replicate maxCpus { counters := counters }, List.length_replicate⟩

/-- A pass of `update_cpu_stats` or `update_softirq_stats`: the row of each CPU is written, and the
name of the row behind the last one made empty. -/
def refill (written : List (Cpu × T)) (table : KernelTable T) : KernelTable T where
  rows := (rowLayout T).refill written table.rows
  length_eq := by rw [(rowLayout T).length_refill, table.length_eq]

/-- The entries of the table: the rows up to the mark, with their names as strings. -/
def entries (table : KernelTable T) : List (String × T) :=
  ((rowLayout T).live table.rows).map fun row => (row.name, row.counters)

theorem entries_zero (counters : T) : (zero counters).entries = [] := by
  have hend : (rowLayout T).isEnd { counters := counters } = true :=
    CharBuffer.isEmpty_zero (by decide)
  show ((rowLayout T).live (List.replicate (255 + 1) _)).map _ = []
  rw [List.replicate_succ, (rowLayout T).live_cons_of_isEnd hend, List.map_nil]

/-- After a pass the entries are those of the CPUs that fit, whatever the table held before. -/
theorem entries_refill (counters : Cpu → T) (cpus : List Cpu) (table : KernelTable T) :
    (table.refill (cpus.map fun cpu => (cpu, counters cpu))).entries =
      (listed cpus).map fun cpu => (cpuName cpu, counters cpu) := by
  have hview : ∀ (e : Cpu × T) (row : KernelRow T),
      (((rowLayout T).write e row).name, ((rowLayout T).write e row).counters) =
        (cpuName e.1, e.2) := by
    intro e row
    show (String.ofList (row.cpuName.snprintf (cpuText e.1)).cString, e.2) = _
    rw [cString_cpuText]
    rfl
  rw [entries, refill, (rowLayout T).map_live_refill hview, table.length_eq, ← List.map_take,
    List.map_map]
  rfl

theorem nodup_entries_refill {cpus : List Cpu} (hcpus : cpus.Nodup) (counters : Cpu → T)
    (table : KernelTable T) :
    ((table.refill (cpus.map fun cpu => (cpu, counters cpu))).entries.map Prod.fst).Nodup := by
  rw [entries_refill, List.map_map]
  exact nodup_map_cpuName (nodup_listed hcpus)

theorem length_entries_le (table : KernelTable T) : table.entries.length ≤ maxCpus := by
  rw [entries, List.length_map, ← table.length_eq]
  exact (List.takeWhile_sublist _).length_le

/-! ### The reader -/

section Read

variable (count : ℕ) (emit : String → T → Option C → Option M) (keep : String → T → C)

/-- The loop of `CpuStatMonitor` and `CpuSoftIrqMonitor` over the first `count` rows. -/
def read (table : KernelTable T) (cache : String → Option C) : List M × (String → Option C) :=
  SharedTable.scan (rowLayout T).isEnd KernelRow.name (fun row => emit row.name row.counters)
    (fun row => keep row.name row.counters) (table.rows.take count) cache

variable {count emit keep} {table : KernelTable T} {cache : String → Option C}

theorem read_eq_loop : table.read count emit keep cache =
    CachedLoop.loop KernelRow.name (fun row => emit row.name row.counters)
      (fun row => keep row.name row.counters) ((rowLayout T).live (table.rows.take count)) cache :=
  SharedTable.scan_eq_loop _ _ _ _ _ _

theorem map_live_take {V : Type} (count : ℕ) (table : KernelTable T) (f : String → T → V) :
    ((rowLayout T).live (table.rows.take count)).map (fun row => f row.name row.counters) =
      (table.entries.take count).map fun e => f e.1 e.2 := by
  rw [(rowLayout T).live_take, entries, ← List.map_take, List.map_map]
  rfl

theorem nodup_names_take (hnodup : (table.entries.map Prod.fst).Nodup) (count : ℕ) :
    (((rowLayout T).live (table.rows.take count)).map KernelRow.name).Nodup := by
  rw [map_live_take count table fun name _ => name, List.map_take]
  exact hnodup.sublist (List.take_sublist _ _)

/-- With distinct names, each entry is looked up in the cache that the loop started with. -/
theorem read_messages (hnodup : (table.entries.map Prod.fst).Nodup) :
    (table.read count emit keep cache).1 =
      (table.entries.take count).filterMap fun e => emit e.1 e.2 (cache e.1) := by
  rw [read_eq_loop, CachedLoop.loop_messages (nodup_names_take hnodup count)]
  have hmap := map_live_take count table fun name counters => emit name counters (cache name)
  have hid := congrArg (List.filterMap id) hmap
  rwa [List.filterMap_map, List.filterMap_map] at hid

/-- The cache afterwards holds every entry that was read. -/
theorem read_cache_of_mem (hnodup : (table.entries.map Prod.fst).Nodup) {name : String}
    {counters : T} (hmem : (name, counters) ∈ table.entries.take count) :
    (table.read count emit keep cache).2 name = some (keep name counters) := by
  have hrow : (name, counters) ∈ (table.entries.take count).map fun e => (e.1, e.2) := by
    simpa using hmem
  rw [← map_live_take count table fun name counters => (name, counters), List.mem_map] at hrow
  obtain ⟨row, hrow, heq⟩ := hrow
  obtain ⟨rfl, rfl⟩ := Prod.mk.inj heq
  rw [read_eq_loop]
  exact CachedLoop.loop_cache_of_mem (nodup_names_take hnodup count) hrow

/-- Under other names it holds what it held. -/
theorem read_cache_of_notMem {name : String}
    (hmem : name ∉ (table.entries.take count).map Prod.fst) :
    (table.read count emit keep cache).2 name = cache name := by
  rw [read_eq_loop]
  refine CachedLoop.loop_cache_of_notMem (fun h => hmem ?_)
  rwa [← map_live_take count table fun name _ => name]

end Read

end KernelTable

end MonitorSystem
