import MonitorSystem.Manager.Score
import MonitorSystem.Worker.CpuStatMonitor

/-!
# The number of cores

`CalcScore` reads a report as if its first CPU entry were the total of all others: it takes the CPU
usage from the first entry, and one less than the number of entries for the number of cores.  The
kernel module lists one entry for each CPU and no total, and so do the reports.

The documented formula divides the load by one and a half times the number of cores.
`score_formula_iff` says for which reports it is computed, and when the order of the CPUs matters.
-/

namespace MonitorSystem

namespace CpuCores

open CpuStatCollector CpuStatMonitor
open CxxFloat (lit)

/-- The documented load score: `1 - load_avg_1 / (cpu_cores * 1.5)`, limited to `[0, 1]`. -/
def documentedLoadScore (info : MonitorInfo ℚ) : ℚ :=
  max 0 (min 1 (1 - info.loadAvg1 / (info.cpuStat.length * (3 / 2))))

/-- The score does not depend on the order of the CPUs. -/
def OrderFree (info : MonitorInfo ℚ) : Prop :=
  ∀ stats : List (CpuStat ℚ), stats.Perm info.cpuStat →
    calcScore { info with cpuStat := stats } = calcScore info

/-- A percentage, limited to `[0, 100]`. -/
def limited (percent : ℚ) : ℚ := max 0 (min 100 percent)

/-! ### The load -/

theorem cpuCores_eq_length_iff {info : MonitorInfo ℚ} (hne : info.cpuStat ≠ []) :
    cpuCores info = info.cpuStat.length ↔ info.cpuStat.length = 1 := by
  have hpos : 0 < info.cpuStat.length := List.length_pos_iff.2 hne
  unfold cpuCores
  split_ifs <;> omega

theorem loadScore_eq (info : MonitorInfo ℚ) :
    loadScore info = max 0 (min 1 (1 - info.loadAvg1 / (cpuCores info * (3 / 2)))) := by
  rw [loadScore, clamp_eq]
  norm_num [lit_rat]

/-- Two capacities give the same share of a load exactly when both are unused or both are full. -/
theorem share_eq_iff {load c c' : ℚ} (hc : 0 < c) (hlt : c < c') :
    max 0 (min 1 (1 - load / c)) = max 0 (min 1 (1 - load / c')) ↔ load ≤ 0 ∨ c' ≤ load := by
  have hc' : 0 < c' := hc.trans hlt
  constructor
  · intro heq
    by_contra hbetween
    obtain ⟨hpos, hbelow⟩ := not_or.1 hbetween
    rw [not_le] at hpos hbelow
    -- between the two the larger capacity has something left, and more than the smaller one
    have hless : load / c' < load / c := div_lt_div_of_pos_left hpos hc hlt
    have hpos' : 0 < load / c' := div_pos hpos hc'
    have hsome : load / c' < 1 := (div_lt_one hc').2 hbelow
    rw [min_eq_right (by linarith), min_eq_right (by linarith),
      max_eq_right (show (0 : ℚ) ≤ 1 - load / c' by linarith)] at heq
    rcases max_choice 0 (1 - load / c) with h | h <;> rw [h] at heq <;> linarith
  · rintro (hunused | hfull)
    · have h : load / c ≤ 0 := div_nonpos_of_nonpos_of_nonneg hunused hc.le
      have h' : load / c' ≤ 0 := div_nonpos_of_nonpos_of_nonneg hunused hc'.le
      rw [min_eq_left (by linarith), min_eq_left (by linarith)]
    · have h : 1 ≤ load / c := (one_le_div hc).2 (hlt.le.trans hfull)
      have h' : 1 ≤ load / c' := (one_le_div hc').2 hfull
      rw [max_eq_left (min_le_of_right_le (by linarith)),
        max_eq_left (min_le_of_right_le (by linarith))]

theorem loadScore_eq_documented_iff {info : MonitorInfo ℚ} (hne : info.cpuStat ≠ []) :
    loadScore info = documentedLoadScore info ↔ info.cpuStat.length = 1 ∨ info.loadAvg1 ≤ 0 ∨
      info.cpuStat.length * (3 / 2) ≤ info.loadAvg1 := by
  by_cases hone : info.cpuStat.length = 1
  · refine ⟨fun _ => .inl hone, fun _ => ?_⟩
    rw [loadScore_eq, documentedLoadScore, (cpuCores_eq_length_iff hne).2 hone]
  · have hpos : 0 < info.cpuStat.length := List.length_pos_iff.2 hne
    have hcores : cpuCores info = info.cpuStat.length - 1 := by
      unfold cpuCores
      split_ifs <;> omega
    have hlt : (cpuCores info : ℚ) < info.cpuStat.length := by
      rw [hcores]
      exact_mod_cast Nat.sub_lt hpos one_pos
    have hcores' : (0 : ℚ) < cpuCores info := by
      rw [hcores]
      exact_mod_cast (by omega : 0 < info.cpuStat.length - 1)
    rw [loadScore_eq, documentedLoadScore,
      share_eq_iff (by positivity) (mul_lt_mul_of_pos_right hlt (by norm_num))]
    simp [hone]

/-! ### The order of the CPUs -/

theorem clamp_share_eq (percent : ℚ) :
    clamp (lit 1 1 - percent / lit 100 1) = 1 - limited percent / 100 := by
  have hlit : (lit 1 1 : ℚ) - percent / lit 100 1 = 1 - percent / 100 := by norm_num [lit_rat]
  rw [hlit, clamp_eq, limited]
  rcases le_total percent 0 with hneg | hnonneg
  · rw [min_eq_left (by linarith), min_eq_right (by linarith), max_eq_left hneg]
    norm_num
  · rcases le_total percent 100 with hle | hge
    · rw [min_eq_right (by linarith), min_eq_right hle, max_eq_right hnonneg,
        max_eq_right (by linarith)]
    · rw [min_eq_right (by linarith), min_eq_left hge, max_eq_left (by linarith)]
      norm_num

/-- The score sees the order of the CPUs through the limited usage of the first. -/
theorem calcScore_perm {info : MonitorInfo ℚ} {stats : List (CpuStat ℚ)}
    (hperm : stats.Perm info.cpuStat) :
    calcScore { info with cpuStat := stats } = calcScore info ↔
      limited ({ info with cpuStat := stats } : MonitorInfo ℚ).cpuPercent =
        limited info.cpuPercent := by
  have hload : loadScore { info with cpuStat := stats } = loadScore info := by
    rw [loadScore_eq, loadScore_eq, cpuCores_congr hperm.length_eq]
    rfl
  rw [calcScore_eq_sum, calcScore_eq_sum, hload, cpuScore, cpuScore, clamp_share_eq,
    clamp_share_eq]
  show _ + 30 * memScore info + _ + 15 * diskScore info + 5 * netScore info = _ ↔ _
  constructor <;> intro h <;> linarith

theorem orderFree_iff {info : MonitorInfo ℚ} : OrderFree info ↔
    ∀ stat ∈ info.cpuStat, limited stat.cpuPercent = limited info.cpuPercent := by
  constructor
  · intro h stat hstat
    obtain ⟨before, behind, heq⟩ := List.append_of_mem hstat
    have hperm : (stat :: (before ++ behind)).Perm info.cpuStat := by
      rw [heq]
      exact List.perm_middle.symm
    exact (calcScore_perm hperm).1 (h _ hperm)
  · intro h stats hperm
    rw [calcScore_perm hperm]
    cases stats with
    | nil =>
      have hnil := hperm.symm.eq_nil
      rw [MonitorInfo.cpuPercent, MonitorInfo.cpuPercent, hnil]
    | cons stat rest => exact h stat (hperm.mem_iff.1 List.mem_cons_self)

/-! ### The formula -/

/-- The documented formula for a report: `cpu_cores` is the number of its CPUs, the load score is
the documented one, and no CPU stands for the whole machine. -/
def MeetsFormula (info : MonitorInfo ℚ) : Prop :=
  cpuCores info = info.cpuStat.length ∧ loadScore info = documentedLoadScore info ∧ OrderFree info

/-- **The score and its documentation.**  Of the reports with CPU entries, exactly those with a
single CPU meet the documented formula.  The load score alone is also right for a load of zero
and for one that fills all cores, and the order alone does not matter when all CPUs are equally
busy. -/
theorem score_formula_iff {info : MonitorInfo ℚ} (hne : info.cpuStat ≠ []) :
    (MeetsFormula info ↔ info.cpuStat.length = 1) ∧
    (loadScore info = documentedLoadScore info ↔ info.cpuStat.length = 1 ∨ info.loadAvg1 ≤ 0 ∨
      info.cpuStat.length * (3 / 2) ≤ info.loadAvg1) ∧
    (OrderFree info ↔
      ∀ stat ∈ info.cpuStat, limited stat.cpuPercent = limited info.cpuPercent) := by
  refine ⟨⟨fun h => (cpuCores_eq_length_iff hne).1 h.1, fun hone => ?_⟩,
    loadScore_eq_documented_iff hne, orderFree_iff⟩
  refine ⟨(cpuCores_eq_length_iff hne).2 hone, (loadScore_eq_documented_iff hne).2 (.inl hone),
    orderFree_iff.2 fun stat hstat => ?_⟩
  obtain ⟨only, honly⟩ := List.length_eq_one_iff.1 hone
  rw [honly, List.mem_singleton] at hstat
  rw [MonitorInfo.cpuPercent, honly, hstat]
  rfl

theorem score_formula_idle : MeetsFormula idle :=
  (score_formula_iff (List.cons_ne_nil _ _)).1.2 rfl

/-- Entries that the collector emits from the table of the kernel module. -/
def Emitted (stats : List (CpuStat ℚ)) : Prop :=
  ∃ (K : Kernel) (cpus : List Cpu) (es : List Event), cpus.Nodup ∧
    stats = (nextCall ℚ K cpus es).1

/-- What the collector reports of two CPUs, the first of which was busy for a second. -/
def twoCpus : List (CpuStat ℚ) :=
  (nextCall ℚ kernel1000 [0, 1] [.update fun _ => {}, .read, .update fun cpu =>
    if cpu = 0 then { user := 1000000000 } else { idleTimeUs := 1000000 }]).1

theorem length_twoCpus : twoCpus.length = 2 := by
  have hnames : twoCpus.map (·.cpuName) = ([0, 1] : List Cpu).map cpuName :=
    names_of_primed (by decide) ⟨_, [], _, rfl, by simp⟩
  have hlength := congrArg List.length hnames
  rwa [List.length_map] at hlength

/-- With two CPUs the code counts one core. -/
theorem score_formula_fails :
    ¬ ∀ info : MonitorInfo ℚ, info.cpuStat ≠ [] → Emitted info.cpuStat → MeetsFormula info := by
  intro hclaim
  have hmeets := hclaim { name := "web", cpuLoad := some ⟨3 / 2, 0, 0⟩, cpuStat := twoCpus }
    (List.ne_nil_of_length_pos (by rw [length_twoCpus]; decide))
    ⟨_, [0, 1], _, by decide, rfl⟩
  have hcores := hmeets.1
  simp only [cpuCores, length_twoCpus] at hcores
  exact absurd hcores (by decide)

end CpuCores

end MonitorSystem
