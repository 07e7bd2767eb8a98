import MonitorSystem.Manager.ProcessData

/-!
# The score

`CalcScore` is a weighted sum of five terms, each the remaining share of a resource limited to
`[0, 1]`.  In exact arithmetic it stays in `[0, 100]` for every report, whatever its values, so
that the final limitation never acts (`calcScore_eq_sum`), and it falls when a host gets busier.
-/

namespace MonitorSystem

open CxxFloat (lit)

/-! ### The terms -/

section Terms

variable {F : Type} [CxxFloat F] (info : MonitorInfo F)

/-- `cpu_percent` in `CalcScore`. -/
def MonitorInfo.cpuPercent : F := (info.cpuStat.head?.map (·.cpuPercent)).getD 0

/-- `load_avg_1` in `CalcScore`. -/
def MonitorInfo.loadAvg1 : F := (info.cpuLoad.map (·.loadAvg1)).getD 0

/-- `mem_percent` in `CalcScore`. -/
def MonitorInfo.memPercent : F := (info.memInfo.map (·.usedPercent)).getD 0

/-- `net_recv_rate` in `CalcScore`. -/
def MonitorInfo.netRecvRate : F := (info.netInfo.head?.map (·.rcvRate)).getD 0

/-- `net_send_rate` in `CalcScore`. -/
def MonitorInfo.netSendRate : F := (info.netInfo.head?.map (·.sendRate)).getD 0

/-- `cpu_cores` in `CalcScore`. -/
def cpuCores : ℕ := if info.cpuStat.length - 1 < 1 then 1 else info.cpuStat.length - 1

/-- `cpu_score` in `CalcScore`. -/
def cpuScore : F := clamp (lit 1 1 - info.cpuPercent / lit 100 1)

/-- `mem_score` in `CalcScore`. -/
def memScore : F := clamp (lit 1 1 - info.memPercent / lit 100 1)

/-- `load_score` in `CalcScore`. -/
def loadScore : F := clamp (lit 1 1 - info.loadAvg1 / ((cpuCores info : F) * lit 3 2))

/-- `disk_score` in `CalcScore`. -/
def diskScore : F := clamp (lit 1 1 - diskUtil info / lit 100 1)

/-- `net_score` in `CalcScore`. -/
def netScore : F :=
  clamp (lit 1 1 - (info.netRecvRate + info.netSendRate) / (lit 2 1 * lit 125000000 1))

/-- `score` in `CalcScore`, before it is limited. -/
def weightedScore : F :=
  (cpuScore info * lit 35 100 + memScore info * lit 30 100 + loadScore info * lit 15 100 +
    diskScore info * lit 15 100 + netScore info * lit 5 100) * lit 100 1

theorem calcScore_eq : calcScore info =
    if weightedScore info < 0 then 0
    else if lit 100 1 < weightedScore info then lit 100 1 else weightedScore info := rfl

end Terms

/-! ### Exact arithmetic -/

theorem lit_rat (p q : ℕ) : (lit p q : ℚ) = p / q := rfl

theorem clamp_eq (v : ℚ) : clamp v = max 0 (min 1 v) := by
  simp only [clamp, lit_rat, Nat.cast_one, div_one]
  split_ifs with h0 h1
  · rw [max_eq_left (min_le_of_right_le h0.le)]
  · rw [min_eq_left h1.le, max_eq_right zero_le_one]
  · rw [min_eq_right (not_lt.1 h1), max_eq_right (not_lt.1 h0)]

theorem clamp_mem_Icc (v : ℚ) : clamp v ∈ Set.Icc (0 : ℚ) 1 := by
  rw [clamp_eq]
  exact ⟨le_max_left _ _, max_le zero_le_one (min_le_left _ _)⟩

theorem clamp_mono {v w : ℚ} (h : v ≤ w) : clamp v ≤ clamp w := by
  rw [clamp_eq, clamp_eq]
  exact max_le_max le_rfl (min_le_min le_rfl h)

/-- What is left of a resource falls with its use. -/
theorem clamp_share_anti {use use' capacity : ℚ} (hc : 0 ≤ capacity) (h : use ≤ use') :
    clamp (lit 1 1 - use' / capacity) ≤ clamp (lit 1 1 - use / capacity) :=
  clamp_mono (sub_le_sub_left (div_le_div_of_nonneg_right h hc) _)

section Range

variable (info : MonitorInfo ℚ)

theorem cpuScore_mem_Icc : cpuScore info ∈ Set.Icc (0 : ℚ) 1 := clamp_mem_Icc _

theorem memScore_mem_Icc : memScore info ∈ Set.Icc (0 : ℚ) 1 := clamp_mem_Icc _

theorem loadScore_mem_Icc : loadScore info ∈ Set.Icc (0 : ℚ) 1 := clamp_mem_Icc _

theorem diskScore_mem_Icc : diskScore info ∈ Set.Icc (0 : ℚ) 1 := clamp_mem_Icc _

theorem netScore_mem_Icc : netScore info ∈ Set.Icc (0 : ℚ) 1 := clamp_mem_Icc _

theorem weightedScore_eq : weightedScore info = 35 * cpuScore info + 30 * memScore info +
    15 * loadScore info + 15 * diskScore info + 5 * netScore info := by
  simp only [weightedScore, lit_rat]
  push_cast
  ring

theorem weightedScore_mem_Icc : weightedScore info ∈ Set.Icc (0 : ℚ) 100 := by
  obtain ⟨hcpu, hcpu'⟩ := cpuScore_mem_Icc info
  obtain ⟨hmem, hmem'⟩ := memScore_mem_Icc info
  obtain ⟨hload, hload'⟩ := loadScore_mem_Icc info
  obtain ⟨hdisk, hdisk'⟩ := diskScore_mem_Icc info
  obtain ⟨hnet, hnet'⟩ := netScore_mem_Icc info
  rw [weightedScore_eq]
  constructor <;> linarith

/-- The limitation of the sum never acts. -/
theorem calcScore_eq_sum : calcScore info = 35 * cpuScore info + 30 * memScore info +
    15 * loadScore info + 15 * diskScore info + 5 * netScore info := by
  obtain ⟨hlo, hhi⟩ := weightedScore_mem_Icc info
  have hlit : (lit 100 1 : ℚ) = 100 := by norm_num [lit_rat]
  rw [calcScore_eq, if_neg (not_lt.2 hlo), if_neg (by rw [hlit]; exact not_lt.2 hhi),
    weightedScore_eq]

/-- The score of any report lies in `[0, 100]`. -/
theorem calcScore_mem_Icc : calcScore info ∈ Set.Icc (0 : ℚ) 100 := by
  rw [calcScore_eq_sum, ← weightedScore_eq]
  exact weightedScore_mem_Icc info

end Range

/-! ### The highest utilisation -/

/-- The loop over the disks computes a maximum. -/
theorem diskUtil_eq (info : MonitorInfo ℚ) :
    diskUtil info = (info.diskInfo.map (·.utilPercent)).foldl max 0 := by
  rw [List.foldl_map]
  refine congrArg (fun f => List.foldl f 0 info.diskInfo) ?_
  funext util disk
  exact (max_def_lt util disk.utilPercent).symm

theorem le_foldl_max_iff (l : List ℚ) (a b : ℚ) : l.foldl max a ≤ b ↔ a ≤ b ∧ ∀ x ∈ l, x ≤ b := by
  induction l generalizing a with
  | nil => simp
  | cons x l ih => simp [ih, and_assoc]

theorem diskUtil_le_iff (info : MonitorInfo ℚ) (b : ℚ) :
    diskUtil info ≤ b ↔ 0 ≤ b ∧ ∀ disk ∈ info.diskInfo, disk.utilPercent ≤ b := by
  rw [diskUtil_eq, le_foldl_max_iff, List.forall_mem_map]

/-- More disks, and busier ones, have a higher maximum. -/
theorem diskUtil_mono {info info' : MonitorInfo ℚ}
    (h : ∀ disk ∈ info.diskInfo, ∃ disk' ∈ info'.diskInfo, disk.utilPercent ≤ disk'.utilPercent) :
    diskUtil info ≤ diskUtil info' := by
  obtain ⟨hnonneg, hle⟩ := (diskUtil_le_iff info' _).1 le_rfl
  rw [diskUtil_le_iff]
  refine ⟨hnonneg, fun disk hdisk => ?_⟩
  obtain ⟨disk', hdisk', hutil⟩ := h disk hdisk
  exact hutil.trans (hle disk' hdisk')

/-! ### Busier hosts -/

/-- As far as `CalcScore` can see, the second report differs from the first by a higher use of
some resources; each disk of the first has a disk in the second that is at least as busy, besides
which the second may list others. -/
structure Busier (info info' : MonitorInfo ℚ) : Prop where
  cpuStat_length : info'.cpuStat.length = info.cpuStat.length
  cpuPercent_le : info.cpuPercent ≤ info'.cpuPercent
  loadAvg1_le : info.loadAvg1 ≤ info'.loadAvg1
  memPercent_le : info.memPercent ≤ info'.memPercent
  netRecvRate_le : info.netRecvRate ≤ info'.netRecvRate
  netSendRate_le : info.netSendRate ≤ info'.netSendRate
  disks_le : ∀ disk ∈ info.diskInfo, ∃ disk' ∈ info'.diskInfo,
    disk.utilPercent ≤ disk'.utilPercent

theorem cpuCores_congr {info info' : MonitorInfo ℚ}
    (h : info'.cpuStat.length = info.cpuStat.length) : cpuCores info' = cpuCores info := by
  rw [cpuCores, cpuCores, h]

/-- The score of the busier report is at most that of the other. -/
theorem calcScore_anti {info info' : MonitorInfo ℚ} (h : Busier info info') :
    calcScore info' ≤ calcScore info := by
  have hlit : ∀ p q : ℕ, (0 : ℚ) ≤ lit p q := fun p q => div_nonneg p.cast_nonneg q.cast_nonneg
  have hcpu : cpuScore info' ≤ cpuScore info := clamp_share_anti (hlit _ _) h.cpuPercent_le
  have hmem : memScore info' ≤ memScore info := clamp_share_anti (hlit _ _) h.memPercent_le
  have hload : loadScore info' ≤ loadScore info := by
    rw [loadScore, loadScore, cpuCores_congr h.cpuStat_length]
    exact clamp_share_anti (mul_nonneg (Nat.cast_nonneg _) (hlit _ _)) h.loadAvg1_le
  have hdisk : diskScore info' ≤ diskScore info :=
    clamp_share_anti (hlit _ _) (diskUtil_mono h.disks_le)
  have hnet : netScore info' ≤ netScore info :=
    clamp_share_anti (mul_nonneg (hlit _ _) (hlit _ _))
      (add_le_add h.netRecvRate_le h.netSendRate_le)
  rw [calcScore_eq_sum, calcScore_eq_sum]
  linarith

/-- **Range and monotonicity of the score.**  The score of every report lies in `[0, 100]`; it does
not rise when a host gets busier or lists more disks; and it does not depend on the order of the
disks. -/
theorem calcScore_bounded_monotone :
    (∀ info : MonitorInfo ℚ, 0 ≤ calcScore info ∧ calcScore info ≤ 100) ∧
    (∀ info info' : MonitorInfo ℚ, Busier info info' → calcScore info' ≤ calcScore info) ∧
    (∀ (info : MonitorInfo ℚ) (disks : List (DiskInfo ℚ)), disks.Perm info.diskInfo →
      calcScore { info with diskInfo := disks } = calcScore info) := by
  refine ⟨calcScore_mem_Icc, fun _ _ => calcScore_anti, fun info disks hperm => ?_⟩
  refine le_antisymm (calcScore_anti ?_) (calcScore_anti ?_)
  · exact ⟨rfl, le_rfl, le_rfl, le_rfl, le_rfl, le_rfl,
      fun disk hdisk => ⟨disk, hperm.mem_iff.2 hdisk, le_rfl⟩⟩
  · exact ⟨rfl, le_rfl, le_rfl, le_rfl, le_rfl, le_rfl,
      fun disk hdisk => ⟨disk, hperm.mem_iff.1 hdisk, le_rfl⟩⟩

/-- A disk without traffic. -/
def diskAt (name : String) (utilPercent : ℚ) : DiskInfo ℚ :=
  ⟨name, 0, 0, 0, 0, 0, 0, 0, 0, 0, 0, 0, 0, 0, 0, 0, utilPercent⟩

/-- A report with one CPU, a load of 2 and one disk. -/
def idle : MonitorInfo ℚ where
  name := "web"
  cpuStat := [⟨"cpu0", 10, 0, 0, 0, 90, 0, 0, 0⟩]
  cpuLoad := some ⟨2, 0, 0⟩
  diskInfo := [diskAt "sda" 20]

/-- The same host with a busier CPU and a second disk. -/
def busy : MonitorInfo ℚ :=
  { idle with
    cpuStat := [⟨"cpu0", 95, 0, 0, 0, 5, 0, 0, 0⟩]
    diskInfo := diskAt "sdb" 70 :: idle.diskInfo }

theorem calcScore_busy : calcScore busy ≤ calcScore idle ∧
    calcScore { busy with diskInfo := busy.diskInfo.reverse } = calcScore busy := by
  obtain ⟨-, hanti, hperm⟩ := calcScore_bounded_monotone
  refine ⟨hanti idle busy ⟨rfl, ?_, le_rfl, le_rfl, le_rfl, le_rfl, ?_⟩,
    hperm busy _ busy.diskInfo.reverse_perm⟩
  · decide
  · exact fun disk hdisk => ⟨disk, List.mem_cons_of_mem _ hdisk, le_rfl⟩

end MonitorSystem
