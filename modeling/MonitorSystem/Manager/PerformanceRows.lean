import MonitorSystem.Manager.HostIsolation

/-!
# Values and rates in `server_performance`

Each row of `server_performance` holds, for a column `x`, the value of a report and in `x_rate` the
relative change since the previous report.  The two travel by different ways, the rates computed in
`ProcessData` and passed by position, the values extracted again in `WriteToMysql`, and they meet
in an `INSERT` that lists columns and values by position.  In exact arithmetic they fit together,
except for the two columns of the network, whose rates are exchanged.
-/

namespace MonitorSystem

/-- The columns that `init_server_performance.sql` declares for `server_performance`. -/
def serverPerformanceColumns : List String :=
  ["id", "server_name",
    "cpu_percent", "usr_percent", "system_percent", "nice_percent", "idle_percent",
    "io_wait_percent", "irq_percent", "soft_irq_percent",
    "load_avg_1", "load_avg_3", "load_avg_15",
    "mem_used_percent", "total", "free", "avail",
    "disk_util_percent", "send_rate", "rcv_rate", "score",
    "cpu_percent_rate", "usr_percent_rate", "system_percent_rate", "nice_percent_rate",
    "idle_percent_rate", "io_wait_percent_rate", "irq_percent_rate", "soft_irq_percent_rate",
    "load_avg_1_rate", "load_avg_3_rate", "load_avg_15_rate",
    "mem_used_percent_rate", "total_rate", "free_rate", "avail_rate",
    "disk_util_percent_rate", "send_rate_rate", "rcv_rate_rate", "timestamp"]

/-- The columns `x` that have a companion column `x_rate`. -/
def companions : List String :=
  serverPerformanceColumns.filter fun x => x ++ "_rate" ∈ serverPerformanceColumns

theorem companions_eq : companions =
    ["cpu_percent", "usr_percent", "system_percent", "nice_percent", "idle_percent",
      "io_wait_percent", "irq_percent", "soft_irq_percent",
      "load_avg_1", "load_avg_3", "load_avg_15",
      "mem_used_percent", "total", "free", "avail",
      "disk_util_percent", "send_rate", "rcv_rate"] := by
  decide

/-- The number that a statement stores in a column. -/
def Insert.number {F : Type} (statement : Insert F) (column : String) : Option F :=
  match (statement.columns.zip statement.values).lookup column with
  | some (.float x) => some x
  | _ => none

/-- The change from `a` to `b` relative to `a`. -/
def relativeChange (a b : ℚ) : ℚ := if a = 0 then 0 else (b - a) / a

/-- In every column with a companion, the rate of `row` is the relative change since `prev`. -/
def RatesAgree (prev row : Insert ℚ) : Prop :=
  ∀ x ∈ companions, ∃ a b, prev.number x = some a ∧ row.number x = some b ∧
    row.number (x ++ "_rate") = some (relativeChange a b)

theorem rate_eq (now last : ℚ) : rate now last = relativeChange last now := by
  unfold rate relativeChange
  by_cases h : last = 0
  · rw [if_pos h]
    exact if_pos (beq_iff_eq.2 h)
  · rw [if_neg h]
    exact if_neg fun hb => h (beq_iff_eq.1 hb)

theorem relativeChange_div (a b : ℚ) {c : ℚ} (hc : c ≠ 0) :
    relativeChange (a / c) (b / c) = relativeChange a b := by
  unfold relativeChange
  by_cases ha : a = 0
  · simp [ha]
  · rw [if_neg ha, if_neg (div_ne_zero ha hc)]
    field_simp

/-! ### One row -/

/-- The row for a report, when the last snapshot of its host is `last` and the last disk
utilisation `lastUtil`. -/
def performanceRow (env : Env) (job : Job ℚ) (last : PerfSample ℚ) (lastUtil : Option ℚ) :
    Insert ℚ :=
  let curr := perfSample job.info
  performanceInsert (serverIdentifier job.info) (env.localtime (job.now.tdiv 1000000000))
    ⟨job.info, calcScore job.info, job.now⟩ (diskUtil job.info)
    (rate curr.cpuPercent last.cpuPercent)
    (rate curr.usrPercent last.usrPercent) (rate curr.systemPercent last.systemPercent)
    (rate curr.nicePercent last.nicePercent) (rate curr.idlePercent last.idlePercent)
    (rate curr.ioWaitPercent last.ioWaitPercent)
    (rate curr.irqPercent last.irqPercent) (rate curr.softIrqPercent last.softIrqPercent)
    (rate curr.loadAvg1 last.loadAvg1) (rate curr.loadAvg3 last.loadAvg3)
    (rate curr.loadAvg15 last.loadAvg15)
    (rate curr.memUsedPercent last.memUsedPercent) (rate curr.memTotal last.memTotal)
    (rate curr.memFree last.memFree) (rate curr.memAvail last.memAvail)
    (diskUtilPercentRate (diskUtil job.info) lastUtil)
    (rate curr.netInRate last.netInRate) (rate curr.netOutRate last.netOutRate)

/-- The send rate of the first interface; zero without interfaces. -/
def MonitorInfo.sendRate (info : MonitorInfo ℚ) : ℚ := (info.netInfo.head?.map (·.sendRate)).getD 0

/-- The receive rate of the first interface; zero without interfaces. -/
def MonitorInfo.rcvRate (info : MonitorInfo ℚ) : ℚ := (info.netInfo.head?.map (·.rcvRate)).getD 0

/-- Between the two reports the send rate and the receive rate change in the same proportion. -/
def SameNetChange (prev curr : MonitorInfo ℚ) : Prop :=
  relativeChange prev.sendRate curr.sendRate = relativeChange prev.rcvRate curr.rcvRate

theorem map_div_getD {α : Type*} (l : Option α) (f : α → ℚ) (c : ℚ) :
    (l.map fun x => f x / c).getD 0 = (l.map f).getD 0 / c := by
  cases l with
  | none => simp
  | some x => rfl

theorem lit_1024_ne_zero : (CxxFloat.lit 1024 1 : ℚ) ≠ 0 := by norm_num [CxxFloat.lit]

theorem netInRate_eq (info : MonitorInfo ℚ) :
    (perfSample info).netInRate =
      info.rcvRate / (CxxFloat.lit 1024 1 * CxxFloat.lit 1024 1) :=
  map_div_getD _ _ _

theorem netOutRate_eq (info : MonitorInfo ℚ) :
    (perfSample info).netOutRate =
      info.sendRate / (CxxFloat.lit 1024 1 * CxxFloat.lit 1024 1) :=
  map_div_getD _ _ _

section Row

variable (env : Env) (job : Job ℚ) (last : PerfSample ℚ) (lastUtil : Option ℚ)

theorem number_send_rate : (performanceRow env job last lastUtil).number "send_rate" =
    some (job.info.sendRate / CxxFloat.lit 1024 1) :=
  congrArg some (map_div_getD _ _ _)

theorem number_rcv_rate : (performanceRow env job last lastUtil).number "rcv_rate" =
    some (job.info.rcvRate / CxxFloat.lit 1024 1) :=
  congrArg some (map_div_getD _ _ _)

/-- The rate of the incoming traffic stands in the column for the outgoing traffic. -/
theorem number_send_rate_rate :
    (performanceRow env job last lastUtil).number ("send_rate" ++ "_rate") =
      some (relativeChange last.netInRate (perfSample job.info).netInRate) :=
  congrArg some (rate_eq _ _)

theorem number_rcv_rate_rate :
    (performanceRow env job last lastUtil).number ("rcv_rate" ++ "_rate") =
      some (relativeChange last.netOutRate (perfSample job.info).netOutRate) :=
  congrArg some (rate_eq _ _)

end Row

/-- The rates of a row agree with the values of the previous one exactly when the traffic in both
directions changed in the same proportion. -/
theorem ratesAgree_iff (env : Env) (prev job : Job ℚ) (last : PerfSample ℚ)
    (lastUtil : Option ℚ) :
    RatesAgree (performanceRow env prev last lastUtil)
        (performanceRow env job (perfSample prev.info) (some (diskUtil prev.info))) ↔
      SameNetChange prev.info job.info := by
  have hc := lit_1024_ne_zero
  have hin : relativeChange (perfSample prev.info).netInRate (perfSample job.info).netInRate =
      relativeChange prev.info.rcvRate job.info.rcvRate := by
    rw [netInRate_eq, netInRate_eq, relativeChange_div _ _ (mul_ne_zero hc hc)]
  have hout : relativeChange (perfSample prev.info).netOutRate (perfSample job.info).netOutRate =
      relativeChange prev.info.sendRate job.info.sendRate := by
    rw [netOutRate_eq, netOutRate_eq, relativeChange_div _ _ (mul_ne_zero hc hc)]
  constructor
  · intro hagree
    obtain ⟨a, b, ha, hb, hr⟩ := hagree "send_rate" (by rw [companions_eq]; decide)
    rw [number_send_rate, Option.some.injEq] at ha hb
    rw [number_send_rate_rate, hin, Option.some.injEq, ← ha, ← hb, relativeChange_div _ _ hc] at hr
    exact hr.symm
  · intro hsame x hx
    by_cases hsend : x = "send_rate"
    · subst hsend
      refine ⟨_, _, number_send_rate env prev last lastUtil, number_send_rate .., ?_⟩
      rw [number_send_rate_rate, hin, relativeChange_div _ _ hc, hsame]
    by_cases hrcv : x = "rcv_rate"
    · subst hrcv
      refine ⟨_, _, number_rcv_rate env prev last lastUtil, number_rcv_rate .., ?_⟩
      rw [number_rcv_rate_rate, hout, relativeChange_div _ _ hc, hsame]
    -- every other rate is computed from the snapshots of the value next to it
    rw [companions_eq] at hx
    simp only [List.mem_cons, List.not_mem_nil, or_false] at hx
    rcases hx with rfl | rfl | rfl | rfl | rfl | rfl | rfl | rfl | rfl | rfl | rfl | rfl | rfl |
      rfl | rfl | rfl | rfl | rfl
    all_goals first
      | exact absurd rfl hsend
      | exact absurd rfl hrcv
      | exact ⟨_, _, rfl, rfl, congrArg some (rate_eq _ _)⟩

/-! ### The rows of a run -/

/-- The statement inserts into `server_performance`. -/
def Insert.isPerformance {F : Type} (statement : Insert F) : Bool :=
  statement.table == "server_performance"

section Run

variable {F : Type} [CxxFloat F]

theorem isPerformance_writeDetails {hostName : String} {shardIdx : ℕ} {timeBuf : ClockText.Tm}
    {info : MonitorInfo F} {store : Store F} {statement : Insert F}
    (hmem : statement ∈ (writeDetails hostName shardIdx timeBuf info store).2) :
    statement.isPerformance = false := by
  obtain ⟨_, _, rfl⟩ | ⟨_, _, rfl⟩ | ⟨_, _, rfl⟩ | ⟨_, _, rfl⟩ := mem_writeDetails _ _ _ hmem
  all_goals rfl

end Run

/-- A report processed with a connection yields one row, and the histories remember it. -/
theorem processData_connected (env : Env) (thread : ℕ) (store : Store ℚ) {job : Job ℚ}
    (hconn : job.connection = .connected) (hid : serverIdentifier job.info ≠ "") :
    let host := serverIdentifier job.info
    let shard := shardIndex env.hash env.threadCount host
    let next := processData env thread store job
    next.2.filter Insert.isPerformance = [performanceRow env job
        ((store.lastPerfSamplesShards shard host).getD 0) (store.lastDiskUtil thread host)] ∧
      next.1.lastPerfSamplesShards shard host = some (perfSample job.info) ∧
      next.1.lastDiskUtil thread host = some (diskUtil job.info) := by
  intro host shard next
  have hnext : next = processData env thread store job := rfl
  simp only [processData, if_neg hid, writeToMysql, hconn] at hnext
  rw [hnext]
  refine ⟨?_, HostMap.put_self _ _ _ _, HostMap.put_self _ _ _ _⟩
  rw [List.filter_cons_of_pos rfl, List.filter_eq_nil_iff.2]
  · rfl
  · intro statement hmem
    rw [isPerformance_writeDetails hmem]
    exact Bool.false_ne_true

/-- The rows of `server_performance` that a sequence of reports produces. -/
def performanceRows (env : Env) (thread : ℕ) (store : Store ℚ) (jobs : List (Job ℚ)) :
    List (Insert ℚ) :=
  (runOutputs (processData env thread) store jobs).2.filter Insert.isPerformance

theorem performanceRows_cons (env : Env) (thread : ℕ) (store : Store ℚ) {job : Job ℚ}
    (jobs : List (Job ℚ)) (hconn : job.connection = .connected)
    (hid : serverIdentifier job.info ≠ "") :
    performanceRows env thread store (job :: jobs) =
      performanceRow env job
        ((store.lastPerfSamplesShards (shardIndex env.hash env.threadCount
          (serverIdentifier job.info)) (serverIdentifier job.info)).getD 0)
        (store.lastDiskUtil thread (serverIdentifier job.info)) ::
      performanceRows env thread (processData env thread store job).1 jobs := by
  rw [performanceRows, runOutputs, List.filter_append,
    (processData_connected env thread store hconn hid).1]
  rfl

/-- **Values and rates over whole runs.**  Take any sequence of reports of one server, processed
in order by one thread with every connection succeeding, from any store.  In all consecutive rows
of `server_performance` every rate column agrees with its value column if and only if, between all
consecutive reports, the send rate and the receive rate of the first interface change in the same
proportion. -/
theorem rates_agree_iff (env : Env) (thread : ℕ) (store : Store ℚ) (host : String)
    (hhost : host ≠ "") (jobs : List (Job ℚ))
    (hjobs : ∀ job ∈ jobs, serverIdentifier job.info = host ∧ job.connection = .connected) :
    (performanceRows env thread store jobs).IsChain RatesAgree ↔
      jobs.IsChain fun prev job => SameNetChange prev.info job.info := by
  induction jobs generalizing store with
  | nil => exact iff_of_true List.IsChain.nil List.IsChain.nil
  | cons job rest ih =>
    obtain ⟨hid, hconn⟩ := hjobs job List.mem_cons_self
    have hne : serverIdentifier job.info ≠ "" := hid ▸ hhost
    have hrest := fun j hj => hjobs j (List.mem_cons_of_mem job hj)
    rw [performanceRows_cons env thread store rest hconn hne]
    cases rest with
    | nil => exact iff_of_true (List.IsChain.singleton _) (List.IsChain.singleton _)
    | cons job' rest =>
      obtain ⟨hid', hconn'⟩ := hrest job' List.mem_cons_self
      have hne' : serverIdentifier job'.info ≠ "" := hid' ▸ hhost
      have ih' := ih (processData env thread store job).1 hrest
      obtain ⟨-, hlast, hutil⟩ := processData_connected env thread store hconn hne
      rw [hid] at hlast hutil
      rw [performanceRows_cons env thread _ rest hconn' hne', hid', hlast, hutil] at ih' ⊢
      rw [List.isChain_cons_cons, List.isChain_cons_cons, ih', Option.getD_some, ratesAgree_iff]

/-- A report of the host `web` with one interface. -/
def trafficReport (sendRate rcvRate : ℚ) : Job ℚ where
  info := { name := "web", netInfo := [⟨"eth0", sendRate, rcvRate, 0, 0, 0, 0, 0, 0⟩] }
  now := 0
  connection := .connected

/-- Four threads, with a constant hash and a clock that stands still. -/
def someEnv : Env := ⟨fun _ => 0, 4, fun _ => ⟨2024, 1, 1, 0, 0, 0⟩⟩

theorem rates_agree_proportional :
    (performanceRows someEnv 0 {} [trafficReport 1 10, trafficReport 2 20]).IsChain RatesAgree :=
  (rates_agree_iff someEnv 0 {} "web" (by decide) _
    (by intro job hjob; simp at hjob; rcases hjob with rfl | rfl <;> decide)).2
    (List.isChain_pair.2 (by norm_num [SameNetChange, relativeChange, trafficReport,
      MonitorInfo.sendRate, MonitorInfo.rcvRate]))

/-- When only the send rate doubles, it is the rate of the receive rate that says so. -/
theorem rates_exchanged :
    ¬ ∀ (env : Env) (thread : ℕ) (host : String) (jobs : List (Job ℚ)), host ≠ "" →
      (∀ job ∈ jobs, serverIdentifier job.info = host ∧ job.connection = .connected) →
      (performanceRows env thread {} jobs).IsChain RatesAgree := by
  intro hclaim
  have hrows := hclaim someEnv 0 "web" [trafficReport 1 1, trafficReport 2 1] (by decide)
    (by intro job hjob; simp at hjob; rcases hjob with rfl | rfl <;> decide)
  have hid : ∀ a b, serverIdentifier (trafficReport a b).info ≠ "" := by
    intro a b
    show "web" ≠ ""
    decide
  rw [performanceRows_cons someEnv 0 _ _ rfl (hid 1 1),
    performanceRows_cons someEnv 0 _ _ rfl (hid 2 1), List.isChain_cons_cons] at hrows
  have hsame := (ratesAgree_iff someEnv (trafficReport 1 1) (trafficReport 2 1) _ _).1 hrows.1
  norm_num [SameNetChange, relativeChange, trafficReport, MonitorInfo.sendRate,
    MonitorInfo.rcvRate] at hsame

end MonitorSystem
