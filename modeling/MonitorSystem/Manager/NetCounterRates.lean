import MonitorSystem.Library.LastSeen
import MonitorSystem.Manager.PerformanceRows
import MonitorSystem.Manager.Tables

/-!
# The rates of the error and drop counters

For each interface of a report `WriteToMysql` writes four counters of 64 bits, and for each of them
the change relative to what the last report with this interface had (`tracks_netCache`).  The
difference is taken in unsigned arithmetic.  After a restart of the interface or of its host the
counters begin again from zero, and the change is then no negative number but a huge one.
`net_counter_rates_iff` says for which sequences of reports every rate is a relative change.
-/

namespace MonitorSystem

open LastSeen (Previous Tracks)

/-! ### Relative changes of counters -/

/-- What the change of a counter is since the last report with its interface, if there is one. -/
def counterChange (last : Option UInt64) (curr : UInt64) : ℚ :=
  last.elim 0 fun last => relativeChange last.toNat curr.toNat

/-- A rate is the change of a counter, which is at least -1, and negative exactly for a counter that
has decreased. -/
structure IsChange (last : Option UInt64) (curr : UInt64) (r : ℚ) : Prop where
  eq : r = counterChange last curr
  ge : -1 ≤ r
  neg_iff : r < 0 ↔ ∃ old, last = some old ∧ curr < old

theorem neg_one_le_relativeChange (a b : ℕ) : -1 ≤ relativeChange a b := by
  unfold relativeChange
  split_ifs with ha
  · norm_num
  · have hpos : (0 : ℚ) < a := lt_of_le_of_ne a.cast_nonneg (Ne.symm ha)
    have hb : (0 : ℚ) ≤ b := b.cast_nonneg
    rw [le_div_iff₀ hpos]
    linarith

theorem relativeChange_neg_iff (a b : ℕ) : relativeChange a b < 0 ↔ b < a := by
  unfold relativeChange
  split_ifs with ha
  · have hzero : a = 0 := by exact_mod_cast ha
    simp [hzero]
  · have hpos : (0 : ℚ) < a := lt_of_le_of_ne a.cast_nonneg (Ne.symm ha)
    rw [div_lt_iff₀ hpos, zero_mul, sub_neg, Nat.cast_lt]

/-- The bounds follow from the value. -/
theorem isChange_iff (last : Option UInt64) (curr : UInt64) (r : ℚ) :
    IsChange last curr r ↔ r = counterChange last curr := by
  refine ⟨IsChange.eq, ?_⟩
  rintro rfl
  cases last with
  | none => exact ⟨rfl, by norm_num [counterChange], by simp [counterChange]⟩
  | some last =>
    refine ⟨rfl, neg_one_le_relativeChange _ _, ?_⟩
    show relativeChange _ _ < 0 ↔ _
    rw [relativeChange_neg_iff, ← UInt64.lt_iff_toNat_lt]
    simp

theorem rateU64_eq (now last : UInt64) : (rateU64 now last : ℚ) =
    if last = 0 then 0 else ((now - last).toNat : ℚ) / last.toNat := by
  unfold rateU64
  by_cases h : last = 0
  · rw [if_pos h]
    exact if_pos (beq_iff_eq.2 h)
  · rw [if_neg h]
    exact if_neg fun hb => h (beq_iff_eq.1 hb)

/-- The lambda `rate_u64` is never negative. -/
theorem rateU64_nonneg (now last : UInt64) : 0 ≤ (rateU64 now last : ℚ) := by
  rw [rateU64_eq]
  split_ifs
  · rfl
  · positivity

/-- For a first report the lambda gets a zero. -/
theorem rateU64_first (now : UInt64) : (rateU64 now 0 : ℚ) = counterChange none now := rfl

/-- The lambda yields the change of a counter that has not decreased, and of no other. -/
theorem rateU64_eq_counterChange_iff (now last : UInt64) :
    rateU64 now last = counterChange (some last) now ↔ last ≤ now := by
  show _ = relativeChange _ _ ↔ _
  constructor
  · intro heq
    have hnonneg := rateU64_nonneg now last
    rw [heq] at hnonneg
    rw [UInt64.le_iff_toNat_le]
    exact not_lt.1 fun hlt => absurd ((relativeChange_neg_iff _ _).2 hlt) (not_lt.2 hnonneg)
  · intro hle
    rw [rateU64_eq, relativeChange, UInt64.toNat_sub_of_le _ _ hle,
      Nat.cast_sub (UInt64.le_iff_toNat_le.1 hle)]
    have hzero : (last.toNat : ℚ) = 0 ↔ last = 0 := by
      rw [Nat.cast_eq_zero, ← UInt64.toNat_zero, UInt64.toNat_inj]
    simp only [hzero]

/-! ### The rows of one report -/

/-- The counters with a column for their change. -/
inductive NetCounter
  | errIn
  | errOut
  | dropIn
  | dropOut

/-- The column for the change of a counter. -/
def NetCounter.column : NetCounter → String
  | .errIn => "err_in_rate"
  | .errOut => "err_out_rate"
  | .dropIn => "drop_in_rate"
  | .dropOut => "drop_out_rate"

/-- The counter of an interface. -/
def NetCounter.of {F : Type} (net : NetInfo F) : NetCounter → UInt64
  | .errIn => net.errIn
  | .errOut => net.errOut
  | .dropIn => net.dropIn
  | .dropOut => net.dropOut

/-- The counter in the history of an interface. -/
def NetCounter.kept {F : Type} (last : NetDetailSample F) : NetCounter → UInt64
  | .errIn => last.errIn
  | .errOut => last.errOut
  | .dropIn => last.dropIn
  | .dropOut => last.dropOut

/-- The statement inserts into `server_net_detail`. -/
def Insert.isNetDetail {F : Type} (statement : Insert F) : Bool :=
  statement.table == "server_net_detail"

/-- A report of a host, with different names of its interfaces, for which the connection to MySQL
succeeds. -/
structure HostReport (host : String) where
  job : Job ℚ
  identifier : serverIdentifier job.info = host
  connected : job.connection = .connected
  nodup : (job.info.netInfo.map (·.name)).Nodup

/-- The row of `server_net_detail` for an interface, when the host has the history `samples`. -/
def netRow (env : Env) (host : String) (now : ℤ) (samples : String → Option (NetDetailSample ℚ))
    (net : NetInfo ℚ) : Insert ℚ :=
  netInsert host (env.localtime (now.tdiv 1000000000)) net (netDetailSample net)
    ((samples net.name).getD 0)

/-- The history of the interfaces of a host. -/
def Store.netSamples (env : Env) (host : String) (store : Store ℚ) :
    String → Option (NetDetailSample ℚ) :=
  store.lastNetSamplesShards (shardIndex env.hash env.threadCount host) host

section Report

variable (env : Env) (thread : ℕ) (store : Store ℚ) {host : String}

/-- Of the detail tables only the loop over the interfaces writes to `server_net_detail`. -/
theorem filter_writeDetails (hostName : String) (shardIdx : ℕ) (timeBuf : ClockText.Tm)
    (info : MonitorInfo ℚ) :
    (writeDetails hostName shardIdx timeBuf info store).2.filter Insert.isNetDetail =
      (writeDetail (·.name) netDetailSample (netInsert hostName timeBuf) shardIdx hostName
        info.netInfo store.lastNetSamplesShards).2 := by
  have hmemory : (writeMemDetail hostName shardIdx timeBuf info.memInfo
      store.lastMemSamplesShards).2.filter Insert.isNetDetail = [] := by
    cases info.memInfo <;> rfl
  simp only [writeDetails, List.filter_append, hmemory]
  rw [List.filter_eq_self.2, List.filter_eq_nil_iff.2, List.filter_eq_nil_iff.2, List.append_nil,
    List.append_nil, List.append_nil]
  · intro statement hmem
    obtain ⟨disk, -, last, rfl⟩ := mem_writeDetail _ hmem
    exact Bool.false_ne_true
  · intro statement hmem
    obtain ⟨sirq, -, last, rfl⟩ := mem_writeDetail _ hmem
    exact Bool.false_ne_true
  · intro statement hmem
    obtain ⟨net, -, last, rfl⟩ := mem_writeDetail _ hmem
    rfl

/-- What a report does to `server_net_detail` and to the history of the interfaces is the loop over
its interfaces. -/
theorem processData_net (hhost : host ≠ "") (report : HostReport host) :
    let loop := CachedLoop.loop (·.name)
      (fun net last => some (netInsert host (env.localtime (report.job.now.tdiv 1000000000)) net
        (netDetailSample net) (last.getD 0)))
      netDetailSample report.job.info.netInfo (store.netSamples env host)
    (processData env thread store report.job).2.filter Insert.isNetDetail = loop.1 ∧
      (processData env thread store report.job).1.netSamples env host = loop.2 := by
  obtain ⟨job, rfl, hconn, -⟩ := report
  simp only [processData, if_neg hhost, writeToMysql, hconn]
  rw [List.filter_cons_of_neg Bool.false_ne_true, filter_writeDetails]
  exact (writeDetail_eq_loop ..).symm

variable {env thread store}

/-- Each interface has one row, with the rates against the history. -/
theorem netRows_processData (hhost : host ≠ "") (report : HostReport host) :
    (processData env thread store report.job).2.filter Insert.isNetDetail =
      report.job.info.netInfo.map (netRow env host report.job.now (store.netSamples env host)) := by
  rw [(processData_net env thread store hhost report).1, CachedLoop.loop_messages report.nodup]
  exact congrFun List.filterMap_eq_map _

end Report

/-! ### A sequence of reports -/

section Reports

variable (env : Env) (thread : ℕ) {host : String} (reports : ℕ → HostReport host)

/-- The store before report `n`. -/
def storeAt : ℕ → Store ℚ
  | 0 => {}
  | n + 1 => (processData env thread (storeAt n) (reports n).job).1

/-- The rows of `server_net_detail` for report `n`. -/
def netRowsAt (n : ℕ) : List (Insert ℚ) :=
  (processData env thread (storeAt env thread reports n) (reports n).job).2.filter
    Insert.isNetDetail

/-- The interfaces of the reports, with their names. -/
def interfacesAt (n : ℕ) : List (String × NetInfo ℚ) :=
  (reports n).job.info.netInfo.map fun net => (net.name, net)

theorem mem_interfacesAt {n : ℕ} {name : String} {net : NetInfo ℚ} :
    (name, net) ∈ interfacesAt reports n ↔
      net ∈ (reports n).job.info.netInfo ∧ net.name = name := by
  simp only [interfacesAt, List.mem_map, Prod.mk.injEq]
  constructor
  · rintro ⟨net', hnet, rfl, rfl⟩
    exact ⟨hnet, rfl⟩
  · rintro ⟨hnet, rfl⟩
    exact ⟨net, hnet, rfl, rfl⟩

/-- The history of the interfaces follows the reports. -/
theorem tracks_netCache (hhost : host ≠ "") : Tracks (interfacesAt reports)
    (fun _ _ net => netDetailSample net)
    (fun n => (storeAt env thread reports n).netSamples env host) where
  start _ := rfl
  seen n name net hmem := by
    obtain ⟨hnet, rfl⟩ := (mem_interfacesAt reports).1 hmem
    show (processData env thread _ (reports n).job).1.netSamples env host net.name = _
    rw [(processData_net env thread _ hhost (reports n)).2]
    exact CachedLoop.loop_cache_of_mem (reports n).nodup hnet
  unseen n name hmem := by
    rw [interfacesAt, List.map_map] at hmem
    show (processData env thread _ (reports n).job).1.netSamples env host name = _
    rw [(processData_net env thread _ hhost (reports n)).2]
    exact CachedLoop.loop_cache_of_notMem hmem

/-- Each interface of report `n` has one row under its name, in order, and the columns of the row
hold the changes of the counters since the last earlier report with this interface. -/
def TrueChanges (n : ℕ) : Prop :=
  List.Forall₂ (fun net row => row.value "net_name" = some (.name net.name) ∧
      ∀ c : NetCounter, ∃ r, row.number c.column = some r ∧
        (∀ i old, Previous (interfacesAt reports) n net.name i old →
          IsChange (some (c.of old)) (c.of net) r) ∧
        ((∀ i old, ¬ Previous (interfacesAt reports) n net.name i old) →
          IsChange none (c.of net) r))
    (reports n).job.info.netInfo (netRowsAt env thread reports n)

/-- In report `n` no counter is below what the last earlier report with its interface had. -/
def NoDecrease (n : ℕ) : Prop :=
  ∀ net ∈ (reports n).job.info.netInfo, ∀ i old,
    Previous (interfacesAt reports) n net.name i old → ∀ c : NetCounter, c.of old ≤ c.of net

variable {env thread reports}

theorem netName_netRow (now : ℤ) (samples : String → Option (NetDetailSample ℚ)) (net : NetInfo ℚ) :
    (netRow env host now samples net).value "net_name" = some (.name net.name) := rfl

theorem number_netRow (now : ℤ) (samples : String → Option (NetDetailSample ℚ)) (net : NetInfo ℚ)
    (c : NetCounter) : (netRow env host now samples net).number c.column =
      some (rateU64 (c.of net) (c.kept ((samples net.name).getD 0))) := by
  cases c <;> rfl

theorem kept_netDetailSample (net : NetInfo ℚ) (c : NetCounter) :
    c.kept (netDetailSample net) = c.of net := by
  cases c <;> rfl

theorem kept_zero (c : NetCounter) : c.kept (0 : NetDetailSample ℚ) = 0 := by
  cases c <;> rfl

/-- The rows of one report hold the changes if and only if no counter in it has decreased. -/
theorem trueChanges_iff (hhost : host ≠ "") (n : ℕ) :
    TrueChanges env thread reports n ↔ NoDecrease reports n := by
  have htracks := tracks_netCache env thread reports hhost
  rw [TrueChanges, netRowsAt, netRows_processData hhost, List.forall₂_map_right_iff,
    List.forall₂_same]
  refine forall₂_congr fun net hnet => ?_
  simp only [netName_netRow, true_and, number_netRow, Option.some.injEq, exists_eq_left']
  cases hcache : (storeAt env thread reports n).netSamples env host net.name with
  | none =>
    have hfirst : ∀ i old, ¬ Previous (interfacesAt reports) n net.name i old := by
      intro i old hprev
      have hsome := htracks.eq_some hprev
      rw [hcache] at hsome
      cases hsome
    refine iff_of_true (fun c => ⟨fun i old hprev => absurd hprev (hfirst i old), fun _ => ?_⟩)
      fun i old hprev => absurd hprev (hfirst i old)
    rw [isChange_iff, Option.getD_none, kept_zero, rateU64_first]
  | some kept =>
    have hkept : ∀ i old, Previous (interfacesAt reports) n net.name i old →
        ∀ c : NetCounter, c.kept kept = c.of old := by
      intro i old hprev c
      obtain rfl := Option.some.inj (hcache.symm.trans (htracks.eq_some hprev))
      exact kept_netDetailSample old c
    obtain ⟨i, old, hprev, -⟩ := htracks.exists_previous hcache
    simp only [isChange_iff, Option.getD_some]
    constructor
    · intro hchanges j old' hprev' c
      have hchange := (hchanges c).1 j old' hprev'
      rwa [hkept j old' hprev' c, rateU64_eq_counterChange_iff] at hchange
    · refine fun hle c => ⟨fun j old' hprev' => ?_, fun hnone => absurd hprev (hnone i old)⟩
      rw [hkept j old' hprev' c, rateU64_eq_counterChange_iff]
      exact hle j old' hprev' c

end Reports

/-- **When the rates of the counters are relative changes.**  Take any sequence of reports of one
host, each with different names of its interfaces, that are processed with every connection
succeeding.  In the rows of the first `n` reports every rate of an error or drop counter is the
change relative to the last earlier report with the interface, if and only if in none of these
reports a counter is below what it was in that report. -/
theorem net_counter_rates_iff (env : Env) (thread : ℕ) {host : String} (hhost : host ≠ "")
    (reports : ℕ → HostReport host) (n : ℕ) :
    (∀ i < n, TrueChanges env thread reports i) ↔ ∀ i < n, NoDecrease reports i :=
  forall₂_congr fun i _ => trueChanges_iff hhost i

/-- A report of the host `web` in which `eth0` has dropped packets. -/
def dropReport (dropIn : UInt64) : HostReport "web" where
  job :=
    { info := { name := "web", netInfo := [⟨"eth0", 0, 0, 0, 0, 0, 0, dropIn, 0⟩] }
      now := 0
      connection := .connected }
  identifier := rfl
  connected := rfl
  nodup := List.nodup_singleton _

/-- `eth0` in that report. -/
theorem mem_dropReport {dropIn : UInt64} {net : NetInfo ℚ}
    (h : net ∈ (dropReport dropIn).job.info.netInfo) :
    net = ⟨"eth0", 0, 0, 0, 0, 0, 0, dropIn, 0⟩ :=
  List.mem_singleton.1 h

/-- Two more packets are dropped between two reports. -/
theorem net_counter_rates_growing :
    TrueChanges someEnv 0 (fun i => dropReport (if i = 0 then 3 else 5)) 1 := by
  refine (net_counter_rates_iff someEnv 0 (by decide) _ 2).2 (fun i hi net hnet j old hprev c => ?_)
    1 (by decide)
  have hj := hprev.lt
  obtain ⟨rfl, rfl⟩ : j = 0 ∧ i = 1 := by omega
  obtain rfl := mem_dropReport hnet
  obtain rfl := mem_dropReport ((mem_interfacesAt _).1 hprev.mem).1
  cases c <;> decide

/-- After a restart the counter has fallen from 5 to 3, and the rate is more than `10 ^ 18`. -/
theorem net_counter_rate_after_restart :
    (¬ ∀ (env : Env) (thread : ℕ) (host : String) (reports : ℕ → HostReport host) (n : ℕ),
      host ≠ "" → ∀ i < n, TrueChanges env thread reports i) ∧
    (netRowsAt someEnv 0 (fun i => dropReport (if i = 0 then 5 else 3)) 1).map
      (·.number "drop_in_rate") = [some ((2 ^ 64 - 2) / 5)] := by
  constructor
  · intro hclaim
    have hchanges := hclaim someEnv 0 "web" (fun i => dropReport (if i = 0 then 5 else 3)) 2
      (by decide) 1 (by decide)
    have hle := (trueChanges_iff (by decide) 1).1 hchanges _ (List.mem_singleton_self _) 0
      ⟨"eth0", 0, 0, 0, 0, 0, 0, 5, 0⟩
      ⟨one_pos, List.mem_singleton_self _, fun j hj hj' => by omega⟩ .dropIn
    exact absurd hle (by decide)
  · decide +kernel

end MonitorSystem
