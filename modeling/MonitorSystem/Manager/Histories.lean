import MonitorSystem.Library.Transition
import MonitorSystem.Manager.PerformanceRows
import MonitorSystem.Manager.Score

/-!
# Histories that are half advanced

A report feeds six histories.  `ProcessData` stores the performance sample before it calls
`WriteToMysql`, which stores the other five after it has connected; when it does not connect, the
first history is one report ahead of the others.  The rates of the next row are then taken against
two different reports.

`histories_advance_together_iff` says for which calls nobody can tell.
-/

namespace MonitorSystem

open Function (update update_self update_of_ne)
open Transition

variable {F : Type}

/-! ### What a report feeds -/

/-- Under the name of each device a map holds the sample of the last entry with that name. -/
def DevicesFed {A S : Type} (nameOf : A → String) (sampleOf : A → S) (devices : List A)
    (m : String → Option S) : Prop :=
  ∀ before a behind, devices = before ++ a :: behind → (∀ b ∈ behind, nameOf b ≠ nameOf a) →
    m (nameOf a) = some (sampleOf a)

/-- The two views agree on the six histories. -/
structure HostView.SameHistories (v v' : HostView F) : Prop where
  perf : v'.perf = v.perf
  net : v'.net = v.net
  softirq : v'.softirq = v.softirq
  mem : v'.mem = v.mem
  disk : v'.disk = v.disk
  diskUtil : v'.diskUtil = v.diskUtil

theorem HostView.SameHistories.trans {v v' v'' : HostView F} (h : v.SameHistories v')
    (h' : v'.SameHistories v'') : v.SameHistories v'' where
  perf := h'.perf.trans h.perf
  net := h'.net.trans h.net
  softirq := h'.softirq.trans h.softirq
  mem := h'.mem.trans h.mem
  disk := h'.disk.trans h.disk
  diskUtil := h'.diskUtil.trans h.diskUtil

section Detail

variable {A S : Type} [Zero S] {nameOf : A → String} {sampleOf : A → S}
  {insertOf : A → S → S → Insert F} {shardIdx : ℕ} {hostName : String}

/-- A loop over devices feeds their history. -/
theorem devicesFed_writeDetail (as : List A) (samples : DeviceMap S) :
    DevicesFed nameOf sampleOf as
      ((writeDetail nameOf sampleOf insertOf shardIdx hostName as samples).1 shardIdx
        hostName) := by
  intro before a behind heq hlast
  rw [(writeDetail_eq_loop nameOf sampleOf insertOf shardIdx hostName as samples).1, heq]
  exact CachedLoop.loop_cache_of_last hlast

end Detail

variable [CxxFloat F]

/-- `shard_idx` for a report. -/
def Env.shardOf (env : Env) (info : MonitorInfo F) : ℕ :=
  shardIndex env.hash env.threadCount (serverIdentifier info)

/-- The five histories that `WriteToMysql` stores hold the values of a report. -/
structure FedByWrite (env : Env) (thread : ℕ) (info : MonitorInfo F) (v : HostView F) : Prop where
  net : DevicesFed (·.name) netDetailSample info.netInfo (v.net (env.shardOf info))
  softirq : DevicesFed (·.cpu) softIrqSample info.softIrq (v.softirq (env.shardOf info))
  mem : ∀ mem, info.memInfo = some mem → v.mem (env.shardOf info) = some (memDetailSample mem)
  disk : DevicesFed (·.name) diskDetailSample info.diskInfo (v.disk (env.shardOf info))
  diskUtil : v.diskUtil thread = some (diskUtil info)

/-- All six histories hold the values of a report. -/
structure Fed (env : Env) (thread : ℕ) (info : MonitorInfo F) (v : HostView F) : Prop extends
    FedByWrite env thread info v where
  perf : v.perf (env.shardOf info) = some (perfSample info)

theorem Fed.of_sameHistories {env : Env} {thread : ℕ} {info : MonitorInfo F} {v v' : HostView F}
    (h : Fed env thread info v) (hsame : v.SameHistories v') : Fed env thread info v' where
  net := by rw [hsame.net]; exact h.net
  softirq := by rw [hsame.softirq]; exact h.softirq
  mem := by rw [hsame.mem]; exact h.mem
  disk := by rw [hsame.disk]; exact h.disk
  diskUtil := by rw [hsame.diskUtil]; exact h.diskUtil
  perf := by rw [hsame.perf]; exact h.perf

/-! ### One call -/

section ProcessData

variable (env : Env) (thread : ℕ) (store : Store F) {job : Job F}

theorem processData_of_empty (hid : serverIdentifier job.info = "") :
    (processData env thread store job).1 = store := by
  rw [processData, if_pos hid]

/-- Without a connection only the performance sample, and the score, are stored. -/
theorem processData_of_not_connected (hid : serverIdentifier job.info ≠ "")
    (hconn : job.connection ≠ .connected) : (processData env thread store job).1 =
      store.remember (env.shardOf job.info) (serverIdentifier job.info) (perfSample job.info)
        ⟨job.info, calcScore job.info, job.now⟩ := by
  simp only [processData, if_neg hid]
  cases h : job.connection with
  | initFailed => rfl
  | connectFailed => rfl
  | connected => exact absurd h hconn

/-- With a connection all six histories are fed. -/
theorem fed_processData (hid : serverIdentifier job.info ≠ "")
    (hconn : job.connection = .connected) : Fed env thread job.info
      ((processData env thread store job).1.view (serverIdentifier job.info)) := by
  simp only [processData, if_neg hid, writeToMysql, hconn]
  exact
    { net := devicesFed_writeDetail _ _
      softirq := devicesFed_writeDetail _ _
      mem := fun mem hmem => by
        simp only [Store.view, writeDetails, hmem]
        exact HostMap.put_self _ _ _ _
      disk := devicesFed_writeDetail _ _
      diskUtil := HostMap.put_self _ _ _ _
      perf := HostMap.put_self _ _ _ _ }

/-- Whatever becomes of the connection, the performance sample of the report is stored. -/
theorem perf_processData (hid : serverIdentifier job.info ≠ "") :
    ((processData env thread store job).1.view (serverIdentifier job.info)).perf
      (env.shardOf job.info) = some (perfSample job.info) := by
  by_cases hconn : job.connection = .connected
  · exact (fed_processData env thread store hid hconn).perf
  · rw [processData_of_not_connected env thread store hid hconn]
    exact HostMap.put_self _ _ _ _

end ProcessData

/-! ### All or none -/

variable (env : Env)

/-- After the call, either all histories that the report feeds hold its values, or no history has
changed. -/
def AllOrNone (store : Store F) (call : ℕ × Job F) : Prop :=
  let host := serverIdentifier call.2.info
  let after := (processData env call.1 store call.2).1
  Fed env call.1 call.2.info (after.view host) ∨ (store.view host).SameHistories (after.view host)

/-- The call connects, or the report has no identifier, or the performance sample of the report is
in its history already, or its other values all are. -/
def Spared (store : Store F) (call : ℕ × Job F) : Prop :=
  let host := serverIdentifier call.2.info
  call.2.connection = .connected ∨ host = "" ∨
    (store.view host).perf (env.shardOf call.2.info) = some (perfSample call.2.info) ∨
    FedByWrite env call.1 call.2.info (store.view host)

variable {env}

theorem allOrNone_iff (store : Store F) (call : ℕ × Job F) :
    AllOrNone env store call ↔ Spared env store call := by
  obtain ⟨thread, job⟩ := call
  by_cases hid : serverIdentifier job.info = ""
  · have hsame : (processData env thread store job).1 = store :=
      processData_of_empty env thread store hid
    refine iff_of_true (.inr ?_) (.inr (.inl hid))
    show HostView.SameHistories _ ((processData env thread store job).1.view _)
    rw [hsame]
    exact ⟨rfl, rfl, rfl, rfl, rfl, rfl⟩
  by_cases hconn : job.connection = .connected
  · exact iff_of_true (.inl (fed_processData env thread store hid hconn)) (.inl hconn)
  have hperf := perf_processData env thread store hid
  have hafter := processData_of_not_connected env thread store hid hconn
  constructor
  · rintro (hfed | hsame)
    · -- the other five are as they were before the call
      have hwrite : FedByWrite env thread job.info _ := hfed.toFedByWrite
      simp only [hafter] at hwrite
      exact .inr (.inr (.inr
        ⟨hwrite.net, hwrite.softirq, hwrite.mem, hwrite.disk, hwrite.diskUtil⟩))
    · refine .inr (.inr (.inl ?_))
      rw [← hperf]
      exact (congrFun hsame.perf _).symm
  · rintro (hconn' | hid' | hheld | hwrite)
    · exact absurd hconn' hconn
    · exact absurd hid' hid
    · refine .inr ?_
      show HostView.SameHistories _ ((processData env thread store job).1.view _)
      rw [hafter]
      refine ⟨?_, rfl, rfl, rfl, rfl, rfl⟩
      funext k
      by_cases hk : k = env.shardOf job.info
      · rw [hk, hheld]
        exact HostMap.put_self _ _ _ _
      · simp only [Store.view, Store.remember, HostMap.put, update_of_ne hk]
    · refine .inl ⟨?_, hperf⟩
      show FedByWrite _ _ _ ((processData env thread store job).1.view _)
      rw [hafter]
      exact ⟨hwrite.net, hwrite.softirq, hwrite.mem, hwrite.disk, hwrite.diskUtil⟩

/-! ### Runs -/

/-- A call of `ProcessData` by some thread. -/
def processStep (env : Env) (store : Store F) (call : ℕ × Job F) : Option (Store F) :=
  some (processData env call.1 store call.2).1

/-- The histories of a host are empty, or they hold the values of one of the reports. -/
def OneReport (env : Env) (reports : Set (MonitorInfo F)) (owner : String → ℕ) (store : Store F) :
    Prop :=
  ∀ host, (({} : Store F).view host).SameHistories (store.view host) ∨
    ∃ info ∈ reports, serverIdentifier info = host ∧ Fed env (owner host) info (store.view host)

theorem oneReport_step {reports : Set (MonitorInfo F)} {owner : String → ℕ} {store : Store F}
    {call : ℕ × Job F} (h : OneReport env reports owner store) (hcall : AllOrNone env store call)
    (howner : call.1 = owner (serverIdentifier call.2.info)) (hmem : call.2.info ∈ reports) :
    OneReport env reports owner (processData env call.1 store call.2).1 := by
  intro host
  by_cases hhost : host = serverIdentifier call.2.info
  · subst hhost
    rcases hcall with hfed | hsame
    · rw [howner] at hfed ⊢
      exact .inr ⟨call.2.info, hmem, rfl, hfed⟩
    · rcases h (serverIdentifier call.2.info) with hempty | ⟨info, hinfo, hid, hfed⟩
      · exact .inl (hempty.trans hsame)
      · exact .inr ⟨info, hinfo, hid, hfed.of_sameHistories hsame⟩
  · rw [view_processData_of_ne env call.1 store call.2 hhost]
    exact h host

/-- **The histories advance together.**  Along a run of calls, from any store, every call feeds
all histories of its report or none if and only if every call connects, or has no identifier, or
finds the performance sample of its report in the history already, or finds all its other values
there.  In such a run from the start of the manager, in which each host stays with one thread, the
histories of every host, from which the rates of its next rows are taken, hold the values of a
single report. -/
theorem histories_advance_together_iff (env : Env) (calls : List (ℕ × Job F)) :
    (∀ store : Store F, Along (processStep env) (AllOrNone env) store calls ↔
      Along (processStep env) (Spared env) store calls) ∧
    (∀ (owner : String → ℕ) (store : Store F),
      (∀ call ∈ calls, call.1 = owner (serverIdentifier call.2.info)) →
      Along (processStep env) (Spared env) {} calls →
      run (processStep env) {} calls = some store →
      OneReport env {info | ∃ call ∈ calls, call.2.info = info} owner store) := by
  refine ⟨fun store => along_congr allOrNone_iff store calls, fun owner store howner hspared hrun =>
    ?_⟩
  have hevents : Along (processStep env) (fun _ call => call ∈ calls) ({} : Store F) calls :=
    along_of_forall (fun call hcall => hcall) _
  refine run_invariant_along (P := fun store call => Spared env store call ∧ call ∈ calls)
    (fun s call s' hs hcall hstep => ?_) hrun (hspared.and hevents)
    (fun host => .inl ⟨rfl, rfl, rfl, rfl, rfl, rfl⟩)
  cases hstep
  exact oneReport_step hs ((allOrNone_iff s call).2 hcall.1) (howner call hcall.2)
    ⟨call, hcall.2, rfl⟩

/-- A report of the host `web` with a load and one disk. -/
def loadReport (load utilPercent : ℚ) (connection : Connection) : Job ℚ where
  info := { name := "web", cpuLoad := some ⟨load, 0, 0⟩, diskInfo := [diskAt "sda" utilPercent] }
  now := 0
  connection := connection

/-- Two reports that are written. -/
def twoReports : List (ℕ × Job ℚ) :=
  [(0, loadReport 1 10 .connected), (0, loadReport 2 20 .connected)]

theorem histories_advance_together_twice :
    OneReport someEnv {info | ∃ call ∈ twoReports, call.2.info = info} (fun _ => 0)
      (processData someEnv 0 (processData someEnv 0 {} (loadReport 1 10 .connected)).1
        (loadReport 2 20 .connected)).1 :=
  (histories_advance_together_iff someEnv twoReports).2 (fun _ => 0) _ (by simp [twoReports])
    ⟨.inl rfl, fun _ _ => ⟨.inl rfl, fun _ _ => trivial⟩⟩ rfl

/-- When the second of three connections fails, the row of the third report compares the load with
the second report and the utilisation of the disk with the first. -/
theorem histories_half_advanced :
    (¬ ∀ (env : Env) (store : Store ℚ) (calls : List (ℕ × Job ℚ)),
      Along (processStep env) (AllOrNone env) store calls) ∧
    ((runOutputs (processData someEnv 0) {} [loadReport 1 10 .connected,
        loadReport 2 20 .connectFailed, loadReport 4 40 .connected]).2.filter
      Insert.isPerformance).map (fun row =>
        (row.number "load_avg_1_rate", row.number "disk_util_percent_rate")) =
      [(some 0, some 0), (some 1, some 3)] := by
  constructor
  · intro hclaim
    have hsecond := ((hclaim someEnv {} [(0, loadReport 1 10 .connected),
      (0, loadReport 2 20 .connectFailed)]).2 _ rfl).1
    rcases (allOrNone_iff _ _).1 hsecond with hconn | hid | hperf | hwrite
    · exact absurd hconn (by decide)
    · exact absurd hid (by decide)
    · have hload := congrArg (Option.map PerfSample.loadAvg1) hperf
      revert hload
      decide +kernel
    · have hutil := hwrite.diskUtil
      revert hutil
      decide +kernel
  · decide +kernel

end MonitorSystem
