import MonitorSystem.Library.CachedLoop
import MonitorSystem.Library.Unwinding
import MonitorSystem.Manager.ProcessData

/-!
# Hosts do not interfere

`HostView h` is everything the manager remembers of the host `h`: its entries in every history, in
every shard, and its row of `host_scores_`.  Processing a report of another host leaves it alone
and issues no statement for `h`; processing a report of `h` reads nothing else.  By unwinding, the
reports of other hosts make no difference to `h`.
-/

namespace MonitorSystem

open Function (update update_self update_of_ne)

variable {F : Type}

/-- What the manager remembers of one host. -/
structure HostView (F : Type) where
  perf : ℕ → Option (PerfSample F)
  net : ℕ → String → Option (NetDetailSample F)
  softirq : ℕ → String → Option (SoftIrqSample F)
  mem : ℕ → Option (MemDetailSample F)
  disk : ℕ → String → Option (DiskDetailSample F)
  diskUtil : ℕ → Option F
  score : Option (HostScore F)

/-- The entries of the host `h`. -/
def Store.view (h : String) (store : Store F) : HostView F where
  perf k := store.lastPerfSamplesShards k h
  net k := store.lastNetSamplesShards k h
  softirq k := store.lastSoftirqSamplesShards k h
  mem k := store.lastMemSamplesShards k h
  disk k := store.lastDiskSamplesShards k h
  diskUtil k := store.lastDiskUtil k h
  score := store.hostScores h

/-! ### Single writes -/

theorem view_remember_of_ne {h hostName : String} (hne : h ≠ hostName) (store : Store F)
    (shardIdx : ℕ) (curr : PerfSample F) (hostScore : HostScore F) :
    (store.remember shardIdx hostName curr hostScore).view h = store.view h := by
  simp only [Store.remember, Store.view, HostView.mk.injEq, true_and]
  exact ⟨funext fun k => HostMap.put_of_ne _ _ _ _ hne, update_of_ne hne _ _⟩

theorem view_remember_congr {hostName : String} {store store' : Store F}
    (hsame : store.view hostName = store'.view hostName) (shardIdx : ℕ) (curr : PerfSample F)
    (hostScore : HostScore F) :
    (store.remember shardIdx hostName curr hostScore).view hostName =
      (store'.remember shardIdx hostName curr hostScore).view hostName := by
  simp only [Store.view, HostView.mk.injEq] at hsame
  obtain ⟨hperf, hnet, hsoftirq, hmem, hdisk, hutil, -⟩ := hsame
  simp only [Store.remember, Store.view, HostView.mk.injEq, update_self, and_true]
  exact ⟨funext (HostMap.put_congr (congrFun hperf) _ _), hnet, hsoftirq, hmem, hdisk, hutil⟩

theorem view_rememberDiskUtil_of_ne {h hostName : String} (hne : h ≠ hostName) (store : Store F)
    (thread : ℕ) (diskUtilPercent : F) :
    (store.rememberDiskUtil thread hostName diskUtilPercent).view h = store.view h := by
  simp only [Store.rememberDiskUtil, Store.view, HostView.mk.injEq, true_and, and_true]
  exact funext fun k => HostMap.put_of_ne _ _ _ _ hne

theorem view_rememberDiskUtil_congr {hostName : String} {store store' : Store F}
    (hsame : store.view hostName = store'.view hostName) (thread : ℕ) (diskUtilPercent : F) :
    (store.rememberDiskUtil thread hostName diskUtilPercent).view hostName =
      (store'.rememberDiskUtil thread hostName diskUtilPercent).view hostName := by
  simp only [Store.view, HostView.mk.injEq] at hsame
  obtain ⟨hperf, hnet, hsoftirq, hmem, hdisk, hutil, hscore⟩ := hsame
  simp only [Store.rememberDiskUtil, Store.view, HostView.mk.injEq]
  exact ⟨hperf, hnet, hsoftirq, hmem, hdisk, funext (HostMap.put_congr (congrFun hutil) _ _),
    hscore⟩

/-! ### Loops -/

section Detail

variable {A S : Type} [Zero S] {nameOf : A → String} {sampleOf : A → S}
  {insertOf : A → S → S → Insert F} {shardIdx : ℕ} {hostName : String}

/-- A loop over devices changes nothing but the samples of its host in its shard. -/
theorem writeDetail_elsewhere {k : ℕ} {h : String} (hne : k ≠ shardIdx ∨ h ≠ hostName)
    (as : List A) (samples : DeviceMap S) :
    (writeDetail nameOf sampleOf insertOf shardIdx hostName as samples).1 k h = samples k h := by
  induction as generalizing samples with
  | nil => rfl
  | cons a as ih =>
    show (writeDetail nameOf sampleOf insertOf shardIdx hostName as
      (samples.put shardIdx hostName (nameOf a) (sampleOf a))).1 k h = _
    rw [ih, DeviceMap.put_elsewhere _ _ _ hne]

variable (nameOf sampleOf insertOf shardIdx hostName) in
/-- There it is a loop over rows with a cache. -/
theorem writeDetail_eq_loop (as : List A) (samples : DeviceMap S) :
    let loop := CachedLoop.loop nameOf
      (fun a last => some (insertOf a (sampleOf a) (last.getD 0))) sampleOf as
      (samples shardIdx hostName)
    (writeDetail nameOf sampleOf insertOf shardIdx hostName as samples).1 shardIdx hostName =
        loop.2 ∧
      (writeDetail nameOf sampleOf insertOf shardIdx hostName as samples).2 = loop.1 := by
  induction as generalizing samples with
  | nil => exact ⟨rfl, rfl⟩
  | cons a as ih =>
    obtain ⟨ihmap, ihout⟩ := ih (samples.put shardIdx hostName (nameOf a) (sampleOf a))
    rw [DeviceMap.put_same] at ihmap ihout
    exact ⟨ihmap, congrArg (List.cons _) ihout⟩

/-- A loop over devices leaves the samples of the other hosts alone. -/
theorem writeDetail_of_ne {h : String} (hne : h ≠ hostName) (k : ℕ) (as : List A)
    (samples : DeviceMap S) :
    (writeDetail nameOf sampleOf insertOf shardIdx hostName as samples).1 k h = samples k h :=
  writeDetail_elsewhere (.inr hne) as samples

variable (nameOf sampleOf insertOf shardIdx) in
/-- A loop over devices depends on the samples of its host only. -/
theorem writeDetail_congr (as : List A) {samples samples' : DeviceMap S}
    (hsame : ∀ k, samples k hostName = samples' k hostName) :
    (∀ k, (writeDetail nameOf sampleOf insertOf shardIdx hostName as samples).1 k hostName =
      (writeDetail nameOf sampleOf insertOf shardIdx hostName as samples').1 k hostName) ∧
    (writeDetail nameOf sampleOf insertOf shardIdx hostName as samples).2 =
      (writeDetail nameOf sampleOf insertOf shardIdx hostName as samples').2 := by
  obtain ⟨hmap, hout⟩ := writeDetail_eq_loop nameOf sampleOf insertOf shardIdx hostName as samples
  obtain ⟨hmap', hout'⟩ :=
    writeDetail_eq_loop nameOf sampleOf insertOf shardIdx hostName as samples'
  rw [hout, hout', hsame]
  refine ⟨fun k => ?_, rfl⟩
  by_cases hk : k = shardIdx
  · rw [hk, hmap, hmap', hsame]
  · rw [writeDetail_elsewhere (.inl hk), writeDetail_elsewhere (.inl hk), hsame]

/-- Every statement of a loop over devices is one of its turns'. -/
theorem mem_writeDetail {statement : Insert F} (as : List A) {samples : DeviceMap S}
    (hmem : statement ∈ (writeDetail nameOf sampleOf insertOf shardIdx hostName as samples).2) :
    ∃ a ∈ as, ∃ last, statement = insertOf a (sampleOf a) last := by
  rw [(writeDetail_eq_loop ..).2] at hmem
  obtain ⟨a, ha, last, hstatement⟩ := CachedLoop.exists_of_mem_loop hmem
  exact ⟨a, ha, last.getD 0, (Option.some.inj hstatement).symm⟩

end Detail

variable [CxxFloat F]

section Mem

variable {hostName : String} (shardIdx : ℕ) (timeBuf : ClockText.Tm) (mem? : Option (MemInfo F))

theorem writeMemDetail_of_ne {h : String} (hne : h ≠ hostName) (k : ℕ)
    (samples : HostMap (MemDetailSample F)) :
    (writeMemDetail hostName shardIdx timeBuf mem? samples).1 k h = samples k h := by
  cases mem? with
  | none => rfl
  | some mem => exact HostMap.put_of_ne _ _ _ _ hne

theorem writeMemDetail_congr {samples samples' : HostMap (MemDetailSample F)}
    (hsame : ∀ k, samples k hostName = samples' k hostName) :
    (∀ k, (writeMemDetail hostName shardIdx timeBuf mem? samples).1 k hostName =
      (writeMemDetail hostName shardIdx timeBuf mem? samples').1 k hostName) ∧
    (writeMemDetail hostName shardIdx timeBuf mem? samples).2 =
      (writeMemDetail hostName shardIdx timeBuf mem? samples').2 := by
  cases mem? with
  | none => exact ⟨hsame, rfl⟩
  | some mem =>
    refine ⟨HostMap.put_congr hsame shardIdx _, ?_⟩
    simp only [writeMemDetail]
    rw [hsame]

end Mem

section Details

variable {hostName : String} (shardIdx : ℕ) (timeBuf : ClockText.Tm) (info : MonitorInfo F)

/-- The detail tables leave the other hosts alone. -/
theorem view_writeDetails_of_ne {h : String} (hne : h ≠ hostName) (store : Store F) :
    (writeDetails hostName shardIdx timeBuf info store).1.view h = store.view h := by
  simp only [writeDetails, Store.view, HostView.mk.injEq, true_and, and_true]
  refine ⟨?_, ?_, ?_, ?_⟩
  · exact funext fun k => writeDetail_of_ne hne k _ _
  · exact funext fun k => writeDetail_of_ne hne k _ _
  · exact funext fun k => writeMemDetail_of_ne _ _ _ hne k _
  · exact funext fun k => writeDetail_of_ne hne k _ _

/-- Every statement of the detail tables is about an interface, a CPU, the memory or a disk of the
report. -/
theorem mem_writeDetails {store : Store F} {statement : Insert F}
    (hmem : statement ∈ (writeDetails hostName shardIdx timeBuf info store).2) :
    (∃ net last, statement = netInsert hostName timeBuf net (netDetailSample net) last) ∨
    (∃ sirq last, statement = softirqInsert hostName timeBuf sirq (softIrqSample sirq) last) ∨
    (∃ mem last, statement = memInsert hostName timeBuf (memDetailSample mem) last) ∨
    (∃ disk last, statement = diskInsert hostName timeBuf disk (diskDetailSample disk) last) := by
  simp only [writeDetails, List.mem_append] at hmem
  rcases hmem with ((hnet | hsoftirq) | hmem) | hdisk
  · obtain ⟨net, -, last, rfl⟩ := mem_writeDetail _ hnet
    exact .inl ⟨net, last, rfl⟩
  · obtain ⟨sirq, -, last, rfl⟩ := mem_writeDetail _ hsoftirq
    exact .inr (.inl ⟨sirq, last, rfl⟩)
  · cases hinfo : info.memInfo with
    | none =>
      rw [hinfo] at hmem
      cases hmem
    | some mem =>
      rw [hinfo] at hmem
      exact .inr (.inr (.inl ⟨mem, _, List.mem_singleton.1 hmem⟩))
  · obtain ⟨disk, -, last, rfl⟩ := mem_writeDetail _ hdisk
    exact .inr (.inr (.inr ⟨disk, last, rfl⟩))

/-- The statements of the detail tables are all for their host. -/
theorem serverName_writeDetails {store : Store F} {statement : Insert F}
    (hmem : statement ∈ (writeDetails hostName shardIdx timeBuf info store).2) :
    statement.serverName = some hostName := by
  obtain ⟨_, _, rfl⟩ | ⟨_, _, rfl⟩ | ⟨_, _, rfl⟩ | ⟨_, _, rfl⟩ := mem_writeDetails _ _ _ hmem
  all_goals rfl

/-- The detail tables depend on what the manager remembers of their host only. -/
theorem writeDetails_congr {store store' : Store F}
    (hsame : store.view hostName = store'.view hostName) :
    (writeDetails hostName shardIdx timeBuf info store).1.view hostName =
      (writeDetails hostName shardIdx timeBuf info store').1.view hostName ∧
    (writeDetails hostName shardIdx timeBuf info store).2 =
      (writeDetails hostName shardIdx timeBuf info store').2 := by
  simp only [Store.view, HostView.mk.injEq] at hsame
  obtain ⟨hperf, hnet, hsoftirq, hmem, hdisk, hutil, hscore⟩ := hsame
  obtain ⟨hnet₁, hnet₂⟩ := writeDetail_congr (·.name) netDetailSample
    (netInsert hostName timeBuf) shardIdx info.netInfo (congrFun hnet)
  obtain ⟨hsoftirq₁, hsoftirq₂⟩ := writeDetail_congr (·.cpu) softIrqSample
    (softirqInsert hostName timeBuf) shardIdx info.softIrq (congrFun hsoftirq)
  obtain ⟨hmem₁, hmem₂⟩ := writeMemDetail_congr shardIdx timeBuf info.memInfo (congrFun hmem)
  obtain ⟨hdisk₁, hdisk₂⟩ := writeDetail_congr (·.name) diskDetailSample
    (diskInsert hostName timeBuf) shardIdx info.diskInfo (congrFun hdisk)
  constructor
  · simp only [writeDetails, Store.view, HostView.mk.injEq]
    exact ⟨hperf, funext hnet₁, funext hsoftirq₁, funext hmem₁, funext hdisk₁, hutil, hscore⟩
  · simp only [writeDetails]
    rw [hnet₂, hsoftirq₂, hmem₂, hdisk₂]

end Details

/-! ### One report -/

section ProcessData

variable (env : Env) (thread : ℕ) (store : Store F) (job : Job F)

/-- A report of another host changes nothing that is remembered of `h`. -/
theorem view_processData_of_ne {h : String} (hne : h ≠ serverIdentifier job.info) :
    (processData env thread store job).1.view h = store.view h := by
  simp only [processData]
  split_ifs with hempty
  · rfl
  · cases job.connection with
    | initFailed => exact view_remember_of_ne hne _ _ _ _
    | connectFailed => exact view_remember_of_ne hne _ _ _ _
    | connected =>
      simp only [writeToMysql]
      rw [view_writeDetails_of_ne _ _ _ hne, view_rememberDiskUtil_of_ne hne,
        view_remember_of_ne hne]

/-- A report is processed from what is remembered of its host, and nothing else. -/
theorem processData_congr {store' : Store F} (hsame : store.view (serverIdentifier job.info) =
      store'.view (serverIdentifier job.info)) :
    (processData env thread store job).1.view (serverIdentifier job.info) =
      (processData env thread store' job).1.view (serverIdentifier job.info) ∧
    (processData env thread store job).2 = (processData env thread store' job).2 := by
  have hlast : ∀ k, store.lastPerfSamplesShards k (serverIdentifier job.info) =
      store'.lastPerfSamplesShards k (serverIdentifier job.info) :=
    congrFun (congrArg HostView.perf hsame)
  have hutil : ∀ k, store.lastDiskUtil k (serverIdentifier job.info) =
      store'.lastDiskUtil k (serverIdentifier job.info) :=
    congrFun (congrArg HostView.diskUtil hsame)
  simp only [processData, hlast]
  split_ifs with hempty
  · exact ⟨hsame, rfl⟩
  · have hremember := view_remember_congr hsame
      (shardIndex env.hash env.threadCount (serverIdentifier job.info)) (perfSample job.info)
      ⟨job.info, calcScore job.info, job.now⟩
    cases job.connection with
    | initFailed => exact ⟨hremember, rfl⟩
    | connectFailed => exact ⟨hremember, rfl⟩
    | connected =>
      have hdetails := writeDetails_congr
        (shardIndex env.hash env.threadCount (serverIdentifier job.info))
        (env.localtime (job.now.tdiv 1000000000)) job.info
        (view_rememberDiskUtil_congr hremember thread (diskUtil job.info))
      simp only [writeToMysql]
      refine ⟨hdetails.1, ?_⟩
      rw [hdetails.2]
      simp only [Store.remember, hutil]

/-- The statements issued for a report carry its identifier. -/
theorem serverName_processData {statement : Insert F}
    (hmem : statement ∈ (processData env thread store job).2) :
    statement.serverName = some (serverIdentifier job.info) := by
  simp only [processData] at hmem
  split_ifs at hmem with hempty
  · cases hmem
  · cases hconn : job.connection with
    | initFailed => simp [writeToMysql, hconn] at hmem
    | connectFailed => simp [writeToMysql, hconn] at hmem
    | connected =>
      simp only [writeToMysql, hconn, List.mem_cons] at hmem
      rcases hmem with rfl | hdetail
      · rfl
      · exact serverName_writeDetails _ _ _ hdetail

end ProcessData

/-- The statement is for the host `h`. -/
def Insert.isFor (h : String) (statement : Insert F) : Bool := statement.serverName == some h

/-- The report is one of the host `h`. -/
def Job.isOf (h : String) (job : Job F) : Bool := serverIdentifier job.info == h

theorem unwinding_processData (env : Env) (thread : ℕ) (h : String) :
    Unwinding (processData (F := F) env thread) (Store.view h) (Insert.isFor h) (Job.isOf h) where
  foreign store job hjob := by
    have hne : serverIdentifier job.info ≠ h := by simpa [Job.isOf] using hjob
    refine ⟨view_processData_of_ne env thread store job (Ne.symm hne), ?_⟩
    rw [List.filter_eq_nil_iff]
    intro statement hmem
    rw [Insert.isFor, serverName_processData env thread store job hmem]
    simpa using hne
  own store store' job hjob hsame := by
    have heq : serverIdentifier job.info = h := by simpa [Job.isOf] using hjob
    subst heq
    obtain ⟨hview, hout⟩ := processData_congr env thread store job hsame
    exact ⟨hview, by rw [hout]⟩

/-- **Hosts do not interfere.**  For every hash function and thread count, every store to begin
with, and every sequence of reports handled by one consumer thread, at any times and with any
outcomes of the connection: the statements issued for the host `h`, its histories and its row of
`host_scores_` are those of the run in which only the reports of `h` occur. -/
theorem hosts_do_not_interfere (env : Env) (thread : ℕ) (store : Store F) (jobs : List (Job F))
    (h : String) :
    let all := runOutputs (processData env thread) store jobs
    let alone := runOutputs (processData env thread) store (jobs.filter (Job.isOf h))
    all.1.view h = alone.1.view h ∧ all.2.filter (Insert.isFor h) = alone.2 := by
  intro all alone
  obtain ⟨hview, hout⟩ := (unwinding_processData env thread h).noninterference jobs
    (s := store) rfl
  refine ⟨hview, hout.trans (List.filter_eq_self.2 ?_)⟩
  refine forall_mem_runOutputs ?_ store
  intro store job hjob statement hmem
  have hof : serverIdentifier job.info = h := by
    simpa [Job.isOf] using (List.mem_filter.1 hjob).2
  rw [Insert.isFor, serverName_processData env thread store job hmem, hof]
  exact beq_self_eq_true _

end MonitorSystem
