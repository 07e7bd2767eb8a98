import MonitorSystem.Manager.HostIsolation
import MonitorSystem.Manager.ShardOwnership

/-!
# What a report touches

`shardAccesses` lists the elements of the vectors of maps that `ProcessData` accesses for a report.
Here the list is tied to `processData`: a report changes no other element (`processData_frame`),
and what it does depends on no other element (`processData_local`).
-/

namespace MonitorSystem

variable {F : Type}

/-- The stores agree on an element of a vector of maps. -/
def Store.Agree (store store' : Store F) : ShardVector × ℕ → Prop
  | (.lastPerfSamplesShards, k) => store.lastPerfSamplesShards k = store'.lastPerfSamplesShards k
  | (.lastNetSamplesShards, k) => store.lastNetSamplesShards k = store'.lastNetSamplesShards k
  | (.lastSoftirqSamplesShards, k) =>
    store.lastSoftirqSamplesShards k = store'.lastSoftirqSamplesShards k
  | (.lastMemSamplesShards, k) => store.lastMemSamplesShards k = store'.lastMemSamplesShards k
  | (.lastDiskSamplesShards, k) => store.lastDiskSamplesShards k = store'.lastDiskSamplesShards k

theorem mem_shardAccesses {hash : String → ℕ} {threadCount : ℕ} {connected : Bool}
    {info : MonitorInfo F} (hname : serverIdentifier info ≠ "") (v : ShardVector) (k : ℕ) :
    (v, k) ∈ shardAccesses hash threadCount connected info ↔
      v ∈ vectorsAccessed connected info ∧
        k = shardIndex hash threadCount (serverIdentifier info) := by
  unfold shardAccesses
  rw [if_neg hname]
  constructor
  · intro h
    obtain ⟨w, hw, heq⟩ := List.mem_map.1 h
    cases heq
    exact ⟨hw, rfl⟩
  · rintro ⟨hv, rfl⟩
    exact List.mem_map_of_mem hv

/-- Which vectors are accessed for a report that is written to MySQL. -/
theorem mem_vectorsAccessed_true (info : MonitorInfo F) :
    (.lastPerfSamplesShards ∈ vectorsAccessed true info) ∧
    (.lastNetSamplesShards ∈ vectorsAccessed true info ↔ info.netInfo ≠ []) ∧
    (.lastSoftirqSamplesShards ∈ vectorsAccessed true info ↔ info.softIrq ≠ []) ∧
    (.lastMemSamplesShards ∈ vectorsAccessed true info ↔ info.memInfo ≠ none) ∧
    (.lastDiskSamplesShards ∈ vectorsAccessed true info ↔ info.diskInfo ≠ []) := by
  simp [vectorsAccessed, List.eq_nil_iff_forall_not_mem, Option.eq_none_iff_forall_ne_some]

/-! ### Writes to one element -/

theorem HostMap.put_shard_of_ne {V : Type} (m : HostMap V) {k j : ℕ} (host : String) (v : V)
    (h : j ≠ k) : m.put k host v j = m j := Function.update_of_ne h _ _

theorem HostMap.put_shard_congr {V : Type} {m m' : HostMap V} {k : ℕ} (h : m k = m' k)
    (host : String) (v : V) : m.put k host v k = m'.put k host v k := by
  rw [HostMap.put, HostMap.put, Function.update_self, Function.update_self, h]

/-! ### Loops -/

section Detail

variable {A S : Type} [Zero S] (nameOf : A → String) (sampleOf : A → S)
  (insertOf : A → S → S → Insert F) {shardIdx : ℕ} (hostName : String)

/-- A loop over devices changes the element of its shard, if any. -/
theorem writeDetail_frame {k : ℕ} (as : List A) (samples : DeviceMap S)
    (h : as = [] ∨ k ≠ shardIdx) :
    (writeDetail nameOf sampleOf insertOf shardIdx hostName as samples).1 k = samples k := by
  rcases h with rfl | hk
  · rfl
  · exact funext fun h => writeDetail_elsewhere (.inl hk) as samples

/-- A loop over devices depends on the element of its shard, if on any. -/
theorem writeDetail_local (as : List A) {samples samples' : DeviceMap S}
    (h : as ≠ [] → samples shardIdx = samples' shardIdx) :
    (as ≠ [] → (writeDetail nameOf sampleOf insertOf shardIdx hostName as samples).1 shardIdx =
      (writeDetail nameOf sampleOf insertOf shardIdx hostName as samples').1 shardIdx) ∧
    (writeDetail nameOf sampleOf insertOf shardIdx hostName as samples).2 =
      (writeDetail nameOf sampleOf insertOf shardIdx hostName as samples').2 := by
  by_cases hnil : as = []
  · subst hnil
    exact ⟨fun hne => absurd rfl hne, rfl⟩
  have hsame := h hnil
  obtain ⟨hmap, hout⟩ := writeDetail_eq_loop nameOf sampleOf insertOf shardIdx hostName as samples
  obtain ⟨hmap', hout'⟩ :=
    writeDetail_eq_loop nameOf sampleOf insertOf shardIdx hostName as samples'
  rw [hout, hout', hsame]
  refine ⟨fun _ => funext fun host => ?_, rfl⟩
  by_cases hhost : host = hostName
  · rw [hhost, hmap, hmap', hsame]
  · rw [writeDetail_elsewhere (.inr hhost), writeDetail_elsewhere (.inr hhost), hsame]

end Detail

section Mem

variable [CxxFloat F] (hostName : String) {shardIdx : ℕ} (timeBuf : ClockText.Tm)
  (mem? : Option (MemInfo F))

theorem writeMemDetail_frame {k : ℕ} (samples : HostMap (MemDetailSample F))
    (h : mem? = none ∨ k ≠ shardIdx) :
    (writeMemDetail hostName shardIdx timeBuf mem? samples).1 k = samples k := by
  cases mem? with
  | none => rfl
  | some mem => exact HostMap.put_shard_of_ne _ _ _ (h.resolve_left (Option.some_ne_none mem))

theorem writeMemDetail_local {samples samples' : HostMap (MemDetailSample F)}
    (h : mem? ≠ none → samples shardIdx = samples' shardIdx) :
    (mem? ≠ none → (writeMemDetail hostName shardIdx timeBuf mem? samples).1 shardIdx =
      (writeMemDetail hostName shardIdx timeBuf mem? samples').1 shardIdx) ∧
    (writeMemDetail hostName shardIdx timeBuf mem? samples).2 =
      (writeMemDetail hostName shardIdx timeBuf mem? samples').2 := by
  cases mem? with
  | none => exact ⟨fun hne => absurd rfl hne, rfl⟩
  | some mem =>
    have hsame := h (Option.some_ne_none mem)
    refine ⟨fun _ => HostMap.put_shard_congr hsame _ _, ?_⟩
    simp only [writeMemDetail]
    rw [hsame]

end Mem

/-! ### One report -/

section ProcessData

variable [CxxFloat F]

/-- The detail tables change the elements of their shard that they access. -/
theorem writeDetails_frame (hostName : String) {shardIdx : ℕ} (timeBuf : ClockText.Tm)
    (info : MonitorInfo F) (store : Store F) {v : ShardVector} {k : ℕ}
    (h : v ∈ vectorsAccessed true info → k ≠ shardIdx) :
    (writeDetails hostName shardIdx timeBuf info store).1.Agree store (v, k) := by
  obtain ⟨-, hnet, hsoftirq, hmem, hdisk⟩ := mem_vectorsAccessed_true info
  cases v with
  | lastPerfSamplesShards => rfl
  | lastNetSamplesShards =>
    exact writeDetail_frame _ _ _ _ _ _ (or_iff_not_imp_left.2 fun hne => h (hnet.2 hne))
  | lastSoftirqSamplesShards =>
    exact writeDetail_frame _ _ _ _ _ _ (or_iff_not_imp_left.2 fun hne => h (hsoftirq.2 hne))
  | lastMemSamplesShards =>
    exact writeMemDetail_frame _ _ _ _ (or_iff_not_imp_left.2 fun hne => h (hmem.2 hne))
  | lastDiskSamplesShards =>
    exact writeDetail_frame _ _ _ _ _ _ (or_iff_not_imp_left.2 fun hne => h (hdisk.2 hne))

/-- The detail tables depend on the elements of their shard that they access. -/
theorem writeDetails_local (hostName : String) {shardIdx : ℕ} (timeBuf : ClockText.Tm)
    (info : MonitorInfo F) {store store' : Store F}
    (h : ∀ v ∈ vectorsAccessed true info, store.Agree store' (v, shardIdx)) :
    (∀ v ∈ vectorsAccessed true info, (writeDetails hostName shardIdx timeBuf info store).1.Agree
      (writeDetails hostName shardIdx timeBuf info store').1 (v, shardIdx)) ∧
    (writeDetails hostName shardIdx timeBuf info store).2 =
      (writeDetails hostName shardIdx timeBuf info store').2 := by
  obtain ⟨hperf, hnet, hsoftirq, hmem, hdisk⟩ := mem_vectorsAccessed_true info
  obtain ⟨hnet₁, hnet₂⟩ := writeDetail_local (·.name) netDetailSample
    (netInsert hostName timeBuf) hostName info.netInfo fun hne => h _ (hnet.2 hne)
  obtain ⟨hsoftirq₁, hsoftirq₂⟩ := writeDetail_local (·.cpu) softIrqSample
    (softirqInsert hostName timeBuf) hostName info.softIrq fun hne => h _ (hsoftirq.2 hne)
  obtain ⟨hmem₁, hmem₂⟩ := writeMemDetail_local hostName timeBuf info.memInfo
    fun hne => h _ (hmem.2 hne)
  obtain ⟨hdisk₁, hdisk₂⟩ := writeDetail_local (·.name) diskDetailSample
    (diskInsert hostName timeBuf) hostName info.diskInfo fun hne => h _ (hdisk.2 hne)
  constructor
  · intro v hv
    cases v with
    | lastPerfSamplesShards => exact h _ hperf
    | lastNetSamplesShards => exact hnet₁ (hnet.1 hv)
    | lastSoftirqSamplesShards => exact hsoftirq₁ (hsoftirq.1 hv)
    | lastMemSamplesShards => exact hmem₁ (hmem.1 hv)
    | lastDiskSamplesShards => exact hdisk₁ (hdisk.1 hv)
  · simp only [writeDetails]
    rw [hnet₂, hsoftirq₂, hmem₂, hdisk₂]

omit [CxxFloat F] in
theorem Store.agree_remember {store store' : Store F} {v : ShardVector} {k : ℕ}
    (h : store.Agree store' (v, k)) (hostName : String) (curr : PerfSample F)
    (hostScore : HostScore F) :
    (store.remember k hostName curr hostScore).Agree (store'.remember k hostName curr hostScore)
      (v, k) := by
  cases v with
  | lastPerfSamplesShards => exact HostMap.put_shard_congr h _ _
  | _ => exact h

variable (env : Env) (thread : ℕ)

/-- The elements accessed for a report. -/
def Job.accesses (env : Env) (job : Job F) : List (ShardVector × ℕ) :=
  shardAccesses env.hash env.threadCount (job.connection = .connected) job.info

/-- **Frame.**  A report leaves every element alone that is not accessed for it. -/
theorem processData_frame (store : Store F) (job : Job F) {e : ShardVector × ℕ}
    (h : e ∉ job.accesses env) : (processData env thread store job).1.Agree store e := by
  obtain ⟨v, k⟩ := e
  simp only [processData]
  split_ifs with hempty
  · cases v <;> rfl
  have hacc : v ∈ vectorsAccessed (decide (job.connection = .connected)) job.info →
      k ≠ shardIndex env.hash env.threadCount (serverIdentifier job.info) := by
    rw [Job.accesses, mem_shardAccesses hempty] at h
    exact fun hv hk => h ⟨hv, hk⟩
  cases hconn : job.connection with
  | initFailed | connectFailed =>
    cases v with
    | lastPerfSamplesShards => exact HostMap.put_shard_of_ne _ _ _ (hacc List.mem_cons_self)
    | _ => rfl
  | connected =>
    simp only [hconn, decide_true] at hacc
    have hdetails := writeDetails_frame (serverIdentifier job.info)
      (env.localtime (job.now.tdiv 1000000000)) job.info
      ((store.remember (shardIndex env.hash env.threadCount (serverIdentifier job.info))
        (serverIdentifier job.info) (perfSample job.info)
        ⟨job.info, calcScore job.info, job.now⟩).rememberDiskUtil thread
          (serverIdentifier job.info) (diskUtil job.info)) hacc
    cases v with
    | lastPerfSamplesShards => exact HostMap.put_shard_of_ne _ _ _ (hacc List.mem_cons_self)
    | _ => exact hdetails

/-- **Locality.**  What is sent for a report, and what it leaves in the elements accessed for it,
depends only on these elements and on the disk utilisation that the thread remembers. -/
theorem processData_local {store store' : Store F} (job : Job F)
    (hagree : ∀ e ∈ job.accesses env, store.Agree store' e)
    (hutil : store.lastDiskUtil thread = store'.lastDiskUtil thread) :
    (∀ e ∈ job.accesses env, (processData env thread store job).1.Agree
      (processData env thread store' job).1 e) ∧
    (processData env thread store job).2 = (processData env thread store' job).2 := by
  by_cases hempty : serverIdentifier job.info = ""
  · simp only [processData, if_pos hempty]
    exact ⟨hagree, trivial⟩
  set shardIdx := shardIndex env.hash env.threadCount (serverIdentifier job.info) with hidx
  have haccessed (v : ShardVector) (k : ℕ) : (v, k) ∈ job.accesses env ↔
      v ∈ vectorsAccessed (job.connection = .connected) job.info ∧ k = shardIdx :=
    mem_shardAccesses hempty v k
  have hperf : store.lastPerfSamplesShards shardIdx = store'.lastPerfSamplesShards shardIdx :=
    hagree (.lastPerfSamplesShards, _) ((haccessed _ _).2 ⟨List.mem_cons_self, rfl⟩)
  have hremember : ∀ v ∈ vectorsAccessed (job.connection = .connected) job.info,
      (store.remember shardIdx (serverIdentifier job.info) (perfSample job.info)
          ⟨job.info, calcScore job.info, job.now⟩).Agree
        (store'.remember shardIdx (serverIdentifier job.info) (perfSample job.info)
          ⟨job.info, calcScore job.info, job.now⟩) (v, shardIdx) := fun v hv =>
    Store.agree_remember (hagree _ ((haccessed _ _).2 ⟨hv, rfl⟩)) _ _ _
  simp only [processData, if_neg hempty, ← hidx, hperf]
  cases hconn : job.connection with
  | initFailed | connectFailed =>
    refine ⟨?_, rfl⟩
    rintro ⟨v, k⟩ he
    obtain ⟨hv, rfl⟩ := (haccessed v k).1 he
    exact hremember v hv
  | connected =>
    simp only [hconn, decide_true] at haccessed hremember
    have hagree' : ∀ v ∈ vectorsAccessed true job.info,
        ((store.remember shardIdx (serverIdentifier job.info) (perfSample job.info)
            ⟨job.info, calcScore job.info, job.now⟩).rememberDiskUtil thread
              (serverIdentifier job.info) (diskUtil job.info)).Agree
          ((store'.remember shardIdx (serverIdentifier job.info) (perfSample job.info)
            ⟨job.info, calcScore job.info, job.now⟩).rememberDiskUtil thread
              (serverIdentifier job.info) (diskUtil job.info)) (v, shardIdx) := by
      intro v hv
      have hv' := hremember v hv
      cases v <;> exact hv'
    obtain ⟨hmaps, hout⟩ := writeDetails_local (serverIdentifier job.info)
      (env.localtime (job.now.tdiv 1000000000)) job.info hagree'
    simp only [writeToMysql, ← hidx]
    constructor
    · rintro ⟨v, k⟩ he
      obtain ⟨hv, rfl⟩ := (haccessed v k).1 he
      exact hmaps v hv
    · rw [hout]
      simp only [Store.remember, hutil]

theorem lastDiskUtil_processData_of_ne (store : Store F) (job : Job F) {other : ℕ}
    (h : other ≠ thread) :
    (processData env thread store job).1.lastDiskUtil other = store.lastDiskUtil other := by
  simp only [processData]
  split_ifs
  · rfl
  · cases job.connection with
    | initFailed | connectFailed => rfl
    | connected => exact HostMap.put_shard_of_ne _ _ _ h

/-- **Independence.**  Two threads whose reports touch no common element do not see each other:
what is sent for one report is the same before and after the other. -/
theorem processData_independent (store : Store F) {job job' : Job F} {thread' : ℕ}
    (hthread : thread' ≠ thread) (hdisj : (job.accesses env).Disjoint (job'.accesses env)) :
    (processData env thread' (processData env thread store job).1 job').2 =
      (processData env thread' store job').2 := by
  refine (processData_local env thread' job' (fun e he => ?_) ?_).2
  · exact processData_frame env thread store job fun hjob => hdisj hjob he
  · exact lastDiskUtil_processData_of_ne env thread store job hthread

end ProcessData

end MonitorSystem
