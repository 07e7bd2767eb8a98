import MonitorSystem.Library.HashRouting
import MonitorSystem.Manager.Ingest

/-!
# Who owns a shard

The histories of `ProcessData` and `WriteToMysql` are vectors of maps, one element per thread,
and a consumer accesses element `hash(identifier) % thread_count_` of them without a lock.  That
is sound when an element is only ever accessed by one consumer.  The queue of a report is however
chosen by hashing another string than its identifier, the hostname or name alone, so that two
consumers can meet in one element.

`SingleOwner` is the exact condition, in terms of the fields of two reports, under which they
never do; `shard_ownership_iff` proves it exact, for two reports and for the whole pipeline.
-/

namespace MonitorSystem

variable {F : Type}

/-! ### When the two keys of a report agree -/

/-- What a report is known by when its address is left aside. -/
def MonitorInfo.label (info : MonitorInfo F) : String :=
  if info.hostname ≠ "" then info.hostname else info.name

/-- The report has no address beyond its label. -/
def MonitorInfo.Unaddressed (info : MonitorInfo F) : Prop :=
  info.ipAddress = "" ∨ info.hostname = "" ∧ info.ipAddress = info.name

/-- The address of the report, with its hostname if it has one, is the label of the other. -/
def MonitorInfo.PointsTo (info other : MonitorInfo F) : Prop :=
  info.ipAddress ≠ "" ∧ other.label =
    if info.hostname ≠ "" then info.hostname ++ "_" ++ info.ipAddress else info.ipAddress

instance (info : MonitorInfo F) : Decidable info.Unaddressed :=
  inferInstanceAs (Decidable (_ ∨ _))

instance (info other : MonitorInfo F) : Decidable (info.PointsTo other) :=
  inferInstanceAs (Decidable (_ ∧ _))

/-- With `n` threads, the two reports never meet in a shard coming from different queues. -/
def SingleOwner (n : ℕ) (info other : MonitorInfo F) : Prop :=
  n = 1 ∨ info.label = other.label ∨ (info.Unaddressed ∧ other.Unaddressed) ∨
    (info.PointsTo other ∧ other.PointsTo info)

theorem append_address_ne (hostname ip : String) : hostname ++ "_" ++ ip ≠ hostname := by
  intro h
  have hlen := congrArg String.length h
  simp only [String.length_append] at hlen
  have hone : "_".length = 1 := by decide
  omega

theorem serverIdentifier_eq_label_iff (info : MonitorInfo F) :
    serverIdentifier info = info.label ↔ info.Unaddressed := by
  rw [serverIdentifier_eq, MonitorInfo.label, MonitorInfo.Unaddressed]
  by_cases hh : info.hostname = "" <;> by_cases hi : info.ipAddress = ""
  · simp [hh, hi]
  · simp [hh, hi]
  · simp [hh, hi]
  · simp [hh, hi, append_address_ne]

/-- An identifier that is the label of another report, but not of its own, contains an
address. -/
theorem serverIdentifier_eq_label_of_ne {info other : MonitorInfo F}
    (h : info.label ≠ other.label) :
    serverIdentifier info = other.label ↔ info.PointsTo other := by
  rw [serverIdentifier_eq, MonitorInfo.PointsTo]
  by_cases hi : info.ipAddress = ""
  · have hlabel : (if info.hostname ≠ "" then
        if info.ipAddress ≠ "" then info.hostname ++ "_" ++ info.ipAddress else info.hostname
      else if info.ipAddress ≠ "" then info.ipAddress else info.name) = info.label := by
      simp [hi, MonitorInfo.label]
    rw [hlabel]
    simp [hi, h]
  · by_cases hh : info.hostname = "" <;> simp [hh, hi, eq_comm]

/-- The condition on the fields is the condition on the two keys. -/
theorem singleOwner_iff (n : ℕ) (info other : MonitorInfo F) :
    SingleOwner n info other ↔
      HashRouting.Owned n (serverIdentifier info) (serverIdentifier other) (routingName info)
        (routingName other) := by
  have hlabel : ∀ m : MonitorInfo F, routingName m = m.label := routingName_eq
  rw [HashRouting.owned_iff, hlabel, hlabel, SingleOwner]
  by_cases h : info.label = other.label
  · simp [h]
  · rw [serverIdentifier_eq_label_iff, serverIdentifier_eq_label_iff,
      serverIdentifier_eq_label_of_ne h, serverIdentifier_eq_label_of_ne (Ne.symm h)]

/-! ### The shards a report touches -/

/-- The vectors of maps that consumers access without a lock. -/
inductive ShardVector
  | lastPerfSamplesShards
  | lastNetSamplesShards
  | lastSoftirqSamplesShards
  | lastMemSamplesShards
  | lastDiskSamplesShards
  deriving DecidableEq

/-- The vectors that `ProcessData` accesses for a report, in order: the performance history in any
case, the others in `WriteToMysql`, once per entry of the report, when the connection
succeeds. -/
def vectorsAccessed (connected : Bool) (info : MonitorInfo F) : List ShardVector :=
  .lastPerfSamplesShards ::
    if connected then
      info.netInfo.map (fun _ => .lastNetSamplesShards) ++
      info.softIrq.map (fun _ => .lastSoftirqSamplesShards) ++
      info.memInfo.toList.map (fun _ => .lastMemSamplesShards) ++
      info.diskInfo.map (fun _ => .lastDiskSamplesShards)
    else []

/-- The elements that `ProcessData` accesses for a report. -/
def shardAccesses (hash : String → ℕ) (threadCount : ℕ) (connected : Bool)
    (info : MonitorInfo F) : List (ShardVector × ℕ) :=
  let hostName := serverIdentifier info
  if hostName = "" then []
  else
    let shardIdx := shardIndex hash threadCount hostName
    (vectorsAccessed connected info).map fun vector => (vector, shardIdx)

/-- Every access for a report goes to its shard. -/
theorem eq_shardIndex_of_mem {hash : String → ℕ} {threadCount : ℕ} {connected : Bool}
    {info : MonitorInfo F} {v : ShardVector} {k : ℕ}
    (h : (v, k) ∈ shardAccesses hash threadCount connected info) :
    k = shardIndex hash threadCount (serverIdentifier info) := by
  simp only [shardAccesses] at h
  split_ifs at h
  · cases h
  · obtain ⟨w, -, hw⟩ := List.mem_map.1 h
    exact (Prod.ext_iff.1 hw).2.symm

/-- The performance history is accessed for every report with an identifier. -/
theorem perf_mem_shardAccesses {info : MonitorInfo F} (hash : String → ℕ) (threadCount : ℕ)
    (connected : Bool) (h : serverIdentifier info ≠ "") :
    (.lastPerfSamplesShards, shardIndex hash threadCount (serverIdentifier info)) ∈
      shardAccesses hash threadCount connected info := by
  unfold shardAccesses
  rw [if_neg h]
  exact List.mem_map_of_mem List.mem_cons_self

/-- Two accepted reports touch a common element exactly when they have the same shard. -/
theorem disjoint_shardAccesses_iff {info other : MonitorInfo F} (hash : String → ℕ)
    (threadCount : ℕ) (connected connected' : Bool) (h : Accepted info) (h' : Accepted other) :
    (shardAccesses hash threadCount connected info).Disjoint
        (shardAccesses hash threadCount connected' other) ↔
      shardIndex hash threadCount (serverIdentifier info) ≠
        shardIndex hash threadCount (serverIdentifier other) := by
  constructor
  · intro hdisj heq
    refine hdisj (perf_mem_shardAccesses hash threadCount connected
      (serverIdentifier_ne_empty h)) ?_
    rw [heq]
    exact perf_mem_shardAccesses hash threadCount connected' (serverIdentifier_ne_empty h')
  · rintro hne ⟨v, k⟩ hk hk'
    exact hne ((eq_shardIndex_of_mem hk).symm.trans (eq_shardIndex_of_mem hk'))

namespace Pipeline

open Transition Function

/-- The calls whose reports consumer `i` has begun to process. -/
def begunBy (s : State) (i : ℕ) : List ℕ := s.handled i ++ (s.consumer i).current.toList

/-- No two consumers have accessed the same element of a vector of maps, whichever MySQL
connections succeeded. -/
def Exclusive (cfg : Config F) (s : State) : Prop :=
  ∀ i j c d connected connected', i ≠ j → c ∈ begunBy s i → d ∈ begunBy s j →
    (shardAccesses cfg.hash cfg.threadCount connected (cfg.report c)).Disjoint
      (shardAccesses cfg.hash cfg.threadCount connected' (cfg.report d))

/-- A consumer only begins reports routed to its queue. -/
theorem route_of_begunBy {cfg : Config F} {s : State} (ha : Accounts cfg s) {i c : ℕ}
    (h : c ∈ begunBy s i) : cfg.route c = some i := by
  refine ha.routed i c (FifoLane.mem_contents.2 ?_)
  rcases List.mem_append.1 h with hdone | hcur
  · exact .inl hdone
  · exact .inr (.inl (Option.mem_toList.1 hcur))

/-- Exclusive access, when the reports that have been begun have single owners. -/
theorem exclusive_of_singleOwner {cfg : Config F} {s : State} (ha : Accounts cfg s)
    (hacc : ∀ c, Accepted (cfg.report c))
    (hown : ∀ i j c d, c ∈ begunBy s i → d ∈ begunBy s j →
      SingleOwner cfg.threadCount (cfg.report c) (cfg.report d)) : Exclusive cfg s := by
  intro i j c d connected connected' hij hc hd
  rw [disjoint_shardAccesses_iff _ _ _ _ (hacc c) (hacc d)]
  intro hshard
  have hroute := (singleOwner_iff _ _ _).1 (hown i j c d hc hd) cfg.hash hshard
  have hi := route_of_begunBy ha hc
  have hj := route_of_begunBy ha hd
  rw [Config.route, routeIndex_of_accepted _ cfg.threadCount_pos _ (hacc _)] at hi hj
  rw [hroute, hj] at hi
  exact hij (Option.some.inj hi).symm

/-- The manager serves, and consumer `i` waits at its empty queue. -/
structure Waiting (cfg : Config F) (s : State) (i : ℕ) : Prop where
  terminated : s.terminated = false
  owner : s.owner ≠ .constructing
  size : s.queuesSize = cfg.threadCount
  popping : s.consumer i = .popping
  empty : (s.queue i).queue = []

/-- A call goes through and its consumer takes the report; another waiting consumer still
waits. -/
theorem deliver {cfg : Config F} {s : State} {c i : ℕ} (hw : Waiting cfg s i)
    (hcall : s.call c = .pending) (hroute : cfg.route c = some i) :
    ∃ s', run (step cfg) s [.begin c, .push c, .pop i] = some s' ∧
      s'.consumer = update s.consumer i (.processing c) ∧ s'.call = update s.call c .pushed ∧
      ∀ j ≠ i, Waiting cfg s j → Waiting cfg s' j := by
  have hroute' : routeIndex cfg.hash cfg.threadCount s.queuesSize (cfg.report c) = some i := by
    rw [hw.size]
    exact hroute
  have hbegin : step cfg s (.begin c) = some { s with call := update s.call c .begun } := by
    simp [step, move, hw.terminated, hcall, hw.owner]
  have hpush : step cfg { s with call := update s.call c .begun } (.push c) = some { s with
      queue := update s.queue i ((s.queue i).push c)
      call := update s.call c .pushed
      pushed := s.pushed ++ [c] } := by
    simp [step, move, hw.terminated, hroute']
  have hpop : step cfg { s with
      queue := update s.queue i ((s.queue i).push c)
      call := update s.call c .pushed
      pushed := s.pushed ++ [c] } (.pop i) = some { s with
      queue := update s.queue i (s.queue i)
      call := update s.call c .pushed
      pushed := s.pushed ++ [c]
      consumer := update s.consumer i (.processing c) } := by
    have hq : ((s.queue i).push c).pop = some (some c, s.queue i) := by
      rw [SafeQueue.pop_eq_some_some]
      exact ⟨[], by simp [hw.empty], by simp [SafeQueue.push, ← hw.empty]⟩
    simp [step, move, hw.terminated, hw.popping, hq]
  refine ⟨_, run_cons_eq_some.2 ⟨_, hbegin, run_cons_eq_some.2 ⟨_, hpush,
    run_cons_eq_some.2 ⟨_, hpop, rfl⟩⟩⟩, rfl, rfl, fun j hj hwj => ?_⟩
  refine ⟨hwj.terminated, hwj.owner, hwj.size, ?_, ?_⟩
  · exact (update_of_ne hj ..).trans hwj.popping
  · show (update s.queue i (s.queue i) j).queue = []
    rw [update_eq_self]
    exact hwj.empty

theorem waiting_live (cfg : Config F) {i : ℕ} (hi : i < cfg.threadCount) :
    Waiting cfg (live cfg) i where
  terminated := rfl
  owner := by simp [live]
  size := rfl
  popping := if_pos hi
  empty := rfl

/-- Two calls whose reports go to different queues can be in hand at the same time. -/
theorem exists_two_processing (cfg : Config F) {c d i j : ℕ} (hij : i ≠ j)
    (hc : cfg.route c = some i) (hd : cfg.route d = some j) :
    ∃ es s, run (step cfg) (live cfg) es = some s ∧ c ∈ begunBy s i ∧ d ∈ begunBy s j := by
  have hcd : d ≠ c := by
    rintro rfl
    exact hij (Option.some.inj (hc.symm.trans hd))
  obtain ⟨s, hs, hcons, hcall, hwait⟩ := deliver (waiting_live cfg (route_lt hc)) rfl hc
  have hpending : s.call d = .pending := by
    rw [hcall, update_of_ne hcd]
    rfl
  obtain ⟨t, ht, hcons', -, -⟩ :=
    deliver (hwait j hij.symm (waiting_live cfg (route_lt hd))) hpending hd
  refine ⟨_, t, run_append_eq_some.2 ⟨s, hs, ht⟩, ?_, ?_⟩
  · have hcur : (t.consumer i).current = some c := by
      rw [hcons', update_of_ne hij, hcons, update_self]
      rfl
    exact List.mem_append_right _ (Option.mem_toList.2 hcur)
  · have hcur : (t.consumer j).current = some d := by
      rw [hcons', update_self]
      rfl
    exact List.mem_append_right _ (Option.mem_toList.2 hcur)

/-- **Shard ownership.**  For every thread count and every accepted reports of the calls:
two reports with the same shard index go to the same queue, for every hash function, exactly when
they satisfy `SingleOwner`; and no two consumers ever access the same element of a vector of maps,
in any reachable state and for any hash function, exactly when all pairs of reports do. -/
theorem shard_ownership_iff (requested : ℕ) (report : ℕ → MonitorInfo F)
    (hacc : ∀ c, Accepted (report c)) :
    let cfg hash : Config F := ⟨hash, requested, report⟩
    let n := (cfg fun _ => 0).threadCount
    (∀ c d, (∀ hash, shardIndex hash n (serverIdentifier (report c)) =
          shardIndex hash n (serverIdentifier (report d)) →
        routeIndex hash n n (report c) = routeIndex hash n n (report d)) ↔
      SingleOwner n (report c) (report d)) ∧
    ((∀ hash es s, run (step (cfg hash)) (live (cfg hash)) es = some s →
        Exclusive (cfg hash) s) ↔
      ∀ c d, SingleOwner n (report c) (report d)) := by
  intro cfg n
  have hroute (hash : String → ℕ) (c : ℕ) :
      routeIndex hash n n (report c) = some (hash (routingName (report c)) % n) :=
    routeIndex_of_accepted hash (Config.threadCount_pos _) _ (hacc c)
  have hpair : ∀ c d, (∀ hash, shardIndex hash n (serverIdentifier (report c)) =
        shardIndex hash n (serverIdentifier (report d)) →
      routeIndex hash n n (report c) = routeIndex hash n n (report d)) ↔
      SingleOwner n (report c) (report d) := by
    intro c d
    rw [singleOwner_iff]
    simp only [hroute, Option.some.injEq]
    exact Iff.rfl
  refine ⟨hpair, ?_, ?_⟩
  · intro hexcl c d
    rw [← hpair]
    intro hash hshard
    by_contra hne
    rw [hroute, hroute, Option.some.injEq] at hne
    obtain ⟨es, s, hrun, hc, hd⟩ :=
      exists_two_processing (cfg hash) hne (hroute hash c) (hroute hash d)
    have hdisj := hexcl hash es s hrun _ _ c d true true hne hc hd
    rw [disjoint_shardAccesses_iff _ _ _ _ (hacc c) (hacc d)] at hdisj
    exact hdisj hshard
  · intro hown hash es s hrun
    have ha := accounts_run hrun (wf_live _) (accounts_live _)
    exact exclusive_of_singleOwner ha hacc fun _ _ c d _ _ => hown c d

/-- The reports of a host with an address. -/
def hostReport (hostname ip : String) : MonitorInfo ℚ :=
  { name := hostname, hostInfo := some ⟨hostname, ip⟩ }

/-- Four threads, and a single host. -/
def oneHost : Config ℚ := ⟨String.length, 4, fun _ => hostReport "web" "10.0.0.1"⟩

theorem exclusive_one_host : ∃ es s, run (step oneHost) (live oneHost) es = some s ∧
    s.consumer 3 = .processing 0 ∧ Exclusive oneHost s := by
  have hroute : oneHost.route 0 = some 3 := by decide
  obtain ⟨s, hs, hcons, -, -⟩ := deliver (waiting_live oneHost (route_lt hroute)) rfl hroute
  refine ⟨_, s, hs, by rw [hcons, update_self], ?_⟩
  exact (shard_ownership_iff 4 (fun _ => hostReport "web" "10.0.0.1") fun _ => by decide).2.2
    (fun _ _ => .inr (.inl rfl)) String.length _ s hs

/-- Two hosts on two threads, with strings hashed by their length: `web` goes to queue 1 and `node`
to queue 0, but `web_10.0.0.1` and `node_10.0.0.12` are both in shard 0. -/
theorem shard_shared_by_two_queues :
    ¬ ∀ (hash : String → ℕ) (n : ℕ) (info other : MonitorInfo ℚ), 1 ≤ n → Accepted info →
      Accepted other → shardIndex hash n (serverIdentifier info) =
        shardIndex hash n (serverIdentifier other) →
      routeIndex hash n n info = routeIndex hash n n other := by
  intro hclaim
  have hsame := hclaim String.length 2 (hostReport "web" "10.0.0.1") (hostReport "node" "10.0.0.12")
    (by decide) (by decide) (by decide) (by decide)
  exact absurd hsame (by decide)

end Pipeline

end MonitorSystem
