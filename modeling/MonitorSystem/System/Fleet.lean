import MonitorSystem.Library.Requests
import MonitorSystem.Manager.HostScores
import MonitorSystem.System.Identities

/-!
# Workers and their manager

Any number of workers push to one manager.  A worker fills a report, calls `SetMonitorInfo` and
waits; when the call has succeeded or failed it goes on to its next report and never repeats one.
The manager is the system of `Manager/LiveStores.lean`: each RPC stores its report into
`host_data_`, pushes it and returns, and the consumers process the queues; a pass of `ProcessLoop`
may come at any time and removes old entries of `host_scores_`.  The network may lose or delay a
request, and a call may fail although its request is handled, before the failure or after.

The manager serves from the start of a run to its end: its constructor has found all consumers
alive, `Start` has returned and nobody calls `Stop`.

RPC `Nat.pair w k` is call `k` of worker `w`.
-/

namespace MonitorSystem

namespace Fleet

open Function (update update_self update_of_ne)
open MetricCollector (Worker)
open Requests (Clients InOrder Records)
open Transition (Along run run_append_eq_some run_invariant run_invariant_along)

/-! ### The system -/

/-- The workers, and what the manager is parameterized by. -/
structure Config where
  worker : ℕ → Worker
  hash : String → ℕ
  requested : ℕ
  localtime : ℤ → ClockText.Tm

namespace Config

variable (cfg : Config)

/-- The manager, with the reports of the workers; a call that no worker makes carries the empty
report. -/
def pipeline : Pipeline.Config ℚ where
  hash := cfg.hash
  requested := cfg.requested
  report c := ((cfg.worker c.unpair.1).report c.unpair.2).getD {}

/-- The queue of a worker. -/
def lane (w : ℕ) : ℕ := cfg.hash (cfg.worker w).routingName % cfg.pipeline.threadCount

end Config

structure State where
  clients : Clients ℕ
  manager : LiveStores.State ℚ

inductive Event
  /-- worker `w` fills its next report and sends it -/
  | push (w : ℕ)
  /-- a step of the manager -/
  | manager (e : LiveStores.Event)
  /-- `ProcessLoop` runs a pass that starts at `now` -/
  | cleanup (now : ℤ)
  /-- the call of worker `w` returns `OK` -/
  | answered (w : ℕ)
  /-- the call of worker `w` returns anything else -/
  | failed (w : ℕ)

/-- A request that the manager takes up has been sent. -/
def Sent (clients : Clients ℕ) : LiveStores.Event → Prop
  | .store c _ => c.unpair.2 < clients.sent c.unpair.1
  | .call _ | .push _ | .ret _ | .test _ | .pop _ | .process .. => True

instance (clients : Clients ℕ) : (e : LiveStores.Event) → Decidable (Sent clients e)
  | .store .. => inferInstanceAs (Decidable (_ < _))
  | .call _ | .push _ | .ret _ | .test _ | .pop _ | .process .. => isTrue trivial

/-- One step. -/
def step (cfg : Config) (s : State) : Event → Option State
  | .push w =>
    if s.clients.waiting w = none ∧ ((cfg.worker w).report (s.clients.sent w)).isSome then
      some { s with clients := s.clients.send w }
    else none
  | .manager e =>
    if Sent s.clients e then
      (LiveStores.step cfg.pipeline cfg.localtime s.manager e).map fun m => { s with manager := m }
    else none
  | .cleanup now => some { s with manager := { s.manager with store := { s.manager.store with
      hostScores := HostScores.cleanupEntries now s.manager.store.hostScores } } }
  | .answered w =>
    (s.clients.waiting w).bind fun k =>
      if s.manager.pipe.call (Nat.pair w k) = .returned then
        some { s with clients := s.clients.succeed w k }
      else none
  | .failed w =>
    if (s.clients.waiting w).isSome then some { s with clients := s.clients.fail w } else none

/-- Nothing has been sent, and the manager serves. -/
def start (cfg : Config) : State := ⟨{}, LiveStores.start cfg.pipeline⟩

/-- The steps of the system. -/
inductive Move (cfg : Config) (s : State) : Event → State → Prop
  | push {w : ℕ} (hreport : ((cfg.worker w).report (s.clients.sent w)).isSome) :
      Move cfg s (.push w) { s with clients := s.clients.send w }
  | manager {e : LiveStores.Event} {m : LiveStores.State ℚ} (hsent : Sent s.clients e)
      (hstep : LiveStores.step cfg.pipeline cfg.localtime s.manager e = some m) :
      Move cfg s (.manager e) { s with manager := m }
  | cleanup (now : ℤ) : Move cfg s (.cleanup now) { s with manager := { s.manager with
      store := { s.manager.store with
        hostScores := HostScores.cleanupEntries now s.manager.store.hostScores } } }
  | answered {w k : ℕ} (hwaiting : s.clients.waiting w = some k)
      (hreturned : s.manager.pipe.call (Nat.pair w k) = .returned) :
      Move cfg s (.answered w) { s with clients := s.clients.succeed w k }
  | failed {w : ℕ} : Move cfg s (.failed w) { s with clients := s.clients.fail w }

theorem move_of_step {cfg : Config} {s s' : State} {e : Event} (h : step cfg s e = some s') :
    Move cfg s e s' := by
  cases e with
  | push w =>
    simp only [step] at h
    split_ifs at h with hg
    cases h
    exact .push hg.2
  | manager e =>
    simp only [step] at h
    split_ifs at h with hsent
    obtain ⟨m, hm, rfl⟩ := Option.map_eq_some_iff.1 h
    exact .manager hsent hm
  | cleanup now =>
    cases h
    exact .cleanup now
  | answered w =>
    obtain ⟨k, hk, hs⟩ := Option.bind_eq_some_iff.1 h
    split_ifs at hs with hreturned
    cases hs
    exact .answered hk hreturned
  | failed w =>
    simp only [step] at h
    split_ifs at h
    cases h
    exact .failed

/-! ### The invariant -/

section Identity

variable {cfg : Config} {c : ℕ} (h : ((cfg.worker c.unpair.1).report c.unpair.2).isSome)
include h

theorem report_eq : (cfg.worker c.unpair.1).report c.unpair.2 = some (cfg.pipeline.report c) := by
  obtain ⟨info, hinfo⟩ := Option.isSome_iff_exists.1 h
  show _ = some (((cfg.worker c.unpair.1).report c.unpair.2).getD {})
  rw [hinfo]
  rfl

theorem key_eq : setMonitorInfoKey (cfg.pipeline.report c) = (cfg.worker c.unpair.1).key :=
  (Worker.identity_of_report (report_eq h)).1

theorem identifier_eq :
    serverIdentifier (cfg.pipeline.report c) = (cfg.worker c.unpair.1).identifier :=
  (Worker.identity_of_report (report_eq h)).2.2.1

theorem route_eq (hacc : Accepted (cfg.pipeline.report c)) :
    cfg.pipeline.route c = some (cfg.lane c.unpair.1) := by
  have hname := (Worker.identity_of_report (report_eq h)).2.1
  rw [Pipeline.Config.route, routeIndex_of_accepted _ cfg.pipeline.threadCount_pos _ hacc, hname]
  rfl

end Identity

/-- What holds of every reachable state. -/
structure Inv (cfg : Config) (s : State) : Prop where
  wf : Pipeline.WF cfg.pipeline s.manager.pipe
  accounts : Pipeline.Accounts cfg.pipeline s.manager.pipe
  lanes : ∀ i, (Pipeline.laneOf s.manager.pipe i).contents =
    s.manager.pipe.pushed.filter fun c => cfg.pipeline.route c = some i
  called : ∀ c, s.manager.pipe.call c ≠ .pending → c ∈ s.manager.stored
  accepted : ∀ c ∈ s.manager.stored, Accepted (cfg.pipeline.report c)
  reported : ∀ w, ∀ k < s.clients.sent w, ((cfg.worker w).report k).isSome
  stored : Records s.clients (s.manager.stored.map Nat.unpair)
  pushed : Records s.clients (s.manager.pipe.pushed.map Nat.unpair)
  hostData : ∀ key, (s.manager.hostData key).map (·.info) =
    (s.manager.stored.filter fun c => setMonitorInfoKey (cfg.pipeline.report c) = key).getLast?.map
      cfg.pipeline.report

theorem inv_start (cfg : Config) : Inv cfg (start cfg) where
  wf := Pipeline.wf_live _
  accounts := Pipeline.accounts_live _
  lanes i := by
    rw [FifoLane.contents, Pipeline.laneOf, start, LiveStores.start, Pipeline.current_live]
    rfl
  called c hc := absurd rfl hc
  accepted := nofun
  reported := nofun
  stored := Records.empty
  pushed := Records.empty
  hostData _ := rfl

theorem unpair_injective : Function.Injective Nat.unpair := Nat.pairEquiv.symm.injective

theorem unpair_notMem {c : ℕ} {cs : List ℕ} (h : c ∉ cs) : c.unpair ∉ cs.map Nat.unpair :=
  fun hmem => h ((List.mem_map_of_injective unpair_injective).1 hmem)

theorem mem_map_unpair {w k : ℕ} {cs : List ℕ} :
    (w, k) ∈ cs.map Nat.unpair ↔ Nat.pair w k ∈ cs := by
  rw [← Nat.unpair_pair w k, List.mem_map_of_injective unpair_injective]

variable {cfg : Config} {s s' : State}

/-- A request that was taken up has been sent. -/
theorem Inv.sent (hs : Inv cfg s) {c : ℕ} (hc : c ∈ s.manager.stored) :
    c.unpair.2 < s.clients.sent c.unpair.1 :=
  hs.stored.sent _ (List.mem_map_of_mem hc)

theorem Inv.isSome (hs : Inv cfg s) {c : ℕ} (hc : c ∈ s.manager.stored) :
    ((cfg.worker c.unpair.1).report c.unpair.2).isSome :=
  hs.reported _ _ (hs.sent hc)

theorem Inv.mem_stored (hs : Inv cfg s) {c : ℕ} (hc : c ∈ s.manager.pipe.pushed) :
    c ∈ s.manager.stored := by
  refine hs.called c fun hpending => ?_
  simpa [hpending] using (hs.accounts.pushed_iff c).1 hc

/-- A step of the pipeline. -/
theorem inv_pipe (hs : Inv cfg s) {f : Pipeline.Event} {pipe : Pipeline.State}
    (h : Pipeline.step cfg.pipeline s.manager.pipe f = some pipe)
    (hbegin : ∀ c, f = .begin c → c ∈ s.manager.stored) (store : Store ℚ) :
    Inv cfg { s with manager := { s.manager with pipe := pipe, store := store } } where
  wf := Pipeline.wf_step hs.wf h
  accounts := Pipeline.accounts_step hs.wf hs.accounts h
  lanes j := by
    show (Pipeline.laneOf pipe j).contents = pipe.pushed.filter _
    rcases Pipeline.lanes_step hs.wf h with
      ⟨c, i, -, hroute, hpushed, -, hlane⟩ | ⟨hpushed, -, hlane⟩
    · rw [hlane, hpushed, List.filter_append, ← hs.lanes]
      by_cases hj : j = i
      · subst hj
        rw [if_pos rfl, FifoLane.contents_enqueue, List.filter_cons_of_pos (by simpa using hroute),
          List.filter_nil]
      · have hne : cfg.pipeline.route c ≠ some j := by
          rw [hroute]
          exact fun heq => hj (Option.some.inj heq).symm
        rw [if_neg hj, List.filter_cons_of_neg (by simpa using hne), List.filter_nil,
          List.append_nil]
    · rw [hlane, hpushed, hs.lanes]
  called c hc := (Pipeline.call_of_step h hc).elim (hs.called c) (hbegin c)
  accepted := hs.accepted
  reported := hs.reported
  stored := hs.stored
  pushed := by
    show Records s.clients (pipe.pushed.map Nat.unpair)
    rcases Pipeline.lanes_step hs.wf h with ⟨c, i, hc, -, hpushed, -⟩ | ⟨hpushed, -⟩
    · have hnew : c ∉ s.manager.pipe.pushed := fun hmem => by
        simpa [hc] using (hs.accounts.pushed_iff c).1 hmem
      rw [hpushed, List.map_append]
      exact hs.pushed.append (hs.sent (hs.called c (by rw [hc]; nofun))) (unpair_notMem hnew)
    · rw [hpushed]
      exact hs.pushed
  hostData := hs.hostData

/-- The manager takes up a request. -/
theorem inv_store (hs : Inv cfg s) {c : ℕ} {now : ℤ} (hnew : c ∉ s.manager.stored)
    (hacc : Accepted (cfg.pipeline.report c)) (hsent : c.unpair.2 < s.clients.sent c.unpair.1) :
    Inv cfg { s with manager := { s.manager with
      hostData := update s.manager.hostData (setMonitorInfoKey (cfg.pipeline.report c))
        (some ⟨cfg.pipeline.report c, now⟩)
      stored := s.manager.stored ++ [c] } } where
  wf := hs.wf
  accounts := hs.accounts
  lanes := hs.lanes
  called d hd := List.mem_append_left _ (hs.called d hd)
  accepted d hd := by
    rcases List.mem_append.1 hd with hd | hd
    · exact hs.accepted d hd
    · rwa [List.mem_singleton.1 hd]
  reported := hs.reported
  stored := by
    rw [List.map_append]
    exact hs.stored.append hsent (unpair_notMem hnew)
  pushed := hs.pushed
  hostData key := by
    show (update s.manager.hostData _ _ key).map _ =
      ((s.manager.stored ++ [c]).filter _).getLast?.map _
    rw [List.filter_append]
    by_cases hkey : setMonitorInfoKey (cfg.pipeline.report c) = key
    · rw [hkey, update_self, List.filter_cons_of_pos (by simpa using hkey), List.filter_nil,
        List.getLast?_concat]
      rfl
    · rw [update_of_ne (Ne.symm hkey), List.filter_cons_of_neg (by simpa using hkey),
        List.filter_nil, List.append_nil]
      exact hs.hostData key

/-- The clients move. -/
theorem inv_clients (hs : Inv cfg s) {clients : Clients ℕ}
    (hreported : ∀ w, ∀ k < clients.sent w, ((cfg.worker w).report k).isSome)
    (hstored : Records clients (s.manager.stored.map Nat.unpair))
    (hpushed : Records clients (s.manager.pipe.pushed.map Nat.unpair)) :
    Inv cfg { s with clients := clients } :=
  { hs with reported := hreported, stored := hstored, pushed := hpushed }

theorem inv_step {e : Event} (hs : Inv cfg s) (h : step cfg s e = some s') : Inv cfg s' := by
  cases move_of_step h with
  | @push w hreport =>
    refine inv_clients hs (fun v k hk => ?_) (hs.stored.send w) (hs.pushed.send w)
    by_cases hv : v = w
    · subst hv
      simp only [Clients.send, update_self] at hk
      rcases Nat.lt_succ_iff_lt_or_eq.1 hk with hlt | rfl
      · exact hs.reported v k hlt
      · exact hreport
    · simp only [Clients.send, update_of_ne hv] at hk
      exact hs.reported v k hk
  | manager hsent hstep =>
    cases LiveStores.move_of_step hstep with
    | store hnew hacc => exact inv_store hs hnew hacc hsent
    | pipe _ hcall _ hpipe => exact inv_pipe hs hpipe hcall _
    | process _ hpipe => exact inv_pipe hs hpipe (fun _ hf => by cases hf) _
  | cleanup _ => exact { hs with }
  | @answered w k hwaiting hreturned =>
    have hpushed : Nat.pair w k ∈ s.manager.pipe.pushed :=
      (hs.accounts.pushed_iff _).2 (.inr hreturned)
    exact inv_clients hs hs.reported
      (hs.stored.succeed hwaiting (mem_map_unpair.2 (hs.mem_stored hpushed)))
      (hs.pushed.succeed hwaiting (mem_map_unpair.2 hpushed))
  | @failed w => exact inv_clients hs hs.reported (hs.stored.fail w) (hs.pushed.fail w)

theorem inv_run {es : List Event} (h : run (step cfg) (start cfg) es = some s) : Inv cfg s :=
  run_invariant (fun _ _ _ => inv_step) h (inv_start cfg)

/-! ### Delivery -/

/-- An acknowledged report has been pushed. -/
theorem Inv.mem_pushed (hs : Inv cfg s) {w k : ℕ} (hk : k ∈ s.clients.succeeded w) :
    Nat.pair w k ∈ s.manager.pipe.pushed :=
  mem_map_unpair.1 (hs.pushed.succeeded w k hk)

/-- A call in a lane is one of a worker whose lane it is. -/
theorem Inv.lane_eq (hs : Inv cfg s) {i w k : ℕ}
    (h : Nat.pair w k ∈ (Pipeline.laneOf s.manager.pipe i).contents) : i = cfg.lane w := by
  have hstored := hs.mem_stored (Pipeline.pushed_of_mem_lane hs.accounts h)
  have hroute := route_eq (hs.isSome hstored) (hs.accepted _ hstored)
  rw [hs.accounts.routed i _ h, Nat.unpair_pair] at hroute
  exact Option.some.inj hroute

/-- An acknowledged report is in the lane of its worker. -/
theorem Inv.mem_lane (hs : Inv cfg s) {w k : ℕ} (hk : k ∈ s.clients.succeeded w) :
    Nat.pair w k ∈ (Pipeline.laneOf s.manager.pipe (cfg.lane w)).contents := by
  have hpushed := hs.mem_pushed hk
  have hstored := hs.mem_stored hpushed
  refine Pipeline.mem_lane_of_pushed hs.accounts hpushed ?_
  rw [route_eq (hs.isSome hstored) (hs.accepted _ hstored), Nat.unpair_pair]

/-- In its lane an acknowledged report stands before the later ones of its worker. -/
theorem Inv.lane_order (hs : Inv cfg s) {w k k' : ℕ} (hk : k ∈ s.clients.succeeded w) (hlt : k < k')
    {old new : List ℕ}
    (hlane : (Pipeline.laneOf s.manager.pipe (cfg.lane w)).contents = old ++ new)
    (hold : Nat.pair w k' ∈ old) : Nat.pair w k ∈ old := by
  have hmem := hs.mem_lane hk
  have hpart := (hlane ▸ hs.lanes (cfg.lane w) ▸ List.filter_sublist).map Nat.unpair
  rw [hlane] at hmem
  rw [List.map_append] at hpart
  rw [← mem_map_unpair] at hold ⊢
  refine hs.pushed.before hpart hk hlt hold ?_
  rwa [← List.map_append, mem_map_unpair]

/-- **Delivery.**  In every run of the workers and a manager that serves, whatever the network does:
a report whose call has succeeded is processed, in hand or queued at the one consumer of its worker;
what the consumers hold of a worker are reports that it has sent, each at most once; and no report
of a worker is taken in hand before an earlier one of that worker whose call has succeeded has been
processed. -/
theorem fleet_delivery (cfg : Config) {es : List Event} {s : State}
    (hrun : run (step cfg) (start cfg) es = some s) (w : ℕ) :
    (∀ k ∈ s.clients.succeeded w,
      Nat.pair w k ∈ (Pipeline.laneOf s.manager.pipe (cfg.lane w)).contents) ∧
    (∀ i, (Pipeline.laneOf s.manager.pipe i).contents.Nodup ∧
      ∀ k, Nat.pair w k ∈ (Pipeline.laneOf s.manager.pipe i).contents →
        i = cfg.lane w ∧ k < s.clients.sent w ∧
          (cfg.worker w).report k = some (cfg.pipeline.report (Nat.pair w k))) ∧
    ∀ k ∈ s.clients.succeeded w, ∀ k' > k,
      Nat.pair w k' ∈ s.manager.pipe.handled (cfg.lane w) ∨
        (s.manager.pipe.consumer (cfg.lane w)).current = some (Nat.pair w k') →
      Nat.pair w k ∈ s.manager.pipe.handled (cfg.lane w) := by
  have hs := inv_run hrun
  refine ⟨fun k hk => hs.mem_lane hk, fun i => ⟨Pipeline.lane_nodup hs.accounts i, ?_⟩, ?_⟩
  · intro k hmem
    have hstored := hs.mem_stored (Pipeline.pushed_of_mem_lane hs.accounts hmem)
    have hsent := hs.sent hstored
    have hreport := report_eq (hs.isSome hstored)
    rw [Nat.unpair_pair] at hsent hreport
    exact ⟨hs.lane_eq hmem, hsent, hreport⟩
  · intro k hk k' hlt hbegun
    rcases hbegun with hdone | hhand
    · exact hs.lane_order hk hlt (List.append_assoc ..) hdone
    · have hmem : Nat.pair w k ∈ s.manager.pipe.handled (cfg.lane w) ++ [Nat.pair w k'] := by
        have hlane : (Pipeline.laneOf s.manager.pipe (cfg.lane w)).contents =
            (s.manager.pipe.handled (cfg.lane w) ++ [Nat.pair w k']) ++
              (s.manager.pipe.queue (cfg.lane w)).queue := by
          rw [FifoLane.contents, Pipeline.laneOf, hhand, Option.toList_some]
        exact hs.lane_order hk hlt hlane (List.mem_append_right _ (List.mem_singleton_self _))
      refine (List.mem_append.1 hmem).resolve_right fun hsame => hlt.ne ?_
      have hpair := congrArg Nat.unpair (List.mem_singleton.1 hsame)
      rw [Nat.unpair_pair, Nat.unpair_pair] at hpair
      exact congrArg Prod.snd hpair

/-- Worker 0 is on the host `web` and all others are on the host `db`. -/
def twoHosts : Config where
  worker w := Worker.plain (if w = 0 then "web" else "db") []
  hash _ := 0
  requested := 1
  localtime := LiveStores.stillTime

/-- Worker 0 pushes its first report and is told of its success; nobody has processed it. -/
def oneWaiting : List Event :=
  [.push 0, .manager (.store 0 5), .manager (.call 0), .manager (.push 0), .manager (.ret 0),
    .answered 0]

/-- The consumer then processes it. -/
def onePush : List Event := oneWaiting ++ [.manager (.pop 0), .manager (.process 0 6 .initFailed)]

theorem first_report : ∃ info, (twoHosts.worker 0).report 0 = some info ∧
    twoHosts.pipeline.report 0 = info ∧ Accepted info ∧
    routeIndex twoHosts.pipeline.hash 1 1 info = some 0 := by
  obtain ⟨info, hinfo⟩ := Worker.exists_report_plain "web" [] 0
  have hreport : (twoHosts.worker 0).report 0 = some info := hinfo
  have hacc : Accepted info := by
    rw [(Worker.identity_of_report hinfo).2.2.2]
    decide
  exact ⟨info, hreport, congrArg (·.getD {}) hreport, hacc,
    routeIndex_of_accepted _ Nat.one_pos _ hacc⟩

theorem run_oneWaiting : ∃ s, run (step twoHosts) (start twoHosts) oneWaiting = some s ∧
    s.clients.succeeded 0 = [0] ∧ s.manager.pipe.handled 0 = [] := by
  obtain ⟨info, hreport, hcall, hacc, hroute⟩ := first_report
  have hthreads : twoHosts.pipeline.threadCount = 1 := rfl
  have hpair : Nat.pair 0 0 = 0 := rfl
  simp [oneWaiting, Transition.run_cons, step, start, Sent, Clients.send, Clients.succeed,
    LiveStores.step, LiveStores.start, Pipeline.step, Pipeline.move, Pipeline.live,
    SafeQueue.push, hreport, hcall, hacc, hroute, hthreads, hpair]

theorem run_onePush : ∃ s, run (step twoHosts) (start twoHosts) onePush = some s ∧
    s.clients.succeeded 0 = [0] ∧
    ∃ score, s.manager.store.hostScores "web" = some score ∧ score.timestamp = 6 := by
  obtain ⟨info, hreport, hcall, hacc, hroute⟩ := first_report
  have hthreads : twoHosts.pipeline.threadCount = 1 := rfl
  have hpair : Nat.pair 0 0 = 0 := rfl
  simp [onePush, oneWaiting, Transition.run_cons, step, start, Sent, Clients.send, Clients.succeed,
    LiveStores.step, LiveStores.start, Pipeline.step, Pipeline.move, Pipeline.live,
    SafeQueue.push, SafeQueue.pop, hreport, hcall, hacc, hroute, hthreads, hpair]
  have hid : serverIdentifier info = "web" := (Worker.identity_of_report hreport).2.2.1
  rw [LiveStores.hostScores_processData _ _ _ (by rw [hid]; decide), hid, update_self]
  exact ⟨_, rfl, rfl⟩

theorem fleet_delivery_onePush : ∃ s, run (step twoHosts) (start twoHosts) onePush = some s ∧
    s.clients.succeeded 0 = [0] ∧
    Nat.pair 0 0 ∈ (Pipeline.laneOf s.manager.pipe (twoHosts.lane 0)).contents := by
  obtain ⟨s, hrun, hacknowledged, -⟩ := run_onePush
  exact ⟨s, hrun, hacknowledged,
    (fleet_delivery twoHosts hrun 0).1 0 (by rw [hacknowledged]; exact List.mem_singleton_self 0)⟩

/-! ### Freshness -/

/-- No other worker has the key or the identifier of worker `w`. -/
def Config.Sole (cfg : Config) (w : ℕ) : Prop :=
  ∀ v ≠ w, (cfg.worker v).key ≠ (cfg.worker w).key ∧
    (cfg.worker v).identifier ≠ (cfg.worker w).identifier

/-- Among the requests taken up, those under the key of the worker are its own. -/
theorem Inv.key_eq_iff (hs : Inv cfg s) {w : ℕ} (hw : cfg.Sole w) {c : ℕ}
    (hc : c ∈ s.manager.stored) :
    setMonitorInfoKey (cfg.pipeline.report c) = (cfg.worker w).key ↔ c.unpair.1 = w := by
  rw [key_eq (hs.isSome hc)]
  exact ⟨fun heq => by_contra fun hne => (hw _ hne).1 heq, fun heq => by rw [heq]⟩

theorem Inv.identifier_eq_iff_worker (hs : Inv cfg s) {w : ℕ} (hw : cfg.Sole w) {c : ℕ}
    (hc : c ∈ s.manager.stored) :
    serverIdentifier (cfg.pipeline.report c) = (cfg.worker w).identifier ↔ c.unpair.1 = w := by
  rw [identifier_eq (hs.isSome hc)]
  exact ⟨fun heq => by_contra fun hne => (hw _ hne).2 heq, fun heq => by rw [heq]⟩

/-- A report in hand is in its lane. -/
theorem mem_lane_of_processing {pipe : Pipeline.State} {i c : ℕ}
    (hi : pipe.consumer i = .processing c) : c ∈ (Pipeline.laneOf pipe i).contents := by
  have hcur : (pipe.consumer i).current = some c := by rw [hi]; rfl
  exact FifoLane.mem_contents.2 (.inr (.inl hcur))

/-- The entry of a worker in `host_scores_`. -/
def State.entry (s : State) (cfg : Config) (w : ℕ) : Option (HostScore ℚ) :=
  s.manager.store.hostScores (cfg.worker w).identifier

/-- The calls of a worker whose reports have been processed, in order. -/
def State.processedOf (s : State) (cfg : Config) (w : ℕ) : List ℕ :=
  (s.manager.pipe.handled (cfg.lane w)).filter fun c => c.unpair.1 = w

/-- A pass of `ProcessLoop` does not find the entry of the worker older than a minute. -/
def Keeps (cfg : Config) (w : ℕ) (s : State) : Event → Prop
  | .cleanup now => ∀ score, s.entry cfg w = some score → ¬ 60 < HostScores.age now score
  | _ => True

/-- What a step does to the entry of a worker whose identifier is its own: it processes a report of
the worker and writes that, or it leaves the entry, unless it is a pass that finds it old. -/
theorem entry_cases (hs : Inv cfg s) {w : ℕ} (hw : cfg.Sole w) {e : Event}
    (h : step cfg s e = some s') :
    (s'.processedOf cfg w = s.processedOf cfg w ∧ ((s'.entry cfg w = s.entry cfg w) ∨
      (s'.entry cfg w = none ∧ ¬ Keeps cfg w s e))) ∨
    ∃ c score, s'.processedOf cfg w = s.processedOf cfg w ++ [c] ∧
      s'.entry cfg w = some score ∧ score.info = cfg.pipeline.report c := by
  cases move_of_step h with
  | push _ | answered _ _ | failed => exact .inl ⟨rfl, .inl rfl⟩
  | cleanup now =>
    refine .inl ⟨rfl, ?_⟩
    show (Option.filter _ (s.entry cfg w) = s.entry cfg w) ∨
      (Option.filter _ (s.entry cfg w) = none ∧ ¬ ∀ score, s.entry cfg w = some score → _)
    cases s.entry cfg w with
    | none => exact .inl rfl
    | some score =>
      by_cases hold : 60 < HostScores.age now score
      · refine .inr ⟨?_, fun hkeeps => hkeeps score rfl hold⟩
        rw [Option.filter_some, if_neg (by simpa using hold)]
      · exact .inl (by rw [Option.filter_some, if_pos (by simpa using hold)])
  | manager _ hstep =>
    cases LiveStores.move_of_step hstep with
    | store _ _ => exact .inl ⟨rfl, .inl rfl⟩
    | pipe hf _ _ hpipe =>
      refine .inl ⟨?_, .inl rfl⟩
      show (Pipeline.State.handled _ _).filter _ = _
      rw [Pipeline.handled_of_step hf hpipe]
      rfl
    | @process i c now connection pipe hi hpipe =>
      have hlane := mem_lane_of_processing hi
      have hstored := hs.mem_stored (Pipeline.pushed_of_mem_lane hs.accounts hlane)
      have hid := serverIdentifier_ne_empty (hs.accepted c hstored)
      simp only [State.processedOf, State.entry]
      rw [LiveStores.hostScores_processData _ _ _ hid, Pipeline.handled_of_done hi hpipe]
      by_cases hcw : c.unpair.1 = w
      · -- a report of the worker, at its consumer
        have hi : i = cfg.lane w := by
          rw [← Nat.pair_unpair c, hcw] at hlane
          exact hs.lane_eq hlane
        refine .inr
          ⟨c, ⟨cfg.pipeline.report c, calcScore (cfg.pipeline.report c), now⟩, ?_, ?_, rfl⟩
        · rw [hi, update_self, List.filter_append, List.filter_cons_of_pos (by simpa using hcw),
            List.filter_nil]
        · rw [(hs.identifier_eq_iff_worker hw hstored).2 hcw, update_self]
      · refine .inl ⟨?_, .inl ?_⟩
        · by_cases hi : cfg.lane w = i
          · rw [hi, update_self, List.filter_append, List.filter_cons_of_neg (by simpa using hcw),
              List.filter_nil, List.append_nil]
          · rw [update_of_ne hi]
        · rw [update_of_ne fun heq => hcw ((hs.identifier_eq_iff_worker hw hstored).1 heq.symm)]

/-- What `host_scores_` holds for a worker whose identifier is its own, if anything: the last of its
reports that was processed. -/
structure Scored (cfg : Config) (w : ℕ) (s : State) : Prop extends Inv cfg s where
  entry : ∀ score, s.entry cfg w = some score →
    (s.processedOf cfg w).getLast?.map cfg.pipeline.report = some score.info

theorem scored_start (cfg : Config) (w : ℕ) : Scored cfg w (start cfg) where
  toInv := inv_start cfg
  entry score hscore := by
    have hnone : (start cfg).entry cfg w = none := rfl
    rw [hnone] at hscore
    cases hscore

theorem scored_step {w : ℕ} (hw : cfg.Sole w) {e : Event} (hs : Scored cfg w s)
    (h : step cfg s e = some s') : Scored cfg w s' := by
  refine ⟨inv_step hs.toInv h, fun score hscore => ?_⟩
  rcases entry_cases hs.toInv hw h with ⟨hprocessed, hentry | ⟨hnone, -⟩⟩ |
    ⟨c, score', hprocessed, hentry, hinfo⟩
  · rw [hprocessed]
    exact hs.entry score (hentry ▸ hscore)
  · rw [hnone] at hscore
    cases hscore
  · obtain rfl := Option.some.inj (hentry.symm.trans hscore)
    rw [hprocessed, List.getLast?_concat, hinfo]
    rfl

/-- The worker has an entry, if it had one or a report of it has been processed since, and no pass
has found an old one. -/
theorem isSome_entry_step (hs : Inv cfg s) {w : ℕ} (hw : cfg.Sole w) {e : Event}
    (hkeeps : Keeps cfg w s e) (h : step cfg s e = some s')
    (hnew : (s.entry cfg w).isSome ∨ s'.processedOf cfg w ≠ s.processedOf cfg w) :
    (s'.entry cfg w).isSome := by
  rcases entry_cases hs hw h with ⟨hprocessed, hentry | ⟨-, hnot⟩⟩ | ⟨c, score, -, hentry, -⟩
  · rw [hentry]
    exact hnew.resolve_right fun hne => hne hprocessed
  · exact absurd hkeeps hnot
  · rw [hentry]
    rfl

theorem isSome_entry_run (hs : Inv cfg s) {w : ℕ} (hw : cfg.Sole w) {es : List Event}
    (h : run (step cfg) s es = some s') (hkeeps : Along (step cfg) (Keeps cfg w) s es)
    (hnew : (s.entry cfg w).isSome ∨ s'.processedOf cfg w ≠ s.processedOf cfg w) :
    (s'.entry cfg w).isSome := by
  refine (run_invariant_along (I := fun t => Inv cfg t ∧ ((s.entry cfg w).isSome ∨
    t.processedOf cfg w ≠ s.processedOf cfg w → (t.entry cfg w).isSome))
    (fun t e t' ht hkeep hstep => ⟨inv_step ht.1 hstep, fun hnew => ?_⟩) h hkeeps
    ⟨hs, fun hold => hold.resolve_right fun hne => hne rfl⟩).2 hnew
  refine isSome_entry_step ht.1 hw hkeep hstep ?_
  by_cases hsame : t'.processedOf cfg w = t.processedOf cfg w
  · exact .inl (ht.2 (hsame ▸ hnew))
  · exact .inr hsame

/-- The reports are processed in the order in which they were pushed. -/
theorem Inv.handled_sublist (hs : Inv cfg s) (i : ℕ) :
    (s.manager.pipe.handled i).Sublist s.manager.pipe.pushed := by
  have hprefix : (s.manager.pipe.handled i).Sublist
      (Pipeline.laneOf s.manager.pipe i).contents := by
    rw [FifoLane.contents, List.append_assoc]
    exact List.sublist_append_left _ _
  exact hprefix.trans (hs.lanes i ▸ List.filter_sublist)

/-- The last call of a worker among some of the calls in a log. -/
theorem exists_latest {clients : Clients ℕ} {log calls : List ℕ}
    (h : Records clients (log.map Nat.unpair)) (hcalls : calls.Sublist log) {w c : ℕ}
    (hlast : (calls.filter fun d => d.unpair.1 = w).getLast? = some c) :
    ∃ n, c = Nat.pair w n ∧ c ∈ calls ∧ (clients.NotFailed w n →
      ∀ k ∈ clients.succeeded w, Nat.pair w k ∈ calls → k ≤ n) := by
  have hmem := List.mem_filter.1 (List.mem_of_getLast? hlast)
  have hw : c.unpair.1 = w := by simpa using hmem.2
  refine ⟨c.unpair.2, by rw [← hw, Nat.pair_unpair], hmem.1, fun hn k hk hkmem => ?_⟩
  have hpart : ((calls.filter fun d => d.unpair.1 = w).map Nat.unpair).Sublist
      (log.map Nat.unpair) := (List.filter_sublist.trans hcalls).map _
  refine h.le_last hpart ?_ hn hk (mem_map_unpair.2 (List.mem_filter.2 ⟨hkmem, by simp⟩))
  rw [List.getLast?_map, hlast, ← hw]
  rfl

/-- **Freshness.**  In every run, for a worker whose key and identifier no other worker has: once a
call of it has succeeded, `host_data_` has a report under its key, one that the worker has sent, and
no call with a later report has succeeded, unless the call with this report has failed.  What
`host_scores_` has under its identifier is such a report too, among those that have been processed;
and from any state of the run on it has one, if it has one then or processes one later, as long as
no pass of `ProcessLoop` finds it older than a minute. -/
theorem fleet_fresh (cfg : Config) {w : ℕ} (hw : cfg.Sole w) {es : List Event} {s : State}
    (hrun : run (step cfg) (start cfg) es = some s) :
    (∀ k ∈ s.clients.succeeded w, (s.manager.hostData (cfg.worker w).key).isSome) ∧
    (∀ data, s.manager.hostData (cfg.worker w).key = some data →
      ∃ n < s.clients.sent w, (cfg.worker w).report n = some data.info ∧
        (s.clients.NotFailed w n → ∀ k ∈ s.clients.succeeded w, k ≤ n)) ∧
    (∀ es' s', run (step cfg) s es' = some s' → Along (step cfg) (Keeps cfg w) s es' →
      (s.entry cfg w).isSome ∨ s'.processedOf cfg w ≠ s.processedOf cfg w →
      (s'.entry cfg w).isSome) ∧
    ∀ score, s.entry cfg w = some score →
      ∃ n < s.clients.sent w, (cfg.worker w).report n = some score.info ∧
        (s.clients.NotFailed w n → ∀ k ∈ s.clients.succeeded w,
          Nat.pair w k ∈ s.manager.pipe.handled (cfg.lane w) → k ≤ n) := by
  have hscored : Scored cfg w s :=
    run_invariant (fun _ _ _ => scored_step hw) hrun (scored_start cfg w)
  have hs := hscored.toInv
  have hreport {n : ℕ} (hn : Nat.pair w n ∈ s.manager.stored) : n < s.clients.sent w ∧
      (cfg.worker w).report n = some (cfg.pipeline.report (Nat.pair w n)) := by
    have hsent := hs.sent hn
    have hinfo := report_eq (hs.isSome hn)
    rw [Nat.unpair_pair] at hsent hinfo
    exact ⟨hsent, hinfo⟩
  -- the requests under the key of the worker are its own
  have hdata := hs.hostData (cfg.worker w).key
  rw [List.filter_congr fun c hc => decide_eq_decide.2 (hs.key_eq_iff hw hc)] at hdata
  have hhandled {c : ℕ} (hc : c ∈ s.manager.pipe.handled (cfg.lane w)) :
      c ∈ s.manager.pipe.pushed :=
    Pipeline.pushed_of_mem_lane hs.accounts (FifoLane.mem_contents.2 (.inl hc))
  refine ⟨fun k hk => ?_, fun data hfound => ?_,
    fun es' s' hrun' hkeeps hnew => isSome_entry_run hs hw hrun' hkeeps hnew,
    fun score hfound => ?_⟩
  · have hkeyed : (s.manager.stored.filter fun c => c.unpair.1 = w).getLast?.isSome := by
      rw [List.getLast?_isSome]
      exact List.ne_nil_of_mem
        (List.mem_filter.2 ⟨hs.mem_stored (hs.mem_pushed hk), by simp⟩)
    rw [← Option.isSome_map, hdata, Option.isSome_map]
    exact hkeyed
  · rw [hfound, Option.map_some, eq_comm, Option.map_eq_some_iff] at hdata
    obtain ⟨c, hlast, hinfo⟩ := hdata
    obtain ⟨n, rfl, hmem, hle⟩ := exists_latest hs.stored (List.Sublist.refl _) hlast
    obtain ⟨hsent, hn⟩ := hreport hmem
    exact ⟨n, hsent, hinfo ▸ hn, fun hnf k hk =>
      hle hnf k hk (hs.mem_stored (hs.mem_pushed hk))⟩
  · obtain ⟨c, hlast, hinfo⟩ := Option.map_eq_some_iff.1 (hscored.entry score hfound)
    obtain ⟨n, rfl, hmem, hle⟩ := exists_latest hs.pushed (hs.handled_sublist _) hlast
    obtain ⟨hsent, hn⟩ := hreport (hs.mem_stored (hhandled hmem))
    exact ⟨n, hsent, hinfo ▸ hn, hle⟩

theorem sole_twoHosts : twoHosts.Sole 0 := by
  intro v hv
  have hworker : twoHosts.worker v = Worker.plain "db" [] := by simp [twoHosts, hv]
  rw [hworker]
  decide

/-- Half a minute after the report a pass keeps it, and so the host is still there. -/
theorem fleet_fresh_onePush : ∃ s s' : State,
    run (step twoHosts) (start twoHosts) onePush = some s ∧
    run (step twoHosts) s [.cleanup 30000000000] = some s' ∧
    (s.manager.hostData "web").isSome ∧ (s'.entry twoHosts 0).isSome := by
  obtain ⟨s, hrun, hacknowledged, score, hscore, htime⟩ := run_onePush
  obtain ⟨hdata, -, hkept, -⟩ := fleet_fresh twoHosts sole_twoHosts hrun
  have hentry : s.entry twoHosts 0 = some score := hscore
  refine ⟨s, _, hrun, rfl, hdata 0 (by rw [hacknowledged]; exact List.mem_singleton_self 0),
    hkept [.cleanup 30000000000] _ rfl ⟨fun score' hscore' => ?_, fun _ _ => trivial⟩
      (.inl (by rw [hentry]; rfl))⟩
  obtain rfl := Option.some.inj (hentry.symm.trans hscore')
  rw [HostScores.age, htime]
  decide

end Fleet

end MonitorSystem
