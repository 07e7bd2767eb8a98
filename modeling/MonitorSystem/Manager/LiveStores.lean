import MonitorSystem.Manager.Ingest
import MonitorSystem.Manager.ProcessData

/-!
# The two stores of live data

A report reaches two stores.  `SetMonitorInfo` puts it into `host_data_` under a lock, releases the
lock, and then hands the report to `HostManager`, whose consumer puts it into `host_scores_`.  An
RPC is a call of the pipeline preceded by that first critical section; `step` interleaves any
number of them with the consumers.

Each store is last-write-wins, with its own order of writes: the order of the critical sections
for the one, the order of the pushes for the other (`live_stores`).
-/

namespace MonitorSystem

/-- `HostData`. -/
structure HostData (F : Type) where
  info : MonitorInfo F
  timestamp : ℤ

namespace LiveStores

open Transition Function

variable {F : Type} {cfg : Pipeline.Config F}

/-! ### One host -/

/-- Every RPC carries a report with this name, this hostname and this address. -/
structure SameHost (cfg : Pipeline.Config F) (name hostname ip : String) : Prop where
  name_ne : name ≠ ""
  hostname_ne : hostname ≠ ""
  ip_ne : ip ≠ ""
  name_eq : ∀ c, (cfg.report c).name = name
  hostname_eq : ∀ c, (cfg.report c).hostname = hostname
  ip_eq : ∀ c, (cfg.report c).ipAddress = ip

namespace SameHost

variable {name hostname ip : String} (h : SameHost cfg name hostname ip) (c : ℕ)
include h

theorem key_eq : setMonitorInfoKey (cfg.report c) = name := by
  rw [setMonitorInfoKey, if_neg, h.name_eq]
  rw [h.name_eq]
  exact fun hn => h.name_ne hn.1

theorem identifier_eq : serverIdentifier (cfg.report c) = hostname ++ "_" ++ ip := by
  rw [serverIdentifier_eq, h.hostname_eq, h.ip_eq, if_pos h.hostname_ne, if_pos h.ip_ne]

theorem route_eq : cfg.route c = some (cfg.hash hostname % cfg.threadCount) := by
  have hname : routingName (cfg.report c) = hostname := by
    rw [routingName_eq, h.hostname_eq, if_pos h.hostname_ne]
  have hacc : Accepted (cfg.report c) :=
    (accepted_iff _).2 (.inl (by rw [h.name_eq]; exact h.name_ne))
  rw [Pipeline.Config.route, routeIndex_of_accepted _ cfg.threadCount_pos _ hacc, hname]

end SameHost

/-! ### The system -/

variable [CxxFloat F]

/-- The pipeline, the two stores, and the RPCs in the order in which they have stored. -/
structure State (F : Type) where
  pipe : Pipeline.State
  hostData : String → Option (HostData F) := fun _ => none
  store : Store F := {}
  stored : List ℕ := []

/-- One atomic step of an RPC or of a consumer. -/
inductive Event
  /-- RPC `c` stores its report into `host_data_` -/
  | store (c : ℕ) (now : ℤ)
  /-- RPC `c` calls `OnDataReceived` -/
  | call (c : ℕ)
  /-- RPC `c` pushes its report -/
  | push (c : ℕ)
  /-- RPC `c` returns -/
  | ret (c : ℕ)
  /-- consumer `i` evaluates `while (running_)` -/
  | test (i : ℕ)
  /-- consumer `i` completes `Pop` -/
  | pop (i : ℕ)
  /-- consumer `i` runs `ProcessData` to its end -/
  | process (i : ℕ) (now : ℤ) (connection : Connection)

/-- What `ProcessData` finds around it. -/
def envOf (cfg : Pipeline.Config F) (localtime : ℤ → ClockText.Tm) : Env :=
  ⟨cfg.hash, cfg.threadCount, localtime⟩

/-- One step. -/
def step (cfg : Pipeline.Config F) (localtime : ℤ → ClockText.Tm) (s : State F) :
    Event → Option (State F)
  | .store c now =>
    if c ∉ s.stored ∧ Accepted (cfg.report c) then
      some { s with
        hostData := update s.hostData (setMonitorInfoKey (cfg.report c))
          (some ⟨cfg.report c, now⟩)
        stored := s.stored ++ [c] }
    else none
  | .call c =>
    if c ∈ s.stored then
      (Pipeline.step cfg s.pipe (.begin c)).map fun pipe => { s with pipe := pipe }
    else none
  | .push c => (Pipeline.step cfg s.pipe (.push c)).map fun pipe => { s with pipe := pipe }
  | .ret c => (Pipeline.step cfg s.pipe (.ret c)).map fun pipe => { s with pipe := pipe }
  | .test i => (Pipeline.step cfg s.pipe (.test i)).map fun pipe => { s with pipe := pipe }
  | .pop i => (Pipeline.step cfg s.pipe (.pop i)).map fun pipe => { s with pipe := pipe }
  | .process i now connection =>
    match s.pipe.consumer i with
    | .processing c =>
      (Pipeline.step cfg s.pipe (.done i)).map fun pipe => { s with
        pipe := pipe
        store := (processData (envOf cfg localtime) i s.store
          ⟨cfg.report c, now, connection⟩).1 }
    | _ => none

/-- The manager serves and nothing has been received. -/
def start (cfg : Pipeline.Config F) : State F := { pipe := Pipeline.live cfg }

/-! ### What a step can do -/

/-- The steps of the system: a store, a step of the pipeline that completes no report, or one
that completes a report. -/
inductive Move (cfg : Pipeline.Config F) (localtime : ℤ → ClockText.Tm) (s : State F) :
    Event → State F → Prop
  | store {c : ℕ} {now : ℤ} (hc : c ∉ s.stored) (hacc : Accepted (cfg.report c)) :
      Move cfg localtime s (.store c now) { s with
        hostData := update s.hostData (setMonitorInfoKey (cfg.report c))
          (some ⟨cfg.report c, now⟩)
        stored := s.stored ++ [c] }
  | pipe {e : Event} {f : Pipeline.Event} {pipe : Pipeline.State}
      (hf : ∀ i, f ≠ .done i) (hcall : ∀ c, f = .begin c → c ∈ s.stored)
      (he : ∀ c now, e ≠ .store c now)
      (hpipe : Pipeline.step cfg s.pipe f = some pipe) :
      Move cfg localtime s e { s with pipe := pipe }
  | process {i c : ℕ} {now : ℤ} {connection : Connection} {pipe : Pipeline.State}
      (hi : s.pipe.consumer i = .processing c)
      (hpipe : Pipeline.step cfg s.pipe (.done i) = some pipe) :
      Move cfg localtime s (.process i now connection) { s with
        pipe := pipe
        store := (processData (envOf cfg localtime) i s.store
          ⟨cfg.report c, now, connection⟩).1 }

variable {localtime : ℤ → ClockText.Tm}

theorem move_of_step {s s' : State F} {e : Event} (h : step cfg localtime s e = some s') :
    Move cfg localtime s e s' := by
  cases e with
  | store c now =>
    simp only [step] at h
    split_ifs at h with hg
    cases h
    exact .store hg.1 hg.2
  | call c =>
    simp only [step] at h
    split_ifs at h with hg
    obtain ⟨pipe, hpipe, rfl⟩ := Option.map_eq_some_iff.1 h
    refine .pipe (f := .begin c) (fun _ => nofun) (fun d hd => ?_) (fun _ _ => nofun) hpipe
    cases hd
    exact hg
  | push c =>
    obtain ⟨pipe, hpipe, rfl⟩ := Option.map_eq_some_iff.1 h
    exact .pipe (f := .push c) (fun _ => nofun) (fun _ => nofun) (fun _ _ => nofun) hpipe
  | ret c =>
    obtain ⟨pipe, hpipe, rfl⟩ := Option.map_eq_some_iff.1 h
    exact .pipe (f := .ret c) (fun _ => nofun) (fun _ => nofun) (fun _ _ => nofun) hpipe
  | test i =>
    obtain ⟨pipe, hpipe, rfl⟩ := Option.map_eq_some_iff.1 h
    exact .pipe (f := .test i) (fun _ => nofun) (fun _ => nofun) (fun _ _ => nofun) hpipe
  | pop i =>
    obtain ⟨pipe, hpipe, rfl⟩ := Option.map_eq_some_iff.1 h
    exact .pipe (f := .pop i) (fun _ => nofun) (fun _ => nofun) (fun _ _ => nofun) hpipe
  | process i now connection =>
    simp only [step] at h
    split at h
    next c hi =>
      obtain ⟨pipe, hpipe, rfl⟩ := Option.map_eq_some_iff.1 h
      exact .process hi hpipe
    next => cases h

/-- `ProcessData` stores the report under its identifier. -/
theorem hostScores_processData (env : Env) (thread : ℕ) (store : Store F) {job : Job F}
    (hid : serverIdentifier job.info ≠ "") :
    (processData env thread store job).1.hostScores =
      update store.hostScores (serverIdentifier job.info)
        (some ⟨job.info, calcScore job.info, job.now⟩) := by
  simp only [processData, if_neg hid]
  cases job.connection <;> rfl

/-! ### The invariant -/

/-- What holds of every reachable state when all reports are of one host, whose queue is `r`. -/
structure Inv (cfg : Pipeline.Config F) (name identifier : String) (r : ℕ) (s : State F) :
    Prop where
  wf : Pipeline.WF cfg s.pipe
  accounts : Pipeline.Accounts cfg s.pipe
  called : ∀ c, s.pipe.call c ≠ .pending → c ∈ s.stored
  nodup : s.stored.Nodup
  lane : (Pipeline.laneOf s.pipe r).contents = s.pipe.pushed
  hostData : (s.hostData name).map (·.info) = s.stored.getLast?.map cfg.report
  hostScores : (s.store.hostScores identifier).map (·.info) =
    (s.pipe.handled r).getLast?.map cfg.report

omit [CxxFloat F] in
theorem inv_start (cfg : Pipeline.Config F) (name identifier : String) (r : ℕ) :
    Inv cfg name identifier r (start cfg) where
  wf := Pipeline.wf_live cfg
  accounts := Pipeline.accounts_live cfg
  called c hc := absurd rfl hc
  nodup := List.nodup_nil
  lane := by
    rw [FifoLane.contents, Pipeline.laneOf, start, Pipeline.current_live]
    rfl
  hostData := rfl
  hostScores := rfl

variable {name hostname ip : String}

theorem inv_step (hsame : SameHost cfg name hostname ip) {s s' : State F} {e : Event}
    (hs : Inv cfg name (hostname ++ "_" ++ ip) (cfg.hash hostname % cfg.threadCount) s)
    (h : step cfg localtime s e = some s') :
    Inv cfg name (hostname ++ "_" ++ ip) (cfg.hash hostname % cfg.threadCount) s' := by
  have hlane : ∀ {f : Pipeline.Event} {pipe : Pipeline.State},
      Pipeline.step cfg s.pipe f = some pipe →
      (Pipeline.laneOf pipe (cfg.hash hostname % cfg.threadCount)).contents = pipe.pushed := by
    intro f pipe hpipe
    rcases Pipeline.lanes_step hs.wf hpipe with
      ⟨c, i, -, hroute, hpushed, -, hlane⟩ | ⟨hpushed, -, hlane⟩
    · rw [hsame.route_eq, Option.some.injEq] at hroute
      rw [hlane, if_pos hroute, FifoLane.contents_enqueue, hs.lane, hpushed]
    · rw [hlane, hs.lane, hpushed]
  have hcalled : ∀ {f : Pipeline.Event} {pipe : Pipeline.State},
      Pipeline.step cfg s.pipe f = some pipe → (∀ c, f = .begin c → c ∈ s.stored) →
      ∀ c, pipe.call c ≠ .pending → c ∈ s.stored := by
    intro f pipe hpipe hbegin c hc
    exact (Pipeline.call_of_step hpipe hc).elim (hs.called c) (hbegin c)
  cases move_of_step h with
  | @store c now hc _ =>
    refine ⟨hs.wf, hs.accounts, fun d hd => ?_, ?_, hs.lane, ?_, hs.hostScores⟩
    · exact List.mem_append_left _ (hs.called d hd)
    · exact List.concat_eq_append ▸ hs.nodup.concat hc
    · show (update s.hostData _ _ name).map _ = (s.stored ++ [c]).getLast?.map cfg.report
      rw [hsame.key_eq, update_self, List.getLast?_concat]
      rfl
  | pipe hf hcall _ hpipe =>
    refine ⟨Pipeline.wf_step hs.wf hpipe, Pipeline.accounts_step hs.wf hs.accounts hpipe,
      hcalled hpipe hcall, hs.nodup, hlane hpipe, hs.hostData, ?_⟩
    rw [Pipeline.handled_of_step hf hpipe]
    exact hs.hostScores
  | @process i c now connection pipe hi hpipe =>
    refine ⟨Pipeline.wf_step hs.wf hpipe, Pipeline.accounts_step hs.wf hs.accounts hpipe,
      hcalled hpipe nofun, hs.nodup, hlane hpipe, hs.hostData, ?_⟩
    -- the consumer that had the report in hand is the one of the host's queue
    have hcur : (s.pipe.consumer i).current = some c := by rw [hi]; rfl
    have hroute := hs.accounts.routed i c (FifoLane.mem_contents.2 (.inr (.inl hcur)))
    rw [hsame.route_eq, Option.some.injEq] at hroute
    have hhandled : pipe.handled i = s.pipe.handled i ++ [c] := by
      rw [Pipeline.handled_of_done hi hpipe, update_self]
    have hid := hsame.identifier_eq c
    have hne : serverIdentifier (cfg.report c) ≠ "" := by
      rw [hid]
      simp [String.append_eq_empty_iff]
    show ((processData _ _ _ _).1.hostScores _).map _ = (pipe.handled _).getLast?.map cfg.report
    rw [hroute, hhandled, List.getLast?_concat, hostScores_processData _ _ _ hne, ← hid,
      update_self]
    rfl

/-! ### Serial stores -/

/-- When the step is a store, every RPC that has stored before has also pushed. -/
def Serial (s : State F) (e : Event) : Prop :=
  ∀ c now, e = .store c now → ∀ d ∈ s.stored, d ∈ s.pipe.pushed

/-- The pushes follow the stores. -/
def InStep (s : State F) : Prop :=
  s.stored = s.pipe.pushed ∨ ∃ c, s.stored = s.pipe.pushed ++ [c]

theorem inStep_step {r : ℕ} {identifier : String} {s s' : State F} {e : Event}
    (hs : Inv cfg name identifier r s) (hin : InStep s) (hserial : Serial s e)
    (h : step cfg localtime s e = some s') : InStep s' := by
  have hnodup := hs.nodup
  have hpipe : ∀ {f : Pipeline.Event} {pipe : Pipeline.State},
      Pipeline.step cfg s.pipe f = some pipe →
      s.stored = pipe.pushed ∨ ∃ c, s.stored = pipe.pushed ++ [c] := by
    intro f pipe hstep
    rcases Pipeline.lanes_step hs.wf hstep with ⟨c, i, hc, -, hpushed, -⟩ | ⟨hpushed, -⟩
    · have hmem := hs.called c (by rw [hc]; nofun)
      have hnew : c ∉ s.pipe.pushed := fun hp => by
        simpa [hc] using (hs.accounts.pushed_iff c).1 hp
      rcases hin with heq | ⟨d, heq⟩
      · exact absurd (heq ▸ hmem) hnew
      · rw [heq, List.mem_append, List.mem_singleton] at hmem
        rw [hpushed, heq, hmem.resolve_left hnew]
        exact .inl rfl
    · rwa [hpushed]
  cases move_of_step h with
  | @store c now hc _ =>
    rcases hin with heq | ⟨d, heq⟩
    · exact .inr ⟨c, congrArg (· ++ [c]) heq⟩
    · have hd := hserial c now rfl d (by rw [heq]; simp)
      rw [heq] at hnodup
      exact absurd rfl ((List.nodup_append.1 hnodup).2.2 d hd d (List.mem_singleton_self d))
  | pipe _ _ _ hstep => exact hpipe hstep
  | process _ hstep => exact hpipe hstep

/-! ### Agreement -/

/-- **The two live stores.**  For every interleaving of RPCs that carry reports of one host, with
the consumer of its queue: once every RPC has returned and the queue is drained,
`host_data_` holds the report that was stored last and `host_scores_` the report that was pushed
last.  The two are the same report when no RPC has stored between the store and the push of
another. -/
theorem live_stores (cfg : Pipeline.Config F) (localtime : ℤ → ClockText.Tm)
    (hsame : SameHost cfg name hostname ip) {es : List Event} {s : State F}
    (hrun : run (step cfg localtime) (start cfg) es = some s)
    (hreturned : ∀ c ∈ s.stored, s.pipe.call c = .returned)
    (hdrained : ∀ c ∈ s.stored, ∀ i, cfg.route c = some i →
      (s.pipe.queue i).queue = [] ∧ (s.pipe.consumer i).current = none) :
    (s.hostData name).map (·.info) = s.stored.getLast?.map cfg.report ∧
    (s.store.hostScores (hostname ++ "_" ++ ip)).map (·.info) =
      s.pipe.pushed.getLast?.map cfg.report ∧
    (Along (step cfg localtime) Serial (start cfg) es →
      (s.hostData name).map (·.info) =
        (s.store.hostScores (hostname ++ "_" ++ ip)).map (·.info)) := by
  have hs : Inv cfg name (hostname ++ "_" ++ ip) (cfg.hash hostname % cfg.threadCount) s :=
    run_invariant (fun _ _ _ => inv_step hsame) hrun (inv_start ..)
  have hpushed : ∀ c ∈ s.pipe.pushed, c ∈ s.stored := by
    intro c hc
    refine hs.called c fun hpending => ?_
    simpa [hpending] using (hs.accounts.pushed_iff c).1 hc
  -- in a drained queue the processed reports are all that were pushed
  have hhandled : s.pipe.handled (cfg.hash hostname % cfg.threadCount) = s.pipe.pushed := by
    rw [← hs.lane]
    cases hstored : s.stored with
    | nil =>
      have hempty : s.pipe.pushed = [] :=
        List.eq_nil_iff_forall_not_mem.2 fun c hc => by simpa [hstored] using hpushed c hc
      have hlane := hs.lane
      rw [hempty, FifoLane.contents, List.append_eq_nil_iff, List.append_eq_nil_iff] at hlane
      rw [hs.lane, hempty]
      exact hlane.1.1
    | cons c rest =>
      obtain ⟨hqueue, hcurrent⟩ := hdrained c (by rw [hstored]; exact List.mem_cons_self) _
        (hsame.route_eq c)
      simp [FifoLane.contents, Pipeline.laneOf, hqueue, hcurrent]
  have hscores := hs.hostScores
  rw [hhandled] at hscores
  refine ⟨hs.hostData, hscores, fun hserial => ?_⟩
  have hin : InStep s :=
    (run_invariant_along (I := fun u => Inv cfg name (hostname ++ "_" ++ ip)
        (cfg.hash hostname % cfg.threadCount) u ∧ InStep u)
      (fun _ _ _ hu hP hstep => ⟨inv_step hsame hu.1 hstep, inStep_step hu.1 hu.2 hP hstep⟩)
      hrun hserial ⟨inv_start .., .inl rfl⟩).2
  have horder : s.stored = s.pipe.pushed := by
    rcases hin with heq | ⟨c, heq⟩
    · exact heq
    · have hmem : c ∈ s.pipe.pushed :=
        (hs.accounts.pushed_iff c).2 (.inr (hreturned c (by rw [heq]; simp)))
      have hnodup := hs.nodup
      rw [heq] at hnodup
      exact absurd rfl ((List.nodup_append.1 hnodup).2.2 c hmem c (List.mem_singleton_self c))
  rw [hs.hostData, hscores, horder]

/-- Every RPC reports for the host `web`, with its own number as the load. -/
def oneHost : Pipeline.Config ℚ :=
  ⟨fun _ => 0, 4, fun c =>
    { name := "web", hostInfo := some ⟨"web", "10.0.0.1"⟩, cpuLoad := some ⟨(c : ℚ), 0, 0⟩ }⟩

theorem sameHost_oneHost : SameHost oneHost "web" "web" "10.0.0.1" :=
  ⟨by decide, by decide, by decide, fun _ => rfl, fun _ => rfl, fun _ => rfl⟩

/-- A clock that stands still. -/
def stillTime : ℤ → ClockText.Tm := fun _ => ⟨2024, 1, 1, 0, 0, 0⟩

/-- RPC 0 stores first and pushes last. -/
def crossed : List Event :=
  [.store 0 1, .store 1 2, .call 1, .push 1, .ret 1, .call 0, .push 0, .ret 0,
    .pop 0, .process 0 3 .connected, .test 0, .pop 0, .process 0 4 .connected]

theorem run_crossed : ∃ s, run (step oneHost stillTime) (start oneHost) crossed = some s ∧
    (∀ c ∈ s.stored, s.pipe.call c = .returned) ∧
    (∀ c ∈ s.stored, ∀ i, oneHost.route c = some i →
      (s.pipe.queue i).queue = [] ∧ (s.pipe.consumer i).current = none) ∧
    ((s.hostData "web").map (·.info)).map (·.cpuLoad.map (·.loadAvg1)) = some (some 1) ∧
    ((s.store.hostScores "web_10.0.0.1").map (·.info)).map (·.cpuLoad.map (·.loadAvg1)) =
      some (some 0) := by
  have hpipe : (run (step oneHost stillTime) (start oneHost) crossed).map (fun s =>
      (s.stored, s.pipe.call 0, s.pipe.call 1, (s.pipe.queue 0).queue, s.pipe.consumer 0)) =
      some ([0, 1], .returned, .returned, [], .loopTest) := by
    decide +kernel
  have hstores : (run (step oneHost stillTime) (start oneHost) crossed).map (fun s =>
      (((s.hostData "web").map (·.info)).map (·.cpuLoad.map (·.loadAvg1)),
        ((s.store.hostScores "web_10.0.0.1").map (·.info)).map (·.cpuLoad.map (·.loadAvg1)))) =
      some (some (some 1), some (some 0)) := by
    decide +kernel
  obtain ⟨s, hs, heq⟩ := Option.map_eq_some_iff.1 hpipe
  rw [hs, Option.map_some, Option.some.injEq, Prod.mk.injEq] at hstores
  obtain ⟨hdata, hscores⟩ := hstores
  simp only [Prod.mk.injEq] at heq
  obtain ⟨hstored, h0, h1, hqueue, hconsumer⟩ := heq
  refine ⟨s, hs, ?_, ?_, hdata, hscores⟩
  · rw [hstored]
    simp [h0, h1]
  · intro c _ i hi
    rw [sameHost_oneHost.route_eq, Option.some.injEq] at hi
    subst hi
    have hzero : oneHost.hash "web" % oneHost.threadCount = 0 := rfl
    rw [hzero, hqueue, hconsumer]
    exact ⟨rfl, rfl⟩

theorem live_stores_crossed : ∃ s,
    run (step oneHost stillTime) (start oneHost) crossed = some s ∧
    (s.hostData "web").map (·.info) = s.stored.getLast?.map oneHost.report ∧
    (s.store.hostScores ("web" ++ "_" ++ "10.0.0.1")).map (·.info) =
      s.pipe.pushed.getLast?.map oneHost.report := by
  obtain ⟨s, hrun, hreturned, hdrained, -⟩ := run_crossed
  obtain ⟨hdata, hscores, -⟩ :=
    live_stores oneHost stillTime sameHost_oneHost hrun hreturned hdrained
  exact ⟨s, hrun, hdata, hscores⟩

/-- Two RPCs of one host leave different reports in the two stores. -/
theorem stores_disagree :
    ¬ ∀ (cfg : Pipeline.Config ℚ) (localtime : ℤ → ClockText.Tm) (name hostname ip : String),
      SameHost cfg name hostname ip → ∀ (es : List Event) (s : State ℚ),
      run (step cfg localtime) (start cfg) es = some s →
      (∀ c ∈ s.stored, s.pipe.call c = .returned) →
      (∀ c ∈ s.stored, ∀ i, cfg.route c = some i →
        (s.pipe.queue i).queue = [] ∧ (s.pipe.consumer i).current = none) →
      (s.hostData name).map (·.info) =
        (s.store.hostScores (hostname ++ "_" ++ ip)).map (·.info) := by
  intro hclaim
  obtain ⟨s, hrun, hreturned, hdrained, hdata, hscores⟩ := run_crossed
  have hsame := hclaim oneHost stillTime "web" "web" "10.0.0.1" sameHost_oneHost crossed s hrun
    hreturned hdrained
  rw [hsame, show "web" ++ "_" ++ "10.0.0.1" = "web_10.0.0.1" by decide, hscores] at hdata
  revert hdata
  decide

end LiveStores

end MonitorSystem
