import MonitorSystem.Manager.DetailRows
import MonitorSystem.Manager.PerformanceDelivery
import MonitorSystem.Manager.PerformanceRows
import MonitorSystem.Manager.Progress
import MonitorSystem.System.Fleet

/-!
# The rows of the workers

The workers and the manager of `System/Fleet.lean`, with what is left of a report after it has been
processed: over a connection that works `ProcessData` leaves a row of it in `server_performance`.
As in `Manager/Tables.lean`, names denote themselves and statements succeed.

A client gets a record of the row (`RowOf.delivered`).  A rate compares a report with another one,
so that the record is compared with the report without its rates.
-/

namespace MonitorSystem

namespace FleetRecords

open CxxFloat (lit toFloat)
open Fleet (Config)
open PerformanceDelivery (delivered)
open QueryService (setTimestamp)
open Transition (run run_invariant)

/-! ### The system -/

/-- A report of which a row was left: the RPC that brought it, and when it was processed. -/
structure Recorded where
  call : ℕ
  now : ℤ

/-- The workers and the manager, the statements that MySQL has carried out, and the reports of which
they have left rows. -/
structure State where
  fleet : Fleet.State
  statements : List (Insert ℚ) := []
  recorded : List Recorded := []

/-- What `ProcessData` finds around it. -/
def env (cfg : Config) : Env := LiveStores.envOf cfg.pipeline cfg.localtime

/-- What a step sends to MySQL. -/
def written (cfg : Config) (s : Fleet.State) : Fleet.Event → List (Insert ℚ)
  | .manager (.process i now connection) =>
    match s.manager.pipe.consumer i with
    | .processing c => (processData (env cfg) i s.manager.store
        ⟨cfg.pipeline.report c, now, connection⟩).2
    | _ => []
  | _ => []

/-- The report that a step leaves a row of. -/
def recordedBy (s : Fleet.State) : Fleet.Event → List Recorded
  | .manager (.process i now .connected) =>
    match s.manager.pipe.consumer i with
    | .processing c => [⟨c, now⟩]
    | _ => []
  | _ => []

/-- One step. -/
def step (cfg : Config) (s : State) (e : Fleet.Event) : Option State :=
  (Fleet.step cfg s.fleet e).map fun fleet =>
    { fleet := fleet
      statements := s.statements ++ written cfg s.fleet e
      recorded := s.recorded ++ recordedBy s.fleet e }

/-- Nothing has been sent, and the tables are empty. -/
def start (cfg : Config) : State where
  fleet := Fleet.start cfg

/-! ### What a step records -/

variable {cfg : Config}

/-- The row is the one that `WriteToMysql` leaves of the report. -/
structure RowOf (cfg : Config) (r : Recorded) (row : SqlRow ℚ) : Prop where
  serverName : row.serverName = (cfg.worker r.call.unpair.1).identifier
  isRow : ∃ last lastUtil, (performanceRow (env cfg)
    ⟨cfg.pipeline.report r.call, r.now, .connected⟩ last lastUtil).row = some row

/-- The rows of `server_performance` that statements leave. -/
def performanceRowsOf (statements : List (Insert ℚ)) : List (SqlRow ℚ) :=
  storedRows statements "server_performance"

theorem performanceRowsOf_append (l m : List (Insert ℚ)) :
    performanceRowsOf (l ++ m) = performanceRowsOf l ++ performanceRowsOf m :=
  storedRows_append l m _

/-- The report that a consumer has in hand, as it is processed at the time `now`. -/
def jobAt (cfg : Config) (c : ℕ) (now : ℤ) : Job ℚ := ⟨cfg.pipeline.report c, now, .connected⟩

/-- A step completes no report and writes nothing, or it completes one: then it does to the store
what `ProcessData` does, writes what that writes, and records the report if the connection works. -/
theorem process_cases {s s' : Fleet.State} {e : Fleet.Event} (h : Fleet.step cfg s e = some s') :
    (s'.manager.pipe.handled = s.manager.pipe.handled ∧ written cfg s e = [] ∧
      recordedBy s e = []) ∨
    ∃ i c now connection, s.manager.pipe.consumer i = .processing c ∧
      s'.manager.pipe.handled = Function.update s.manager.pipe.handled i
        (s.manager.pipe.handled i ++ [c]) ∧
      (s'.manager.store, written cfg s e) = processData (env cfg) i s.manager.store
        ⟨cfg.pipeline.report c, now, connection⟩ ∧
      recordedBy s e = if connection = .connected then [⟨c, now⟩] else [] := by
  cases Fleet.move_of_step h with
  | push _ | cleanup _ | answered _ _ | failed => exact .inl ⟨rfl, rfl, rfl⟩
  | @manager e m _ hstep =>
    cases e with
    | process i now connection =>
      simp only [LiveStores.step] at hstep
      split at hstep
      next c hi =>
        obtain ⟨pipe, hpipe, rfl⟩ := Option.map_eq_some_iff.1 hstep
        refine .inr
          ⟨i, c, now, connection, hi, Pipeline.handled_of_done hi hpipe, ?_, ?_⟩
        · simp only [written, hi]
          rfl
        · cases connection <;> simp [recordedBy, hi]
      next => cases hstep
    | store c now =>
      cases LiveStores.move_of_step hstep with
      | store _ _ => exact .inl ⟨rfl, rfl, rfl⟩
      | pipe _ _ he _ => exact absurd rfl (he c now)
    | call _ | push _ | ret _ | test _ | pop _ =>
      cases LiveStores.move_of_step hstep with
      | pipe hf _ _ hpipe => exact .inl ⟨Pipeline.handled_of_step hf hpipe, rfl, rfl⟩

/-- A step writes nothing, or it completes a report over a connection that works. -/
theorem written_cases {s s' : Fleet.State} {e : Fleet.Event} (h : Fleet.step cfg s e = some s') :
    (written cfg s e = [] ∧ recordedBy s e = []) ∨
    ∃ i c now, s.manager.pipe.consumer i = .processing c ∧
      s'.manager.pipe.handled = Function.update s.manager.pipe.handled i
        (s.manager.pipe.handled i ++ [c]) ∧
      written cfg s e = (processData (env cfg) i s.manager.store (jobAt cfg c now)).2 ∧
      recordedBy s e = [⟨c, now⟩] := by
  rcases process_cases h with ⟨-, hwritten, hrec⟩ |
    ⟨i, c, now, connection, hi, hhandled, hprocess, hrec⟩
  · exact .inl ⟨hwritten, hrec⟩
  · have hwritten := congrArg Prod.snd hprocess
    cases connection with
    | connected => exact .inr ⟨i, c, now, hi, hhandled, hwritten, hrec⟩
    | initFailed | connectFailed =>
      refine .inl ⟨hwritten.trans ?_, hrec⟩
      simp only [processData]
      split_ifs <;> rfl

/-- What has been processed stays so. -/
theorem handled_prefix_of_step {s s' : Fleet.State} {e : Fleet.Event}
    (h : Fleet.step cfg s e = some s') (i : ℕ) :
    s.manager.pipe.handled i <+: s'.manager.pipe.handled i := by
  rcases process_cases h with ⟨hhandled, -⟩ | ⟨j, c, -, -, -, hhandled, -⟩
  · rw [hhandled]
  · rw [hhandled]
    by_cases hij : i = j
    · subst hij
      rw [Function.update_self]
      exact List.prefix_append _ _
    · rw [Function.update_of_ne hij]

/-- A report in hand has an identifier, that of its worker. -/
theorem identifier_of_processing {s : Fleet.State} (hs : Fleet.Inv cfg s) {i c : ℕ}
    (hi : s.manager.pipe.consumer i = .processing c) :
    serverIdentifier (cfg.pipeline.report c) ≠ "" ∧
      serverIdentifier (cfg.pipeline.report c) = (cfg.worker c.unpair.1).identifier := by
  have hstored := hs.mem_stored
    (Pipeline.pushed_of_mem_lane hs.accounts (Fleet.mem_lane_of_processing hi))
  exact ⟨serverIdentifier_ne_empty (hs.accepted c hstored), Fleet.identifier_eq (hs.isSome hstored)⟩

/-- A step leaves no row, or the row of the report that it completes. -/
theorem recorded_cases {s s' : Fleet.State} {e : Fleet.Event} (hs : Fleet.Inv cfg s)
    (h : Fleet.step cfg s e = some s') :
    (performanceRowsOf (written cfg s e) = [] ∧ recordedBy s e = []) ∨
    ∃ i c now row, s.manager.pipe.consumer i = .processing c ∧
      c ∈ s'.manager.pipe.handled i ∧
      performanceRowsOf (written cfg s e) = [row] ∧ recordedBy s e = [⟨c, now⟩] ∧
      RowOf cfg ⟨c, now⟩ row := by
  rcases written_cases h with ⟨hwritten, hrec⟩ | ⟨i, c, now, hi, hhandled, hwritten, hrec⟩
  · rw [hwritten]
    exact .inl ⟨rfl, hrec⟩
  · obtain ⟨hid, hname⟩ := identifier_of_processing hs hi
    have hconn : (jobAt cfg c now).connection = .connected := rfl
    obtain ⟨hrows, -⟩ := processData_connected (env cfg) i s.manager.store hconn hid
    have hleft := congrArg (fun l => (l.filter fun statement => statement.Parses).filterMap
      Insert.row) hrows
    have hc : c ∈ s'.manager.pipe.handled i := by
      rw [hhandled, Function.update_self]
      exact List.mem_append_right _ (List.mem_singleton_self c)
    rw [hwritten]
    exact .inr ⟨i, c, now, _, hi, hc, hleft, hrec, hname, _, _, rfl⟩

/-! ### The invariant -/

/-- The rows of `server_performance` are those of the recorded reports, in order, and no report has
two of them. -/
structure Inv (cfg : Config) (s : State) : Prop where
  fleet : Fleet.Inv cfg s.fleet
  rows : List.Forall₂ (RowOf cfg) s.recorded (performanceRowsOf s.statements)
  handled : ∀ r ∈ s.recorded, ∃ i, r.call ∈ s.fleet.manager.pipe.handled i
  nodup : (s.recorded.map (·.call)).Nodup

theorem inv_start (cfg : Config) : Inv cfg (start cfg) where
  fleet := Fleet.inv_start cfg
  rows := List.Forall₂.nil
  handled := nofun
  nodup := List.nodup_nil

/-- A report in hand has not been processed. -/
theorem not_handled_of_processing {s : Fleet.State} (hs : Fleet.Inv cfg s) {i j c : ℕ}
    (hi : s.manager.pipe.consumer i = .processing c) : c ∉ s.manager.pipe.handled j := by
  intro hj
  have hroute := hs.accounts.routed i c (Fleet.mem_lane_of_processing hi)
  have hroute' := hs.accounts.routed j c (FifoLane.mem_contents.2 (.inl hj))
  obtain rfl : i = j := Option.some.inj (hroute.symm.trans hroute')
  have hcur : (s.manager.pipe.consumer i).current = some c := by rw [hi]; rfl
  have hnodup := Pipeline.lane_nodup hs.accounts i
  rw [FifoLane.contents, List.append_assoc, List.nodup_append] at hnodup
  exact hnodup.2.2 c hj c (List.mem_append_left _ (Option.mem_toList.2 hcur)) rfl

theorem inv_step {s s' : State} {e : Fleet.Event} (hs : Inv cfg s) (h : step cfg s e = some s') :
    Inv cfg s' := by
  obtain ⟨fleet, hfleet, rfl⟩ := Option.map_eq_some_iff.1 h
  have hold : ∀ r ∈ s.recorded, ∃ i, r.call ∈ fleet.manager.pipe.handled i := fun r hr =>
    (hs.handled r hr).imp fun i hmem => (handled_prefix_of_step hfleet i).subset hmem
  rcases recorded_cases hs.fleet hfleet with
    ⟨hrows, hrec⟩ | ⟨i, c, now, row, hi, hc, hrows, hrec, hof⟩
  · rw [hrec, List.append_nil]
    refine ⟨Fleet.inv_step hs.fleet hfleet, ?_, hold, hs.nodup⟩
    show List.Forall₂ _ _ (performanceRowsOf (s.statements ++ _))
    rw [performanceRowsOf_append, hrows, List.append_nil]
    exact hs.rows
  · rw [hrec]
    refine ⟨Fleet.inv_step hs.fleet hfleet, ?_, fun r hr => ?_, ?_⟩
    · show List.Forall₂ _ _ (performanceRowsOf (s.statements ++ _))
      rw [performanceRowsOf_append, hrows]
      exact List.rel_append hs.rows (List.Forall₂.cons hof List.Forall₂.nil)
    · rcases List.mem_append.1 hr with hr | hr
      · exact hold r hr
      · rw [List.mem_singleton.1 hr]
        exact ⟨i, hc⟩
    · rw [List.map_append, List.map_singleton, List.nodup_append]
      refine ⟨hs.nodup, List.nodup_singleton _, fun d hd d' hd' => ?_⟩
      rw [List.mem_singleton.1 hd']
      rintro rfl
      obtain ⟨r, hr, rfl⟩ := List.mem_map.1 hd
      obtain ⟨j, hj⟩ := hs.handled r hr
      exact not_handled_of_processing hs.fleet hi hj

theorem inv_run {es : List Fleet.Event} {s : State} (h : run (step cfg) (start cfg) es = some s) :
    Inv cfg s :=
  run_invariant (fun _ _ _ => inv_step) h (inv_start cfg)

/-! ### Connections that work -/

/-- Call `k` of worker `w` goes through: its report is pushed, answered and processed at the time
`now`, before anything else happens. -/
def wholeCall (cfg : Config) (w k : ℕ) (now : ℤ) : List Fleet.Event :=
  [.push w, .manager (.store (Nat.pair w k) now), .manager (.call (Nat.pair w k)),
    .manager (.push (Nat.pair w k)), .manager (.ret (Nat.pair w k)), .answered w,
    .manager (.pop (cfg.lane w)), .manager (.process (cfg.lane w) now .connected),
    .manager (.test (cfg.lane w))]

/-- The consumer of worker `w` waits, and call `k` is its next. -/
structure Quiet (cfg : Config) (w k : ℕ) (s : Fleet.State) : Prop where
  sent : s.clients.sent w = k
  waiting : s.clients.waiting w = none
  stored : ∀ j ≥ k, Nat.pair w j ∉ s.manager.stored
  call : ∀ j ≥ k, s.manager.pipe.call (Nat.pair w j) = .pending
  consumer : s.manager.pipe.consumer (cfg.lane w) = .popping
  queue : s.manager.pipe.queue (cfg.lane w) = {}
  running : s.manager.pipe.running = true
  owner : s.manager.pipe.owner = .idle
  terminated : s.manager.pipe.terminated = false
  size : s.manager.pipe.queuesSize = cfg.pipeline.threadCount

theorem quiet_start (cfg : Config) (w : ℕ) : Quiet cfg w 0 (start cfg).fleet where
  sent := rfl
  waiting := rfl
  stored _ _ := List.not_mem_nil
  call _ _ := rfl
  consumer := if_pos (Nat.mod_lt _ cfg.pipeline.threadCount_pos)
  queue := rfl
  running := rfl
  owner := rfl
  terminated := rfl
  size := rfl

theorem run_wholeCall {s : State} {w k : ℕ} (hs : Quiet cfg w k s.fleet) {info : MonitorInfo ℚ}
    (hreport : (cfg.worker w).report k = some info) (hacc : Accepted info) (now : ℤ) :
    ∃ s', run (step cfg) s (wholeCall cfg w k now) = some s' ∧ Quiet cfg w (k + 1) s'.fleet ∧
      s'.recorded = s.recorded ++ [⟨Nat.pair w k, now⟩] := by
  obtain ⟨hsent, hwaiting, hstored, hcall, hconsumer, hqueue, hrunning, howner, hterminated,
    hsize⟩ := hs
  have hsome : ((cfg.worker (Nat.pair w k).unpair.1).report (Nat.pair w k).unpair.2).isSome := by
    rw [Nat.unpair_pair, hreport]
    rfl
  have hinfo : cfg.pipeline.report (Nat.pair w k) = info := by
    have heq := Fleet.report_eq hsome
    rw [Nat.unpair_pair, hreport] at heq
    exact (Option.some.inj heq).symm
  have hroute : routeIndex cfg.pipeline.hash cfg.pipeline.threadCount cfg.pipeline.threadCount
      info = some (cfg.lane w) := by
    have heq := Fleet.route_eq hsome (hinfo ▸ hacc)
    rwa [Nat.unpair_pair, Pipeline.Config.route, hinfo] at heq
  have hnew := hstored k le_rfl
  have hpending := hcall k le_rfl
  simp [wholeCall, Transition.run_cons, step, written, recordedBy, Fleet.step, Fleet.Sent,
    Requests.Clients.send, Requests.Clients.succeed, LiveStores.step, Pipeline.step, Pipeline.move,
    SafeQueue.push, SafeQueue.pop, hsent, hwaiting, hnew, hpending, hconsumer, hqueue, hrunning,
    howner, hterminated, hsize, hreport, hinfo, hacc, hroute]
  have hother {j : ℕ} (hj : k + 1 ≤ j) : Nat.pair w j ≠ Nat.pair w k := fun heq => by
    have := (Nat.pair_eq_pair.1 heq).2
    omega
  refine ⟨Function.update_self .., Function.update_self .., fun j hj => ?_, fun j hj => ?_,
    Function.update_self .., Function.update_self .., rfl, rfl, rfl, rfl⟩
  · simp [hstored j (by omega), hother hj]
  · show Function.update _ _ _ (Nat.pair w j) = _
    rw [Function.update_of_ne (hother hj)]
    exact hcall j (by omega)

/-- The first `n` calls of a worker can go through one after the other, at any times. -/
theorem exists_run_wholeCalls (cfg : Config) (w : ℕ) (time : ℕ → ℤ) (n : ℕ)
    (hreports : ∀ k < n, ∃ info, (cfg.worker w).report k = some info ∧ Accepted info) :
    ∃ es s, run (step cfg) (start cfg) es = some s ∧ Quiet cfg w n s.fleet ∧
      s.recorded = (List.range n).map fun k => ⟨Nat.pair w k, time k⟩ := by
  induction n with
  | zero => exact ⟨[], _, rfl, quiet_start cfg w, rfl⟩
  | succ n ih =>
    obtain ⟨es, s, hrun, hquiet, hrecorded⟩ := ih fun k hk => hreports k (by omega)
    obtain ⟨info, hreport, hacc⟩ := hreports n (Nat.lt_succ_self n)
    obtain ⟨s', hcall, hquiet', hrecorded'⟩ := run_wholeCall hquiet hreport hacc (time n)
    refine ⟨es ++ wholeCall cfg w n (time n), s', ?_, hquiet', ?_⟩
    · exact Transition.run_append_eq_some.2 ⟨s, hrun, hcall⟩
    · rw [hrecorded', hrecorded, List.range_succ, List.map_append]
      rfl

/-! ### How many statements -/

theorem length_writeDetail {A S : Type} [Zero S] (nameOf : A → String) (sampleOf : A → S)
    (insertOf : A → S → S → Insert ℚ) (shardIdx : ℕ) (hostName : String) (as : List A)
    (samples : DeviceMap S) :
    (writeDetail nameOf sampleOf insertOf shardIdx hostName as samples).2.length = as.length := by
  induction as generalizing samples with
  | nil => rfl
  | cons a rest ih => exact congrArg Nat.succ (ih _)

/-- The statements about a report: one about itself, and one about each of its devices and its
memory. -/
def statementCount (info : MonitorInfo ℚ) : ℕ :=
  1 + info.netInfo.length + info.softIrq.length + info.memInfo.toList.length +
    info.diskInfo.length

theorem length_processData (env : Env) (i : ℕ) (store : Store ℚ) (job : Job ℚ)
    (hconn : job.connection = .connected) (hid : serverIdentifier job.info ≠ "") :
    (processData env i store job).2.length = statementCount job.info := by
  simp only [processData, if_neg hid, writeToMysql, hconn, writeDetails, List.length_cons,
    List.length_append, length_writeDetail, statementCount]
  cases job.info.memInfo <;> simp only [writeMemDetail, Option.toList, List.length_nil,
    List.length_singleton] <;> omega

/-- MySQL gets as many statements as the recorded reports make. -/
theorem length_statements {es : List Fleet.Event} {s : State}
    (hrun : run (step cfg) (start cfg) es = some s) : s.statements.length =
      (s.recorded.map fun r => statementCount (cfg.pipeline.report r.call)).sum := by
  refine (run_invariant (I := fun s : State => Inv cfg s ∧ s.statements.length =
    (s.recorded.map fun r => statementCount (cfg.pipeline.report r.call)).sum)
    (fun s e s' hs h => ⟨inv_step hs.1 h, ?_⟩) hrun ⟨inv_start cfg, rfl⟩).2
  obtain ⟨fleet, hfleet, rfl⟩ := Option.map_eq_some_iff.1 h
  rcases written_cases hfleet with ⟨hwritten, hrec⟩ | ⟨i, c, now, hi, -, hwritten, hrec⟩
  · simpa [hwritten, hrec] using hs.2
  · have hcount := length_processData (env cfg) i s.fleet.manager.store
      (jobAt cfg c now) rfl (identifier_of_processing hs.1.fleet hi).1
    rw [hwritten, hrec, List.length_append, hcount, hs.2, List.map_append, List.sum_append]
    rfl

/-! ### What a client gets -/

/-- The record of a report, without rates. -/
def reportRecord (db : Mysql ℚ) (cfg : Config) (r : Recorded) : Proto.PerformanceRecord ℚ :=
  let info := cfg.pipeline.report r.call
  let sample := perfSample info
  let net := info.netInfo.head?
  { serverName := (cfg.worker r.call.unpair.1).identifier
    timestamp := setTimestamp (db.parseTime (cfg.localtime (r.now.tdiv 1000000000)))
    cpuPercent := db.throughFloat sample.cpuPercent
    usrPercent := db.throughFloat sample.usrPercent
    systemPercent := db.throughFloat sample.systemPercent
    nicePercent := db.throughFloat sample.nicePercent
    idlePercent := db.throughFloat sample.idlePercent
    ioWaitPercent := db.throughFloat sample.ioWaitPercent
    irqPercent := db.throughFloat sample.irqPercent
    softIrqPercent := db.throughFloat sample.softIrqPercent
    loadAvg1 := db.throughFloat sample.loadAvg1
    loadAvg3 := db.throughFloat sample.loadAvg3
    loadAvg15 := db.throughFloat sample.loadAvg15
    memUsedPercent := db.throughFloat sample.memUsedPercent
    memTotal := db.throughFloat sample.memTotal
    memFree := db.throughFloat sample.memFree
    memAvail := db.throughFloat sample.memAvail
    diskUtilPercent := db.throughFloat (diskUtil info)
    sendRate := db.throughFloat ((net.map fun net => toFloat (net.sendRate / lit 1024 1)).getD 0)
    rcvRate := db.throughFloat ((net.map fun net => toFloat (net.rcvRate / lit 1024 1)).getD 0)
    score := db.throughFloat (calcScore info) }

/-- A record with its rates left out. -/
def withoutRates (rec : Proto.PerformanceRecord ℚ) : Proto.PerformanceRecord ℚ :=
  { rec with
    cpuPercentRate := 0
    usrPercentRate := 0
    systemPercentRate := 0
    ioWaitPercentRate := 0
    loadAvg1Rate := 0
    loadAvg3Rate := 0
    loadAvg15Rate := 0
    memUsedPercentRate := 0
    diskUtilPercentRate := 0
    sendRateRate := 0
    rcvRateRate := 0 }

theorem RowOf.timestamp {r : Recorded} {row : SqlRow ℚ} (h : RowOf cfg r row) :
    row.timestamp = cfg.localtime (r.now.tdiv 1000000000) := by
  obtain ⟨last, lastUtil, hrow⟩ := h.isRow
  cases hrow
  rfl

theorem RowOf.delivered {r : Recorded} {row : SqlRow ℚ} (h : RowOf cfg r row) (db : Mysql ℚ) :
    withoutRates (delivered db row) = reportRecord db cfg r := by
  obtain ⟨hname, last, lastUtil, hrow⟩ := h
  cases hrow
  rw [reportRecord, ← hname]
  rfl

end FleetRecords

end MonitorSystem
