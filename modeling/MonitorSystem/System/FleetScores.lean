import MonitorSystem.System.FleetReading

/-!
# The latest scores of the workers

`QueryLatestScore` lists the rows with the greatest timestamp of their server.  Whatever the other
workers do, a client finds a worker there once, with the last of its reports of which a row was left
(`fleet_latest_score`), when the reports of that worker were processed in local seconds that grow.
The time that it is told is what `ParseTime` makes of the local time, whatever the season.
-/

namespace MonitorSystem

namespace FleetRecords

open Fleet (Config)
open QueryManager
open QueryService (serverScoreSummary setTimestamp)
open Transition (run run_invariant)
open Trends (fixedZone greenwich)

variable {cfg : Config}

/-! ### The last report -/

/-- The reports of a worker of which a row was left. -/
def State.recordedFor (s : State) (w : ℕ) : List Recorded :=
  s.recorded.filter fun r => r.call.unpair.1 = w

theorem filter_map_recordedFor (s : State) (w : ℕ) :
    ((s.recordedFor w).map (·.call)).filter (fun c => c.unpair.1 = w) =
      (s.recordedFor w).map (·.call) := by
  rw [List.filter_map, State.recordedFor, List.filter_filter]
  exact congrArg (List.map _) (List.filter_congr fun r _ => Bool.and_self _)

/-- The reports of a worker are recorded in the order in which they were processed. -/
theorem recordedFor_sublist {es : List Fleet.Event} {s : State}
    (hrun : run (step cfg) (start cfg) es = some s) (w : ℕ) :
    ((s.recordedFor w).map (·.call)).Sublist (s.fleet.manager.pipe.handled (cfg.lane w)) := by
  refine (run_invariant (I := fun s => Inv cfg s ∧
    ((s.recordedFor w).map (·.call)).Sublist (s.fleet.manager.pipe.handled (cfg.lane w)))
    (fun s e s' hs h => ⟨inv_step hs.1 h, ?_⟩) hrun ⟨inv_start cfg, List.Sublist.refl _⟩).2
  obtain ⟨fleet, hfleet, rfl⟩ := Option.map_eq_some_iff.1 h
  have hold := hs.2.trans (handled_prefix_of_step hfleet (cfg.lane w)).sublist
  simp only [State.recordedFor, List.filter_append, List.map_append] at hold ⊢
  rcases written_cases hfleet with ⟨-, hrec⟩ | ⟨i, c, now, hi, hhandled, -, hrec⟩
  · rwa [hrec, List.filter_nil, List.map_nil, List.append_nil]
  · rw [hrec]
    by_cases hcw : c.unpair.1 = w
    · have hlane : i = cfg.lane w := by
        have hmem := Fleet.mem_lane_of_processing hi
        rw [← Nat.pair_unpair c, hcw] at hmem
        exact hs.1.fleet.lane_eq hmem
      rw [hhandled, ← hlane, Function.update_self, List.filter_cons_of_pos (by simpa using hcw)]
      exact (hlane ▸ hs.2).append (List.Sublist.refl _)
    · rwa [List.filter_cons_of_neg (by simpa using hcw), List.filter_nil, List.map_nil,
        List.append_nil]

/-! ### A call of the RPC -/

/-- A call of `QueryLatestScore` at the time `now`, which MySQL answers. -/
structure ScoreCall (db : Mysql ℚ) (table : SqlTable ℚ) where
  now : ℤ
  answer : Option (List (MysqlRow ℚ))
  answered : db.LatestScoreAnswer table answer
  queryManager : QueryFunctions ℚ
  queryLatestScore_eq : queryManager.queryLatestScore.1 = (queryLatestScore db true now answer).1

/-- The servers of the response. -/
def ScoreCall.servers {db : Mysql ℚ} {table : SqlTable ℚ} (call : ScoreCall db table) :
    List (Proto.ServerScoreSummary ℚ) :=
  (QueryService.queryLatestScore (some call.queryManager)).2.servers

/-- What a client gets of a row. -/
def summaryOf (db : Mysql ℚ) (now : ℤ) (row : SqlRow ℚ) : Proto.ServerScoreSummary ℚ :=
  serverScoreSummary (scoreSummary db now (row.fetch Mysql.scoreColumns))

/-- A response has a summary of each latest row, in some order. -/
theorem ScoreCall.servers_perm {db : Mysql ℚ} {table : SqlTable ℚ} (call : ScoreCall db table) :
    call.servers.Perm ((db.latestRows table).map (summaryOf db call.now)) := by
  obtain ⟨l, hl, hanswer⟩ := call.answered
  have hservers : call.servers = l.map (summaryOf db call.now) := by
    show call.queryManager.queryLatestScore.1.map serverScoreSummary = _
    rw [call.queryLatestScore_eq, hanswer, queryLatestScore, if_neg (by simp)]
    simp only [List.map_map]
    rfl
  rw [hservers]
  exact (Mysql.Ranked.perm hl).map _

/-- The summary of a report. -/
def reportSummary (db : Mysql ℚ) (cfg : Config) (now : ℤ) (r : Recorded) :
    Proto.ServerScoreSummary ℚ :=
  let info := cfg.pipeline.report r.call
  let sample := perfSample info
  let lastUpdate := db.parseTime (r.second cfg)
  { serverName := (cfg.worker r.call.unpair.1).identifier
    score := db.throughFloat (calcScore info)
    lastUpdate := setTimestamp lastUpdate
    status := if 60 < (now - lastUpdate).tdiv 1000000000 then .offline else .online
    cpuPercent := db.throughFloat sample.cpuPercent
    memUsedPercent := db.throughFloat sample.memUsedPercent
    diskUtilPercent := db.throughFloat (diskUtil info)
    loadAvg1 := db.throughFloat sample.loadAvg1 }

theorem status_serverScoreSummary (age : ℤ) :
    (if (if 60 < age then ServerStatus.offline else .online) = .online then
      Proto.ServerStatus.online else .offline) = if 60 < age then .offline else .online := by
  by_cases hage : 60 < age <;> simp [hage]

theorem RowOf.summaryOf {r : Recorded} {row : SqlRow ℚ} (h : RowOf cfg r row) (db : Mysql ℚ)
    (now : ℤ) : summaryOf db now row = reportSummary db cfg now r := by
  obtain ⟨hname, last, lastUtil, hrow⟩ := h
  cases hrow
  have hstatus := status_serverScoreSummary
    ((now - db.parseTime (r.second cfg)).tdiv 1000000000)
  rw [reportSummary, ← hname, ← hstatus]
  rfl

section Latest

variable {s : State} (hs : Inv cfg s) {db : Mysql ℚ} {w : ℕ} (hw : Sole cfg db w)
include hs hw

/-- The rows under the name of a worker are those of its reports. -/
theorem rowOf_recordedFor : List.Forall₂ (RowOf cfg) (s.recordedFor w)
    ((performanceRowsOf s.statements).filter fun row =>
      db.server row = db.weight (cfg.worker w).identifier) := by
  refine List.rel_filter (fun r row hrow => ?_) hs.rows
  have hname : db.server row = db.weight (cfg.worker w).identifier ↔ r.call.unpair.1 = w := by
    rw [Mysql.server, hrow.serverName]
    exact ⟨fun heq => by_contra fun hne => hw _ hne heq, fun heq => by rw [heq]⟩
  show decide _ = true ↔ decide _ = true
  rw [decide_eq_true_iff, decide_eq_true_iff, hname]

/-- The latest row under the name of a worker is that of its last report. -/
theorem map_summaryOf_latestRows
    (hclock : (s.recordedFor w).Pairwise fun a b => a.second cfg < b.second cfg) (now : ℤ)
    {table : SqlTable ℚ} (htable : table.rows = performanceRowsOf s.statements) :
    ((db.latestRows table).filter fun row =>
      db.server row = db.weight (cfg.worker w).identifier).map (summaryOf db now) =
      ((s.recordedFor w).getLast?.map (reportSummary db cfg now)).toList := by
  have hown := rowOf_recordedFor hs hw
  have htimes : (s.recordedFor w).map (·.second cfg) = ((performanceRowsOf s.statements).filter
      fun row => db.server row = db.weight (cfg.worker w).identifier).map (·.timestamp) := by
    rw [← List.forall₂_eq_eq_eq]
    exact List.rel_map (fun _ _ hrow => hrow.timestamp.symm) hown
  have hsummaries : (s.recordedFor w).map (reportSummary db cfg now) =
      ((performanceRowsOf s.statements).filter
        fun row => db.server row = db.weight (cfg.worker w).identifier).map (summaryOf db now) := by
    rw [← List.forall₂_eq_eq_eq]
    exact List.rel_map (fun _ _ hrow => (hrow.summaryOf db now).symm) hown
  have hgrow : (table.rows.filter fun row =>
      db.server row = db.weight (cfg.worker w).identifier).Pairwise
        (SqlRow.timestamp · < SqlRow.timestamp ·) := by
    rw [htable, ← List.pairwise_map (R := (· < ·)), ← htimes, List.pairwise_map]
    exact hclock
  rw [Mysql.latestRows, LatestRows.filter_joinLatest_of_pairwise hgrow, htable,
    ← List.getLast?_map, hsummaries, List.getLast?_map]
  cases List.getLast? _ <;> rfl

end Latest

/-- The time of a report is read back as it is shifted by what the offset in force differs from that
of standard time. -/
theorem parseTime_second {zone : Zone} (hzone : zone.localtime = cfg.localtime) (mysql : Mysql ℚ)
    {r : Recorded} (hnow : 0 ≤ r.now) (hyear : (r.second cfg).year ≤ 9999) :
    (zone.mysql mysql).parseTime (r.second cfg) =
      (r.now.tdiv 1000000000 + (zone.offset (r.now.tdiv 1000000000) -
        zone.standard (r.now.tdiv 1000000000 + zone.offset (r.now.tdiv 1000000000)))) *
        1000000000 := by
  rw [Recorded.second, ← hzone] at hyear ⊢
  exact congrArg (· * 1000000000) (Zone.mktime_getTime (Int.tdiv_nonneg hnow (by decide)) hyear)

/-- **The latest score of a worker.**  In every reachable state of the workers and the manager, for
a worker whose name MySQL does not take for that of another and whose reports were processed in a
later local second each: a client that asks for the latest scores finds the worker there once, with
the last of its reports of which a row was left, its values as the columns give them back and its
time as it is read back, and not at all if there is none.  It is a report that the worker has sent,
and unless its call has failed no later one of which a row was left has succeeded; its time is the
second in which it was processed, shifted by what the offset in force differs from that of standard
time. -/
theorem fleet_latest_score (cfg : Config) {es : List Fleet.Event} {s : State}
    (hrun : run (step cfg) (start cfg) es = some s) (hcap : s.statements.length < 2 ^ 31)
    {zone : Zone} (hzone : zone.localtime = cfg.localtime) {mysql : Mysql ℚ} {w : ℕ}
    (hw : Sole cfg (zone.mysql mysql) w)
    (hclock : (s.recordedFor w).Pairwise fun a b => a.second cfg < b.second cfg)
    (call : ScoreCall (zone.mysql mysql) (tablesOf s.statements hcap "server_performance")) :
    (call.servers.filter fun m =>
      mysql.weight m.serverName = mysql.weight (cfg.worker w).identifier) =
      ((s.recordedFor w).getLast?.map (reportSummary (zone.mysql mysql) cfg call.now)).toList ∧
    ∀ r, (s.recordedFor w).getLast? = some r → ∃ n < s.fleet.clients.sent w,
      r.call = Nat.pair w n ∧ (cfg.worker w).report n = some (cfg.pipeline.report r.call) ∧
      (s.fleet.clients.NotFailed w n → ∀ k ∈ s.fleet.clients.succeeded w,
        (∃ r' ∈ s.recorded, r'.call = Nat.pair w k) → k ≤ n) ∧
      (0 ≤ r.now → (r.second cfg).year ≤ 9999 →
        (zone.mysql mysql).parseTime (r.second cfg) =
          (r.now.tdiv 1000000000 + (zone.offset (r.now.tdiv 1000000000) -
            zone.standard (r.now.tdiv 1000000000 + zone.offset (r.now.tdiv 1000000000)))) *
            1000000000) := by
  have hs := inv_run hrun
  refine ⟨?_, fun r hlast => ?_⟩
  · have hperm := call.servers_perm.filter fun m =>
      mysql.weight m.serverName = mysql.weight (cfg.worker w).identifier
    rw [List.filter_map] at hperm
    have htable : (tablesOf s.statements hcap "server_performance").rows =
        performanceRowsOf s.statements := rfl
    have hperm := hperm.trans
      (List.Perm.of_eq (map_summaryOf_latestRows hs hw hclock call.now htable))
    cases hrec : (s.recordedFor w).getLast? with
    | none =>
      rw [hrec] at hperm
      exact hperm.eq_nil
    | some r =>
      rw [hrec] at hperm
      exact List.perm_singleton.1 hperm
  · obtain ⟨hmem, hcall⟩ := List.mem_filter.1 (List.mem_of_getLast? hlast)
    obtain ⟨n, hsent, hpair, -, hreport⟩ := sent_of_recorded hs hmem (of_decide_eq_true hcall)
    refine ⟨n, hsent, hpair, hreport, fun hn k hk hrecorded => ?_, parseTime_second hzone mysql⟩
    obtain ⟨r', hr', hk'⟩ := hrecorded
    have hpart := (recordedFor_sublist hrun w).trans (hs.fleet.handled_sublist _)
    have hlast : (((s.recordedFor w).map (·.call)).filter fun c => c.unpair.1 = w).getLast? =
        some r.call := by
      rw [filter_map_recordedFor, List.getLast?_map, hlast]
      rfl
    obtain ⟨m, hm, -, hle⟩ := Fleet.exists_latest hs.fleet.pushed hpart hlast
    obtain rfl : n = m := (Nat.pair_eq_pair.1 (hpair.symm.trans hm)).2
    refine hle hn k hk (hk' ▸ List.mem_map_of_mem (List.mem_filter.2 ⟨hr', ?_⟩))
    rw [hk', Nat.unpair_pair]
    exact decide_eq_true rfl

/-- The latest scores can always be asked for. -/
theorem exists_scoreCall (db : Mysql ℚ) (table : SqlTable ℚ) : Nonempty (ScoreCall db table) := by
  obtain ⟨l, hl⟩ := db.exists_ranked .desc (db.latestRows table)
  let answer := some (l.map (SqlRow.fetch Mysql.scoreColumns))
  let queryManager : QueryFunctions ℚ :=
    { TimeRanges.noRecords with
      queryLatestScore := ((queryLatestScore db true 0 answer).1,
        TimeRanges.noRecords.queryLatestScore.2) }
  exact ⟨⟨0, answer, ⟨l, hl, rfl⟩, queryManager, rfl⟩⟩

/-- A client finds the host there with the second of its two reports. -/
theorem fleet_latest_score_webHost : ∃ es s, run (step webHost) (start webHost) es = some s ∧
    ∃ (hcap : s.statements.length < 2 ^ 31)
      (call : ScoreCall greenwich (tablesOf s.statements hcap "server_performance")),
      (call.servers.filter fun m => m.serverName = (webHost.worker 0).identifier) =
        [reportSummary greenwich webHost call.now ⟨Nat.pair 0 1, 10000000000⟩] := by
  obtain ⟨es, s, hrun, -, hrecorded⟩ := exists_run_webHost 2
  have hcap : s.statements.length < 2 ^ 31 :=
    (length_statements_webHost hrun hrecorded).trans_lt (by decide)
  obtain ⟨call⟩ := exists_scoreCall greenwich (tablesOf s.statements hcap "server_performance")
  have hfor : s.recordedFor 0 = s.recorded := by
    rw [State.recordedFor, hrecorded]
    simp [List.filter_eq_self]
  have hclock : (s.recordedFor 0).Pairwise fun a b => a.second webHost < b.second webHost := by
    rw [hfor]
    exact pairwise_second_webHost hrecorded
  have hzone : (fixedZone 0 (by decide)).localtime = webHost.localtime := rfl
  have hlatest := (fleet_latest_score webHost hrun hcap hzone sole_webHost hclock call).1
  rw [hfor, hrecorded] at hlatest
  exact ⟨es, s, hrun, hcap, call, hlatest⟩

end FleetRecords

end MonitorSystem
