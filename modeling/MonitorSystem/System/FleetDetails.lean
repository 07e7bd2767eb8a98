import MonitorSystem.System.FleetReading

/-!
# The details of the workers

What `System/FleetReading.lean` has of the reports, for their details: the interfaces, the CPUs and
the memory that a worker reports are what a client reads of it in three tables of details.  The
fourth table, that of the disks, stays empty.
-/

namespace MonitorSystem

namespace FleetRecords

open Fleet (Config)
open QueryManager
open QueryService (convertTimeRange)
open TimeRanges (Fits)
open Transition (run run_invariant)
open Trends (fixedZone greenwich)

/-- A filter that keeps all of a group or nothing of it filters the groups. -/
theorem filter_flatMap_of_forall {A B : Type*} {p : B → Bool} {q : A → Bool} {f : A → List B}
    (h : ∀ a, ∀ b ∈ f a, p b = q a) (l : List A) :
    (l.flatMap f).filter p = (l.filter q).flatMap f := by
  induction l with
  | nil => rfl
  | cons a l ih =>
    rw [List.flatMap_cons, List.filter_append, ih, List.filter_cons]
    cases hq : q a with
    | false =>
      rw [List.filter_eq_nil_iff.2 fun b hb => by rw [h a b hb, hq]; exact Bool.false_ne_true]
      rfl
    | true =>
      rw [List.filter_eq_self.2 fun b hb => (h a b hb).trans hq]
      rfl

section Table

variable {cfg : Config} {db : Mysql ℚ} {R P D : Type} (t : DetailTable db R P D)

/-! ### What is in a table -/

/-- The name of the worker of a report, and the second in which it was processed. -/
def keyOf (cfg : Config) (r : Recorded) : String × ClockText.Tm :=
  ((cfg.worker r.call.unpair.1).identifier, r.second cfg)

/-- The messages about the devices of a report. -/
def messages (cfg : Config) (r : Recorded) : List P :=
  (t.devices (cfg.pipeline.report r.call)).map (t.message (keyOf cfg r).1 (keyOf cfg r).2)

/-- A row, as far as a client sees it. -/
def seen (row : SqlRow ℚ) : (String × ClockText.Tm) × P :=
  ((row.serverName, row.timestamp), t.delivered row)

/-- The rows of a report, as far as a client sees them. -/
def seenOf (cfg : Config) (r : Recorded) : List ((String × ClockText.Tm) × P) :=
  (messages t cfg r).map (Prod.mk (keyOf cfg r))

/-- The rows that a report leaves. -/
theorem map_seen_processData {s : Fleet.State} (hs : Fleet.Inv cfg s) {i c : ℕ}
    (hi : s.manager.pipe.consumer i = .processing c) (now : ℤ) :
    (storedRows (processData (env cfg) i s.manager.store (jobAt cfg c now)).2 t.query.table).map
      (seen t) = seenOf t cfg ⟨c, now⟩ := by
  obtain ⟨hid, hname⟩ := identifier_of_processing hs hi
  have hconn : (jobAt cfg c now).connection = .connected := rfl
  have hrows := t.map_delivered_processData (env cfg) i s.manager.store hconn hid
  have hseen : ∀ row ∈ storedRows (processData (env cfg) i s.manager.store (jobAt cfg c now)).2
      t.query.table, seen t row = (keyOf cfg ⟨c, now⟩, t.delivered row) := by
    intro row hrow
    obtain ⟨statement, hmem, hleft⟩ := List.mem_filterMap.1 hrow
    have hwritten := (List.mem_filter.1 (List.mem_filter.1 hmem).1).1
    obtain ⟨row', hleft', hserver, htime⟩ := leavesRow_processData hwritten
    obtain rfl : row' = row := Option.some.inj (hleft'.symm.trans hleft)
    rw [seen, hserver, htime]
    exact congrArg (fun name => ((name, _), _)) hname
  calc (storedRows (processData (env cfg) i s.manager.store (jobAt cfg c now)).2
        t.query.table).map (seen t)
      = ((storedRows (processData (env cfg) i s.manager.store (jobAt cfg c now)).2
        t.query.table).map t.delivered).map (Prod.mk (keyOf cfg ⟨c, now⟩)) := by
        rw [List.map_map]
        exact List.map_congr_left hseen
    _ = seenOf t cfg ⟨c, now⟩ := by
        rw [hrows, seenOf, messages, keyOf, ← hname]
        rfl

/-- A table has the rows of the recorded reports, in order. -/
theorem map_seen_statements {es : List Fleet.Event} {s : State}
    (hrun : run (step cfg) (start cfg) es = some s) :
    (storedRows s.statements t.query.table).map (seen t) = s.recorded.flatMap (seenOf t cfg) := by
  refine (run_invariant (I := fun s => Inv cfg s ∧
    (storedRows s.statements t.query.table).map (seen t) = s.recorded.flatMap (seenOf t cfg))
    (fun s e s' hs h => ⟨inv_step hs.1 h, ?_⟩) hrun ⟨inv_start cfg, rfl⟩).2
  obtain ⟨fleet, hfleet, rfl⟩ := Option.map_eq_some_iff.1 h
  rw [storedRows_append, List.map_append, hs.2, List.flatMap_append]
  rcases written_cases hfleet with ⟨hwritten, hrec⟩ | ⟨i, c, now, hi, -, hwritten, hrec⟩
  · rw [hwritten, hrec]
    rfl
  · rw [hwritten, hrec, map_seen_processData t hs.1.fleet hi now, List.flatMap_singleton]

/-! ### What a client gets -/

variable {s : State} {tables : String → SqlTable ℚ} {w : ℕ} {timeRange : Proto.TimeRange}
  {pageSize : Int32}

/-- The rows that a client asks for under the name of a worker are those of its reports. -/
theorem map_delivered_matching (hlocal : db.localtime = cfg.localtime) (hw : Sole cfg db w)
    (hfits : Fits timeRange.startTime ∧ Fits timeRange.endTime)
    (hvalid : validateTimeRange (convertTimeRange timeRange) = true)
    (htable : ((tables t.query.table).rows.map (seen t)) = s.recorded.flatMap (seenOf t cfg)) :
    (t.query.matching db tables (cfg.worker w).identifier (convertTimeRange timeRange)).map
      t.delivered = (s.recordedOf cfg w timeRange).flatMap (messages t cfg) := by
  let asked (key : String × ClockText.Tm) : Prop :=
    db.weight key.1 = db.weight (cfg.worker w).identifier ∧
      db.localtime ((convertTimeRange timeRange).startTime.tdiv 1000000000) ≤ key.2 ∧
      key.2 ≤ db.localtime ((convertTimeRange timeRange).endTime.tdiv 1000000000)
  have hname (v : ℕ) : db.weight (cfg.worker v).identifier = db.weight (cfg.worker w).identifier ↔
      v = w := ⟨fun heq => by_contra fun hne => hw _ hne heq, fun heq => by rw [heq]⟩
  have hasked (r : Recorded) : asked (keyOf cfg r) ↔ r.call.unpair.1 = w ∧
      cfg.localtime timeRange.startTime.seconds.toInt ≤ r.second cfg ∧
      r.second cfg ≤ cfg.localtime timeRange.endTime.seconds.toInt := by
    rw [← hlocal, ← hname, ← (tdiv_convertTimeRange hfits).1, ← (tdiv_convertTimeRange hfits).2]
    exact Iff.rfl
  have hfilter : ((tables t.query.table).rows.map (seen t)).filter (fun b => asked b.1) =
      (s.recordedOf cfg w timeRange).flatMap (seenOf t cfg) := by
    rw [htable]
    refine filter_flatMap_of_forall (fun r b hb => ?_) _
    obtain ⟨m, -, rfl⟩ := List.mem_map.1 hb
    exact decide_eq_decide.2 (hasked r)
  have hsnd := congrArg (List.map Prod.snd) hfilter
  rw [List.filter_map, List.map_map, List.map_flatMap] at hsnd
  rw [DetailQuery.matching, matchingRows, if_pos hvalid]
  refine Eq.trans ?_ (hsnd.trans (List.flatMap_congr fun r _ => ?_))
  · rfl
  · rw [seenOf, List.map_map]
    exact List.map_id _

/-- A client reads the details of a worker: on whatever pages, it gets messages about devices that
the worker has reported; the first page has all of them if there is room, and all pages together do
if rows with one timestamp that are spread over a page boundary are alike. -/
structure Delivers (cfg : Config) (s : State) (tables : String → SqlTable ℚ) (w : ℕ)
    (timeRange : Proto.TimeRange) (pageSize : Int32) : Prop where
  reported : ∀ reader : DetailReader t tables (cfg.worker w).identifier timeRange pageSize,
    ∀ n, ∀ m ∈ reader.records n,
      ∃ r ∈ s.recordedOf cfg w timeRange, m ∈ messages t cfg r
  firstPage : ((s.recordedOf cfg w timeRange).flatMap
      (messages t cfg)).length ≤ (normalizePageSize pageSize).toInt.toNat →
    ∀ reader : DetailReader t tables (cfg.worker w).identifier timeRange pageSize,
      (reader.records 1).Perm
        ((s.recordedOf cfg w timeRange).flatMap (messages t cfg))
  allPages : t.query.TiesAlike db tables (cfg.worker w).identifier (convertTimeRange timeRange)
      pageSize →
    ∀ reader : DetailReader t tables (cfg.worker w).identifier timeRange pageSize,
      (reader.records reader.pageTotal).Perm
        ((s.recordedOf cfg w timeRange).flatMap (messages t cfg))

theorem delivers (hlocal : db.localtime = cfg.localtime) (hw : Sole cfg db w)
    (hfits : Fits timeRange.startTime ∧ Fits timeRange.endTime)
    (hvalid : validateTimeRange (convertTimeRange timeRange) = true)
    (htable : ((tables t.query.table).rows.map (seen t)) = s.recorded.flatMap (seenOf t cfg)) :
    Delivers t cfg s tables w timeRange pageSize := by
  have hmatching := map_delivered_matching t hlocal hw hfits hvalid htable
  refine ⟨fun reader n m hm => ?_, fun hroom reader => ?_, fun hties reader => ?_⟩
  · obtain ⟨p, -, hreply⟩ := List.mem_flatMap.1 hm
    obtain ⟨row, hrow, rfl⟩ := reader.exists_of_mem_reply hreply
    have hmem := List.mem_map_of_mem (f := t.delivered) hrow
    rw [DetailReader.matching, hmatching] at hmem
    exact List.mem_flatMap.1 hmem
  · rw [← hmatching, List.length_map] at hroom
    rw [← hmatching]
    exact reader.records_one_perm hroom
  · rw [← hmatching]
    exact reader.records_perm hties

end Table

/-- **The details reach the client, but for the disks.**  In every reachable state of the workers
and the manager, for a worker whose name MySQL does not take for that of another, for every valid
time range below the bound and every page size: what a client reads of the interfaces, the CPUs and
the memory of the worker is what the worker has reported of them, as the columns give it back, in
the reports of which rows were left.  Of the disks no client ever gets a record. -/
theorem fleet_details (cfg : Config) {es : List Fleet.Event} {s : State}
    (hrun : run (step cfg) (start cfg) es = some s) (hcap : s.statements.length < 2 ^ 31)
    {zone : Zone} (hzone : zone.localtime = cfg.localtime) {mysql : Mysql ℚ} {w : ℕ}
    (hw : Sole cfg (zone.mysql mysql) w) {timeRange : Proto.TimeRange}
    (hfits : Fits timeRange.startTime ∧ Fits timeRange.endTime)
    (hrange : timeRange.startTime.seconds ≤ timeRange.endTime.seconds) (pageSize : Int32) :
    Delivers (zone.mysql mysql).netTable cfg s (tablesOf s.statements hcap) w timeRange pageSize ∧
    Delivers (zone.mysql mysql).softirqTable cfg s (tablesOf s.statements hcap) w timeRange
      pageSize ∧
    Delivers (zone.mysql mysql).memTable cfg s (tablesOf s.statements hcap) w timeRange pageSize ∧
    ∀ (reader : DetailReader (zone.mysql mysql).diskTable (tablesOf s.statements hcap)
      (cfg.worker w).identifier timeRange pageSize) (n : ℕ), reader.records n = [] := by
  have hvalid := valid_convertTimeRange hfits hrange
  have hdisks : Delivers (zone.mysql mysql).diskTable cfg s (tablesOf s.statements hcap) w
      timeRange pageSize := delivers _ hzone hw hfits hvalid (map_seen_statements _ hrun)
  refine ⟨delivers _ hzone hw hfits hvalid (map_seen_statements _ hrun),
    delivers _ hzone hw hfits hvalid (map_seen_statements _ hrun),
    delivers _ hzone hw hfits hvalid (map_seen_statements _ hrun), fun reader n => ?_⟩
  rw [List.eq_nil_iff_forall_not_mem]
  intro m hm
  obtain ⟨r, -, hmessage⟩ := hdisks.reported reader n m hm
  exact absurd hmessage List.not_mem_nil

/-- Pages of the details of the memory can always be asked for. -/
theorem exists_memReader (db : Mysql ℚ) (tables : String → SqlTable ℚ) (serverName : String)
    (timeRange : Proto.TimeRange) (pageSize : Int32) :
    Nonempty (DetailReader db.memTable tables serverName timeRange pageSize) := by
  obtain ⟨l, harr⟩ := Paging.exists_arrangement
    (fun row : SqlRow ℚ => OrderDual.toDual row.timestamp)
    (matchingRows db serverName (convertTimeRange timeRange) (tables "server_mem_detail"))
  let world (p : ℕ) : World ℚ :=
    ⟨fun _ => (limitOffset (normalizePage (Int32.ofNat (p + 1))) (normalizePageSize pageSize) l).map
      (·.map (SqlRow.fetch db.memDetail.columns)), fun _ => none⟩
  let queryManager (p : ℕ) : QueryFunctions ℚ :=
    { TimeRanges.noRecords with queryMemDetail := db.memDetail.run db.localtime (world p) true 0 }
  exact ⟨⟨fun _ => 0, world, queryManager, fun _ => rfl, fun _ => ⟨l, harr, rfl⟩⟩⟩

/-- A report of the host has its memory. -/
theorem exists_messages_webHost (k : ℕ) (now : ℤ) :
    ∃ m, messages greenwich.memTable webHost ⟨Nat.pair 0 k, now⟩ = [m] := by
  obtain ⟨mem, -, -, hreport⟩ := exists_report_webHost k
  rw [messages, hreport]
  exact ⟨_, rfl⟩

/-- A client that asks for the details of the memory of the host gets those of its two reports. -/
theorem fleet_details_webHost : ∃ es s, run (step webHost) (start webHost) es = some s ∧
    ∃ (hcap : s.statements.length < 2 ^ 31) (reader : DetailReader greenwich.memTable
      (tablesOf s.statements hcap) (webHost.worker 0).identifier oneMinute 10)
      (m m' : Proto.MemDetailRecord ℚ),
      messages greenwich.memTable webHost ⟨Nat.pair 0 0, 0⟩ = [m] ∧
      messages greenwich.memTable webHost ⟨Nat.pair 0 1, 10000000000⟩ = [m'] ∧
      (reader.records 1).Perm [m, m'] := by
  obtain ⟨es, s, hrun, -, hrecorded⟩ := exists_run_webHost 2
  have hcap : s.statements.length < 2 ^ 31 :=
    (length_statements_webHost hrun hrecorded).trans_lt (by decide)
  obtain ⟨reader⟩ := exists_memReader greenwich (tablesOf s.statements hcap)
    (webHost.worker 0).identifier oneMinute 10
  obtain ⟨m, hm⟩ := exists_messages_webHost 0 0
  obtain ⟨m', hm'⟩ := exists_messages_webHost 1 10000000000
  have hall : (s.recordedOf webHost 0 oneMinute).flatMap
      (messages greenwich.memTable webHost) = [m, m'] := by
    rw [recordedOf_oneMinute hrecorded (by decide), hrecorded]
    show messages _ _ ⟨Nat.pair 0 0, 0⟩ ++ (messages _ _ ⟨Nat.pair 0 1, 10000000000⟩ ++ []) = _
    rw [hm, hm']
    rfl
  have hzone : (fixedZone 0 (by decide)).localtime = webHost.localtime := rfl
  obtain ⟨-, -, hmem, -⟩ :=
    fleet_details webHost hrun hcap hzone sole_webHost fits_oneMinute (by decide) 10
  have hroom : 2 ≤ (normalizePageSize 10).toInt.toNat := by decide
  have hperm := hmem.firstPage ((congrArg List.length hall).trans_le hroom) reader
  exact ⟨es, s, hrun, hcap, reader, m, m', hm, hm', hperm.trans (List.Perm.of_eq hall)⟩

end FleetRecords

end MonitorSystem
