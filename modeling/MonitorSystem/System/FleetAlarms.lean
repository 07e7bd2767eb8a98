import MonitorSystem.Manager.AnomalyPages
import MonitorSystem.System.FleetReading

/-!
# The alarms of the workers

A client that goes through the pages of `QueryAnomaly` hears of a worker what the worker has
reported too high, and all of it (`fleet_alarms`).  Of the five metrics these are the three that are
compared as they are reported; the two rates compare a report with the one before.

Here the columns give back what was written into them, without rounding, as in the comparison of
trends with plain records.
-/

namespace MonitorSystem

namespace FleetRecords

open CxxFloat (lit)
open Fleet (Config)
open MetricCollector (memCall)
open Paging (Arrangement)
open QueryManager
open QueryService (anomalyRecord anomalyTypeText convertTimeRange setTimestamp severityText)
open TimeRanges (Fits)
open Transition (run)
open Trends (ExactArithmetic fixedZone greenwich)

/-! ### Page by page -/

/-- What a request asks for. -/
def queryOf (request : Proto.QueryAnomalyRequest ℚ) : AnomalyQuery ℚ where
  serverName := request.serverName
  range := convertTimeRange request.timeRange
  thresholds := AnomalyThresholds.orDefaults ⟨request.cpuThreshold, request.memThreshold,
    request.diskThreshold, request.changeRateThreshold⟩

/-- A client asks for the pages of the anomalies, from the first on, and each page is answered in an
order of its own; `number` reads the thresholds in the statement. -/
structure AlarmReader (db : Mysql ℚ) (number : List Char → ℚ) (table : SqlTable ℚ)
    (request : Proto.QueryAnomalyRequest ℚ) where
  now : ℕ → ℤ
  answer : ℕ → Option (List (MysqlRow ℚ))
  queryManager : ℕ → QueryFunctions ℚ
  answered : ∀ p, AnomalyAnswer db number table (queryOf request)
    (normalizePage (Int32.ofNat (p + 1))) (normalizePageSize request.pagination.pageSize) (answer p)
  queryAnomaly_eq : ∀ p, ((queryManager p).queryAnomaly request.serverName (queryOf request).range
    (queryOf request).thresholds (normalizePage (Int32.ofNat (p + 1)))
    (normalizePageSize request.pagination.pageSize)).1 =
      queryAnomalyRecords db (queryOf request).thresholds true (queryOf request).range (now p)
        (answer p)

/-- What a client gets of a row that is selected. -/
def alarmsOf (db : Mysql ℚ) (thresholds : AnomalyThresholds ℚ) (row : SqlRow ℚ) :
    List (Proto.AnomalyRecord ℚ) :=
  (Metric.exceeding db thresholds row).map fun metric =>
    anomalyRecord (anomalyOf db thresholds row metric)

namespace AlarmReader

variable {db : Mysql ℚ} {number : List Char → ℚ} {table : SqlTable ℚ}
  {request : Proto.QueryAnomalyRequest ℚ} (reader : AlarmReader db number table request)

/-- The response with page `p`. -/
def reply (p : ℕ) : Status × Proto.PageResponse (Proto.AnomalyRecord ℚ) :=
  QueryService.queryAnomaly (some (reader.queryManager p))
    { request with pagination := ⟨Int32.ofNat (p + 1), request.pagination.pageSize⟩ }

/-- The records of the first `n` responses. -/
def records (n : ℕ) : List (Proto.AnomalyRecord ℚ) :=
  (List.range n).flatMap fun p => (reader.reply p).2.records

/-- The number of pages, by the count that comes with each of them. -/
def pageTotal (_ : AlarmReader db number table request) : ℕ :=
  anomalyPages db number table (queryOf request) request.pagination.pageSize

variable (hvalid : validateTimeRange (convertTimeRange request.timeRange) = true)
include hvalid

theorem records_reply (p : ℕ) : (reader.reply p).2.records = (((reader.answer p).getD []).flatMap
    (anomalies db (queryOf request).thresholds (reader.now p))).map anomalyRecord := by
  have hrecords := reader.queryAnomaly_eq p
  rw [queryAnomalyRecords_eq (reader.answered p)] at hrecords
  rw [← hrecords]
  exact QueryService.records_pageRpc _ _ _ hvalid _

/-- A page is cut from an order of the rows that are selected. -/
theorem exists_arrangement_reply (p : ℕ) :
    ∃ l, Arrangement (fun row => OrderDual.toDual row.timestamp)
        (anomalyRows db number table (queryOf request)) l ∧
      (reader.reply p).2.records = ((limitOffset (normalizePage (Int32.ofNat (p + 1)))
        (normalizePageSize request.pagination.pageSize) l).getD []).flatMap
          (alarmsOf db (queryOf request).thresholds) := by
  obtain ⟨l, harr, hanswer⟩ := reader.answered p
  refine ⟨l, harr, ?_⟩
  rw [reader.records_reply hvalid, hanswer]
  cases limitOffset (normalizePage (Int32.ofNat (p + 1)))
      (normalizePageSize request.pagination.pageSize) l with
  | none => rfl
  | some rows =>
    rw [Option.map_some, Option.getD_some, Option.getD_some, List.flatMap_map, List.map_flatMap]
    refine List.flatMap_congr fun row _ => ?_
    rw [anomalies_eq, List.map_map]
    rfl

/-- A client gets alarms of rows that are selected. -/
theorem exists_of_mem_reply {p : ℕ} {m : Proto.AnomalyRecord ℚ}
    (hm : m ∈ (reader.reply p).2.records) :
    ∃ row ∈ anomalyRows db number table (queryOf request),
      m ∈ alarmsOf db (queryOf request).thresholds row := by
  obtain ⟨l, harr, hrecords⟩ := reader.exists_arrangement_reply hvalid p
  rw [hrecords] at hm
  obtain ⟨row, hrow, hm⟩ := List.mem_flatMap.1 hm
  refine ⟨row, harr.perm.mem_iff.1 ?_, hm⟩
  cases hcut : limitOffset (normalizePage (Int32.ofNat (p + 1)))
      (normalizePageSize request.pagination.pageSize) l with
  | none =>
    rw [hcut] at hrow
    cases hrow
  | some rows =>
    rw [hcut] at hrow
    exact (subset_of_limitOffset hcut).1 hrow

/-- All pages together have the alarms of all rows, if these have different timestamps. -/
theorem records_perm
    (hdistinct : ((anomalyRows db number table (queryOf request)).map (·.timestamp)).Nodup) :
    (reader.records reader.pageTotal).Perm ((anomalyRows db number table (queryOf request)).flatMap
      (alarmsOf db (queryOf request).thresholds)) := by
  have hsize := one_le_normalizePageSize request.pagination.pageSize
  have hpos : 0 < (normalizePageSize request.pagination.pageSize).toInt.toNat := by omega
  choose choice harr hrecords using reader.exists_arrangement_reply hvalid
  have htiles : Paging.Tiles (fun row : SqlRow ℚ => OrderDual.toDual row.timestamp) id
      (normalizePageSize request.pagination.pageSize).toInt.toNat
      (anomalyRows db number table (queryOf request)) :=
    (Paging.tiles_iff hpos).2 fun t _ a ha b hb hat hbt =>
      List.inj_on_of_nodup_map hdistinct ha hb (OrderDual.toDual.injective (hat.trans hbt.symm))
  have hpages := htiles choice fun p _ => harr p
  rw [List.map_id, List.map_id] at hpages
  refine List.Perm.trans (List.Perm.of_eq ?_) (hpages.flatMap_right _)
  rw [records, pageTotal, anomalyPages_eq, Paging.pages, List.flatMap_assoc]
  refine List.flatMap_congr fun p hp => ?_
  rw [hrecords, limitOffset_eq hsize length_anomalyRows_lt (List.mem_range.1 hp), Option.getD_some]

end AlarmReader

/-! ### The rows of a worker -/

/-- The metrics that are compared as they are reported. -/
def levels : List Metric := [.cpu, .mem, .disk]

/-- The metric is one of these. -/
def isLevel : Metric → Bool
  | .cpu | .mem | .disk => true
  | .cpuRate | .memRate => false

/-- What a report has of a metric. -/
def level (info : MonitorInfo ℚ) : Metric → ℚ
  | .cpu => (perfSample info).cpuPercent
  | .mem => (perfSample info).memUsedPercent
  | .disk => diskUtil info
  | .cpuRate | .memRate => 0

/-- An alarm is about a level, not about a rate. -/
def IsLevel (m : Proto.AnomalyRecord ℚ) : Prop := m.anomalyType ≠ anomalyTypeText .rateSpike

instance (m : Proto.AnomalyRecord ℚ) : Decidable (IsLevel m) := inferInstanceAs (Decidable (_ ≠ _))

/-- The alarm about a metric of a report. -/
def alarm (db : Mysql ℚ) (cfg : Config) (thresholds : AnomalyThresholds ℚ) (r : Recorded)
    (metric : Metric) : Proto.AnomalyRecord ℚ :=
  let value := level (cfg.pipeline.report r.call) metric
  { serverName := (cfg.worker r.call.unpair.1).identifier
    timestamp := setTimestamp (db.parseTime (r.second cfg))
    anomalyType := anomalyTypeText metric.anomalyType
    severity := severityText (if lit 95 1 < value then .critical else .warning)
    value := value
    threshold := metric.threshold thresholds
    metricName := metric.column }

/-- The alarms about the levels of a report that exceed their thresholds. -/
def levelAlarms (db : Mysql ℚ) (cfg : Config) (thresholds : AnomalyThresholds ℚ) (r : Recorded) :
    List (Proto.AnomalyRecord ℚ) :=
  (levels.filter fun metric => metric.threshold thresholds <
    level (cfg.pipeline.report r.call) metric).map (alarm db cfg thresholds r)

/-- In exact arithmetic nothing is lost in a column. -/
theorem throughFloat_eq {db : Mysql ℚ} (hexact : ExactArithmetic db) (x : ℚ) :
    db.throughFloat x = x := by
  show db.atof (db.float (.float x)) = x
  rw [hexact.atof_eq, hexact.float_eq]

section Row

variable {cfg : Config} {db : Mysql ℚ} (hexact : ExactArithmetic db)
  {thresholds : AnomalyThresholds ℚ} {r : Recorded} {row : SqlRow ℚ} (h : RowOf cfg r row)
include hexact h

theorem RowOf.value_level {metric : Metric} (hmetric : metric ∈ levels) :
    metric.value db row = level (cfg.pipeline.report r.call) metric := by
  rw [← throughFloat_eq hexact (level _ metric)]
  obtain ⟨-, last, lastUtil, hrow⟩ := h
  cases hrow
  fin_cases hmetric <;> rfl

theorem RowOf.alarm {metric : Metric} (hmetric : metric ∈ levels) :
    anomalyRecord (anomalyOf db thresholds row metric) = alarm db cfg thresholds r metric := by
  have hvalue : metric.value db row = _ := RowOf.value_level hexact h hmetric
  rw [anomalyOf, addAnomaly, severity_anomalyType, hvalue, h.serverName, h.timestamp]
  fin_cases hmetric <;> rfl

omit hexact h in
/-- A level is compared as it is. -/
theorem size_of_mem_levels {metric : Metric} (hmetric : metric ∈ levels) (x : ℚ) :
    metric.size x = x := by
  fin_cases hmetric <;> rfl

/-- The alarms of a row about levels are those of its report. -/
theorem RowOf.filter_alarmsOf :
    (alarmsOf db thresholds row).filter (fun m => IsLevel m) =
      levelAlarms db cfg thresholds r := by
  have hlevel : (fun m => decide (IsLevel m)) ∘ (fun metric =>
      anomalyRecord (anomalyOf db thresholds row metric)) = isLevel := by
    funext metric
    cases metric <;> rfl
  have hall : Metric.all.filter isLevel = levels := rfl
  rw [alarmsOf, List.filter_map, hlevel, Metric.exceeding, List.filter_comm, hall, levelAlarms]
  have hexceeding : levels.filter (fun metric =>
      metric.threshold thresholds < metric.size (metric.value db row)) =
      levels.filter fun metric => metric.threshold thresholds <
        level (cfg.pipeline.report r.call) metric := by
    refine List.filter_congr fun metric hmetric => ?_
    rw [size_of_mem_levels hmetric, RowOf.value_level hexact h hmetric]
  rw [hexceeding]
  exact List.map_congr_left fun metric hmetric =>
    RowOf.alarm hexact h (List.mem_of_mem_filter hmetric)

end Row

/-- Elements that nothing is made of can be filtered out. -/
theorem flatMap_filter_of_forall {A B : Type*} {p : A → Bool} {f : A → List B} {l : List A}
    (h : ∀ a ∈ l, p a = false → f a = []) : (l.filter p).flatMap f = l.flatMap f := by
  induction l with
  | nil => rfl
  | cons a l ih =>
    have ih := ih fun b hb => h b (List.mem_cons_of_mem a hb)
    rw [List.filter_cons, List.flatMap_cons, ← ih]
    cases hp : p a with
    | false =>
      rw [h a List.mem_cons_self hp]
      rfl
    | true => rfl

instance (db : Mysql ℚ) (serverName : String) (range : TimeRange) (row : SqlRow ℚ) :
    Decidable (db.InScope serverName range row) :=
  inferInstanceAs (Decidable (_ ∧ (_ → _)))

section Matching

variable {cfg : Config} {s : State} (hs : Inv cfg s) {db : Mysql ℚ}
  (hlocal : db.localtime = cfg.localtime) {w : ℕ} (hw : Sole cfg db w) {number : List Char → ℚ}
  {request : Proto.QueryAnomalyRequest ℚ} (hexact : ExactArithmetic db)
  (hrendered : ∀ metric : Metric,
    number (CxxFloat.print (metric.threshold (queryOf request).thresholds)) =
      metric.threshold (queryOf request).thresholds)
  (hname : request.serverName = (cfg.worker w).identifier) (hne : (cfg.worker w).identifier ≠ "")
  (hfits : Fits request.timeRange.startTime ∧ Fits request.timeRange.endTime)
  (hvalid : validateTimeRange (convertTimeRange request.timeRange) = true) {table : SqlTable ℚ}
  (htable : table.rows = performanceRowsOf s.statements)

include hs hlocal hw hname hne hfits in
/-- The rows that are asked for under the name of a worker are those of its reports. -/
theorem rowOf_inScope :
    List.Forall₂ (RowOf cfg) (s.recordedOf cfg w request.timeRange)
      ((performanceRowsOf s.statements).filter fun row =>
        db.InScope request.serverName (convertTimeRange request.timeRange) row) := by
  simp only [State.recordedOf]
  refine List.rel_filter (fun r row hrow => ?_) hs.rows
  have hworker : db.weight (cfg.worker r.call.unpair.1).identifier =
      db.weight (cfg.worker w).identifier ↔ r.call.unpair.1 = w :=
    ⟨fun heq => by_contra fun hne => hw _ hne heq, fun heq => by rw [heq]⟩
  show decide _ = true ↔ decide _ = true
  rw [decide_eq_true_iff, decide_eq_true_iff, Mysql.InScope, Mysql.Between, hrow.serverName,
    hrow.timestamp, hname, hworker, hlocal, (tdiv_convertTimeRange hfits).1,
    (tdiv_convertTimeRange hfits).2, and_comm]
  simp only [ne_eq, hne, not_false_eq_true, forall_const]
  rfl

include hexact hrendered hvalid htable in
/-- A row is selected if it is asked for and exceeds a threshold. -/
theorem anomalyRows_eq : anomalyRows db number table (queryOf request) =
    ((performanceRowsOf s.statements).filter fun row =>
      db.InScope request.serverName (convertTimeRange request.timeRange) row).filter
        fun row => !(Metric.exceeding db (queryOf request).thresholds row).isEmpty := by
  have hpos := orDefaults_pos ⟨request.cpuThreshold, request.memThreshold, request.diskThreshold,
    request.changeRateThreshold⟩
  have hvalid : validateTimeRange (queryOf request).range = true := hvalid
  rw [anomalyRows, if_pos hvalid, htable, List.filter_filter]
  refine List.filter_congr fun row _ => ?_
  rw [Bool.eq_iff_iff, beq_iff_eq, whereTruth_eq_true_iff,
    thresholdCondition_eq_true_iff hexact.atof_eq hrendered hpos]
  simp only [Bool.and_eq_true, decide_eq_true_eq, Bool.not_eq_true', List.isEmpty_eq_false_iff]
  exact and_comm

include hs hlocal hw hexact hrendered hname hne hfits hvalid htable

/-- The alarms about levels are those of the reports. -/
theorem filter_flatMap_alarmsOf :
    ((anomalyRows db number table (queryOf request)).flatMap
      (alarmsOf db (queryOf request).thresholds)).filter (fun m => IsLevel m) =
      (s.recordedOf cfg w request.timeRange).flatMap
        (levelAlarms db cfg (queryOf request).thresholds) := by
  have hnone : ∀ row : SqlRow ℚ, (!(Metric.exceeding db (queryOf request).thresholds row).isEmpty) =
      false → alarmsOf db (queryOf request).thresholds row = [] := by
    intro row hempty
    have hempty : (Metric.exceeding db (queryOf request).thresholds row).isEmpty = true := by
      simpa using hempty
    rw [alarmsOf, List.isEmpty_iff.1 hempty]
    rfl
  have hreports : (s.recordedOf cfg w request.timeRange).map
      (levelAlarms db cfg (queryOf request).thresholds) =
      ((performanceRowsOf s.statements).filter fun row =>
        db.InScope request.serverName (convertTimeRange request.timeRange) row).map fun row =>
          (alarmsOf db (queryOf request).thresholds row).filter fun m => IsLevel m := by
    have halarms : ∀ ⦃r row⦄, RowOf cfg r row →
        levelAlarms db cfg (queryOf request).thresholds r =
          (alarmsOf db (queryOf request).thresholds row).filter fun m => IsLevel m :=
      fun _ _ hrow => (RowOf.filter_alarmsOf hexact hrow).symm
    rw [← List.forall₂_eq_eq_eq]
    exact List.rel_map halarms (rowOf_inScope hs hlocal hw hname hne hfits)
  rw [anomalyRows_eq hexact hrendered hvalid htable,
    flatMap_filter_of_forall fun row _ => hnone row,
    List.filter_flatMap, List.flatMap_def, List.flatMap_def, hreports]

/-- The rows that are selected are of reports. -/
theorem exists_report_of_mem_anomalyRows {row : SqlRow ℚ}
    (hrow : row ∈ anomalyRows db number table (queryOf request)) :
    ∃ r ∈ s.recordedOf cfg w request.timeRange, RowOf cfg r row := by
  rw [anomalyRows_eq hexact hrendered hvalid htable] at hrow
  obtain ⟨i, hi, rfl⟩ := List.mem_iff_getElem.1 (List.mem_filter.1 hrow).1
  have hrows := rowOf_inScope hs hlocal hw hname hne hfits
  have hi' : i < (s.recordedOf cfg w request.timeRange).length :=
    hrows.length_eq ▸ hi
  exact ⟨_, List.getElem_mem hi', hrows.get hi' hi⟩

/-- The timestamps of the rows that are selected are those of reports. -/
theorem map_timestamp_sublist : ((anomalyRows db number table (queryOf request)).map
    (·.timestamp)).Sublist
      ((s.recordedOf cfg w request.timeRange).map (·.second cfg)) := by
  have htimes : (s.recordedOf cfg w request.timeRange).map (·.second cfg) =
      ((performanceRowsOf s.statements).filter fun row =>
        db.InScope request.serverName (convertTimeRange request.timeRange) row).map
          (·.timestamp) := by
    rw [← List.forall₂_eq_eq_eq]
    exact List.rel_map (fun _ _ hrow => hrow.timestamp.symm)
      (rowOf_inScope hs hlocal hw hname hne hfits)
  rw [anomalyRows_eq hexact hrendered hvalid htable, htimes]
  exact List.filter_sublist.map _

end Matching

/-- **Alarms.**  In every reachable state of the workers and the manager, for a worker with a name
that is not empty and that MySQL does not take for that of another, for a valid time range below the
bound, in exact arithmetic, and when the statement denotes the thresholds: every alarm that a client
gets under the name of the worker is about a report of the worker of which a row was left in the
time range, and if it is about a level, the report had that level above the threshold; if no two of
the reports were processed within one local second, the client gets with all pages together the
alarms about the levels of all of these reports that exceed their thresholds, each once. -/
theorem fleet_alarms (cfg : Config) {es : List Fleet.Event} {s : State}
    (hrun : run (step cfg) (start cfg) es = some s) (hcap : s.statements.length < 2 ^ 31)
    {zone : Zone} (hzone : zone.localtime = cfg.localtime) {mysql : Mysql ℚ}
    (hexact : ExactArithmetic mysql) {w : ℕ} (hw : Sole cfg (zone.mysql mysql) w)
    {number : List Char → ℚ} {request : Proto.QueryAnomalyRequest ℚ}
    (hrendered : ∀ metric : Metric,
      number (CxxFloat.print (metric.threshold (queryOf request).thresholds)) =
        metric.threshold (queryOf request).thresholds)
    (hname : request.serverName = (cfg.worker w).identifier)
    (hne : (cfg.worker w).identifier ≠ "")
    (hfits : Fits request.timeRange.startTime ∧ Fits request.timeRange.endTime)
    (hrange : request.timeRange.startTime.seconds ≤ request.timeRange.endTime.seconds)
    (reader : AlarmReader (zone.mysql mysql) number
      (tablesOf s.statements hcap "server_performance") request) :
    (∀ n, ∀ m ∈ reader.records n, ∃ r ∈ s.recordedOf cfg w request.timeRange,
        m.serverName = (cfg.worker w).identifier ∧
        m.timestamp = setTimestamp ((zone.mysql mysql).parseTime (r.second cfg)) ∧
        (IsLevel m → m ∈ levelAlarms (zone.mysql mysql) cfg (queryOf request).thresholds r)) ∧
    (((s.recordedOf cfg w request.timeRange).map (·.second cfg)).Nodup →
      ((reader.records reader.pageTotal).filter fun m => IsLevel m).Perm
        ((s.recordedOf cfg w request.timeRange).flatMap
          (levelAlarms (zone.mysql mysql) cfg (queryOf request).thresholds))) := by
  have hs := inv_run hrun
  have hexact : ExactArithmetic (zone.mysql mysql) := ⟨hexact.atof_eq, hexact.float_eq⟩
  have hvalid := valid_convertTimeRange hfits hrange
  have htable : (tablesOf s.statements hcap "server_performance").rows =
      performanceRowsOf s.statements := rfl
  refine ⟨fun n m hm => ?_, fun hdistinct => ?_⟩
  · obtain ⟨p, -, hreply⟩ := List.mem_flatMap.1 hm
    obtain ⟨row, hrow, hm⟩ := reader.exists_of_mem_reply hvalid hreply
    obtain ⟨r, hr, hof⟩ := exists_report_of_mem_anomalyRows hs hzone hw hexact hrendered hname hne
      hfits hvalid htable hrow
    have hlevel (hlevel : IsLevel m) :
        m ∈ levelAlarms (zone.mysql mysql) cfg (queryOf request).thresholds r := by
      rw [← RowOf.filter_alarmsOf hexact hof]
      exact List.mem_filter.2 ⟨hm, decide_eq_true hlevel⟩
    have hworker : r.call.unpair.1 = w := (of_decide_eq_true (List.mem_filter.1 hr).2).1
    obtain ⟨metric, -, rfl⟩ := List.mem_map.1 hm
    refine ⟨r, hr, ?_, ?_, hlevel⟩
    · rw [← hworker]
      exact hof.serverName
    · exact congrArg (fun t => setTimestamp ((zone.mysql mysql).parseTime t)) hof.timestamp
  · have hsub := map_timestamp_sublist hs hzone hw hexact hrendered hname hne hfits hvalid htable
    rw [← filter_flatMap_alarmsOf hs hzone hw hexact hrendered hname hne hfits hvalid htable]
    exact (reader.records_perm hvalid (hdistinct.sublist hsub)).filter _

/-- Pages of anomalies can always be asked for. -/
theorem exists_alarmReader (db : Mysql ℚ) (number : List Char → ℚ) (table : SqlTable ℚ)
    (request : Proto.QueryAnomalyRequest ℚ) : Nonempty (AlarmReader db number table request) := by
  obtain ⟨l, harr⟩ := Paging.exists_arrangement
    (fun row : SqlRow ℚ => OrderDual.toDual row.timestamp)
    (anomalyRows db number table (queryOf request))
  let answer (p : ℕ) : Option (List (MysqlRow ℚ)) :=
    (limitOffset (normalizePage (Int32.ofNat (p + 1)))
      (normalizePageSize request.pagination.pageSize) l).map (·.map (SqlRow.fetch anomalyColumns))
  let queryManager (p : ℕ) : QueryFunctions ℚ :=
    { TimeRanges.noRecords with
      queryAnomaly := fun _ range thresholds _ _ =>
        (queryAnomalyRecords db thresholds true range 0 (answer p), 0) }
  exact ⟨⟨fun _ => 0, answer, queryManager, fun _ => ⟨l, harr, rfl⟩, fun _ => rfl⟩⟩

/-- The request for the alarms of the host `web` in the first minute of 1970. -/
def webAlarms : Proto.QueryAnomalyRequest ℚ := { serverName := "web", timeRange := oneMinute }

/-- The levels of a report about nothing but the memory. -/
def memLevel (used : ℚ) : Metric → ℚ
  | .mem => used
  | .cpu | .disk | .cpuRate | .memRate => 0

theorem level_webHost {k : ℕ} {used : ℚ}
    (hused : (memCall (filling k)).toOption.map (·.usedPercent) = some used) :
    level (webHost.pipeline.report (Nat.pair 0 k)) = memLevel used := by
  obtain ⟨mem, hmem, -, hreport⟩ := exists_report_webHost k
  rw [hmem] at hused
  obtain rfl : mem.usedPercent = used := Option.some.inj hused
  funext metric
  rw [hreport]
  cases metric <;> rfl

/-- The second report of the host, and not the first, has too high a level. -/
theorem levelAlarms_webHost :
    levelAlarms greenwich webHost (queryOf webAlarms).thresholds ⟨Nat.pair 0 0, 0⟩ = [] ∧
    ∃ m, levelAlarms greenwich webHost (queryOf webAlarms).thresholds
      ⟨Nat.pair 0 1, 10000000000⟩ = [m] ∧ m.value = 98 ∧ m.severity = "CRITICAL" ∧
        m.metricName = "mem_used_percent" := by
  have hfirst : level (webHost.pipeline.report (Nat.pair 0 0)) = memLevel 0 := by
    refine level_webHost ?_
    rw [memCall, MemMonitor.readLines_words]
    decide +kernel
  have hsecond : level (webHost.pipeline.report (Nat.pair 0 1)) = memLevel 98 := by
    refine level_webHost ?_
    rw [memCall, MemMonitor.readLines_words]
    decide +kernel
  have hnone : (levels.filter fun metric =>
      metric.threshold (queryOf webAlarms).thresholds < memLevel 0 metric).length = 0 := by
    decide +kernel
  have hone : (levels.filter fun metric =>
      metric.threshold (queryOf webAlarms).thresholds < memLevel 98 metric) = [.mem] := by
    rw [levels, List.filter_cons_of_neg (by decide +kernel),
      List.filter_cons_of_pos (by decide +kernel), List.filter_cons_of_neg (by decide +kernel),
      List.filter_nil]
  have hcritical : severityText (if lit 95 1 < (98 : ℚ) then .critical else .warning) =
      "CRITICAL" := by decide +kernel
  simp only [levelAlarms, hfirst, hsecond, List.length_eq_zero_iff.1 hnone, hone]
  refine ⟨rfl, _, rfl, ?_, ?_, rfl⟩
  · exact congrFun hsecond .mem
  · rw [alarm, hsecond]
    exact hcritical

theorem exactArithmetic_exactMysql : ExactArithmetic exactMysql := ⟨fun _ => rfl, fun _ => rfl⟩

/-- A client that asks for the alarms of the host gets the one about the memory. -/
theorem fleet_alarms_webHost : ∃ es s, run (step webHost) (start webHost) es = some s ∧
    ∃ (hcap : s.statements.length < 2 ^ 31) (reader : AlarmReader greenwich DecimalText.fixedValue
      (tablesOf s.statements hcap "server_performance") webAlarms) (m : _),
      (reader.records reader.pageTotal).filter (fun m => IsLevel m) = [m] ∧ m.value = 98 ∧
        m.severity = "CRITICAL" ∧ m.metricName = "mem_used_percent" := by
  obtain ⟨es, s, hrun, -, hrecorded⟩ := exists_run_webHost 2
  have hcap : s.statements.length < 2 ^ 31 :=
    (length_statements_webHost hrun hrecorded).trans_lt (by decide)
  obtain ⟨reader⟩ := exists_alarmReader greenwich DecimalText.fixedValue
    (tablesOf s.statements hcap "server_performance") webAlarms
  have hrendered : ∀ metric : Metric, DecimalText.fixedValue
      (CxxFloat.print (metric.threshold (queryOf webAlarms).thresholds)) =
        metric.threshold (queryOf webAlarms).thresholds := by
    intro metric
    cases metric <;> decide +kernel
  have hzone : (fixedZone 0 (by decide)).localtime = webHost.localtime := rfl
  have hname : webAlarms.serverName = (webHost.worker 0).identifier := by decide
  have hof : s.recordedOf webHost 0 webAlarms.timeRange = s.recorded :=
    recordedOf_oneMinute hrecorded (by decide)
  have halarms := (fleet_alarms webHost hrun hcap hzone exactArithmetic_exactMysql sole_webHost
    hrendered hname (by decide) fits_oneMinute (by decide) reader).2
  have hdistinct : ((s.recordedOf webHost 0 webAlarms.timeRange).map (·.second webHost)).Nodup := by
    rw [hof, List.Nodup, List.pairwise_map]
    exact (pairwise_second_webHost hrecorded).imp fun hlt => hlt.ne
  have hperm := halarms hdistinct
  obtain ⟨hidle, m, hfull, hvalue⟩ := levelAlarms_webHost
  have hall : (s.recordedOf webHost 0 webAlarms.timeRange).flatMap
      (levelAlarms greenwich webHost (queryOf webAlarms).thresholds) = [m] := by
    rw [hof, hrecorded]
    show levelAlarms _ _ _ ⟨Nat.pair 0 0, 0⟩ ++
      (levelAlarms _ _ _ ⟨Nat.pair 0 1, 10000000000⟩ ++ []) = _
    rw [hidle, hfull]
    rfl
  have hperm := hperm.trans (List.Perm.of_eq hall)
  exact ⟨es, s, hrun, hcap, reader, m, List.perm_singleton.1 hperm, hvalue⟩

end FleetRecords

end MonitorSystem
