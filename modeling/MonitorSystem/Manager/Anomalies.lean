import MonitorSystem.Library.SqlCondition
import MonitorSystem.Manager.Tables

/-!
# Anomalies

`QueryAnomaly` tests five metrics of a row against four thresholds, and it does so twice: MySQL in
the `WHERE` clause, where `NULL` is unknown, and the loop over the result, where `NULL` is read
as 0 and every threshold that is exceeded yields a record.  In exact arithmetic the two agree,
as no threshold is negative: `where_iff_anomalies`.
-/

namespace MonitorSystem

open CxxFloat (lit)
open QueryManager
open SqlCondition (Condition Operand Truth)

variable {F : Type}

/-! ### The loop -/

/-- `anomaly_type`. -/
inductive AnomalyType
  | cpuHigh
  | memHigh
  | diskHigh
  | rateSpike
  deriving DecidableEq

/-- `severity`. -/
inductive Severity
  | warning
  | critical
  deriving DecidableEq

/-- `AnomalyRecord`. -/
structure AnomalyRecord (F : Type) where
  serverName : String
  timestamp : ℤ
  anomalyType : AnomalyType
  severity : Severity
  value : F
  threshold : F
  metricName : String

/-- The columns that are selected. -/
def anomalyColumns : List String :=
  ["server_name", "timestamp", "cpu_percent", "mem_used_percent", "disk_util_percent",
    "cpu_percent_rate", "mem_used_percent_rate"]

section Loop

variable [CxxFloat F]

/-- `QueryServiceImpl::QueryAnomaly` takes a threshold from the request if it is positive. -/
def thresholdOr (requested default : F) : F := if 0 < requested then requested else default

/-- `thresholds` in `QueryServiceImpl::QueryAnomaly`. -/
def AnomalyThresholds.orDefaults (request : AnomalyThresholds F) : AnomalyThresholds F where
  cpuThreshold := thresholdOr request.cpuThreshold (lit 80 1)
  memThreshold := thresholdOr request.memThreshold (lit 90 1)
  diskThreshold := thresholdOr request.diskThreshold (lit 85 1)
  changeRateThreshold := thresholdOr request.changeRateThreshold (lit 1 2)

/-- The severity that `add_anomaly` chooses. -/
def severity (type : AnomalyType) (value : F) : Severity :=
  if type = .cpuHigh ∧ lit 95 1 < value then .critical
  else if type = .memHigh ∧ lit 95 1 < value then .critical
  else if type = .diskHigh ∧ lit 95 1 < value then .critical
  else if type = .rateSpike ∧ lit 1 1 < CxxFloat.abs value then .critical
  else .warning

/-- `add_anomaly`. -/
def addAnomaly (serverName : String) (timestamp : ℤ) (type : AnomalyType) (metric : String)
    (value threshold : F) : AnomalyRecord F :=
  ⟨serverName, timestamp, type, severity type value, value, threshold, metric⟩

variable (db : Mysql F) (thresholds : AnomalyThresholds F)

/-- A turn of the loop over a result: the records of a row, at the time `now`. -/
def anomalies (now : ℤ) (row : MysqlRow F) : List (AnomalyRecord F) :=
  let add := addAnomaly (readName (row 0)) (db.readTime now (row 1))
  let cpu := db.readFloat (row 2)
  let mem := db.readFloat (row 3)
  let disk := db.readFloat (row 4)
  let cpuRate := db.readFloat (row 5)
  let memRate := db.readFloat (row 6)
  (if thresholds.cpuThreshold < cpu then
    [add .cpuHigh "cpu_percent" cpu thresholds.cpuThreshold] else []) ++
  (if thresholds.memThreshold < mem then
    [add .memHigh "mem_used_percent" mem thresholds.memThreshold] else []) ++
  (if thresholds.diskThreshold < disk then
    [add .diskHigh "disk_util_percent" disk thresholds.diskThreshold] else []) ++
  (if thresholds.changeRateThreshold < CxxFloat.abs cpuRate then
    [add .rateSpike "cpu_percent_rate" cpuRate thresholds.changeRateThreshold] else []) ++
  (if thresholds.changeRateThreshold < CxxFloat.abs memRate then
    [add .rateSpike "mem_used_percent_rate" memRate thresholds.changeRateThreshold] else [])

/-- `QueryAnomaly` for one page, when `answer` comes back. -/
def queryAnomalyRecords (connected : Bool) (range : TimeRange) (now : ℤ)
    (answer : Option (List (MysqlRow F))) : List (AnomalyRecord F) :=
  if !connected then []
  else if !validateTimeRange range then []
  else (answer.getD []).flatMap (anomalies db thresholds now)

end Loop

/-! ### Metrics -/

/-- The metrics that are tested. -/
inductive Metric
  | cpu
  | mem
  | disk
  | cpuRate
  | memRate

namespace Metric

/-- In the order of the tests. -/
def all : List Metric := [cpu, mem, disk, cpuRate, memRate]

def column : Metric → String
  | cpu => "cpu_percent"
  | mem => "mem_used_percent"
  | disk => "disk_util_percent"
  | cpuRate => "cpu_percent_rate"
  | memRate => "mem_used_percent_rate"

def anomalyType : Metric → AnomalyType
  | cpu => .cpuHigh
  | mem => .memHigh
  | disk => .diskHigh
  | cpuRate | memRate => .rateSpike

def threshold (thresholds : AnomalyThresholds F) : Metric → F
  | cpu => thresholds.cpuThreshold
  | mem => thresholds.memThreshold
  | disk => thresholds.diskThreshold
  | cpuRate | memRate => thresholds.changeRateThreshold

/-- What is compared in the statement. -/
def operand : Metric → Operand
  | cpu => .column "cpu_percent"
  | mem => .column "mem_used_percent"
  | disk => .column "disk_util_percent"
  | cpuRate => .absColumn "cpu_percent_rate"
  | memRate => .absColumn "mem_used_percent_rate"

variable [CxxFloat F]

/-- What is compared in the loop: of a rate, the absolute value. -/
def size (x : F) : Metric → F
  | cpu | mem | disk => x
  | cpuRate | memRate => CxxFloat.abs x

/-- The size above which an anomaly is critical. -/
def criticalSize : Metric → F
  | cpu | mem | disk => lit 95 1
  | cpuRate | memRate => lit 1 1

/-- The value of a metric as it is read from a row. -/
def value (db : Mysql F) (row : SqlRow F) (metric : Metric) : F :=
  db.readFloat (row.value metric.column)

/-- The metrics of a row that exceed their thresholds. -/
def exceeding (db : Mysql F) (thresholds : AnomalyThresholds F) (row : SqlRow F) : List Metric :=
  all.filter fun metric => metric.threshold thresholds < metric.size (metric.value db row)

end Metric

theorem map_filter_eq_flatMap {A B : Type*} (p : A → Bool) (f : A → B) (l : List A) :
    (l.filter p).map f = l.flatMap fun a => if p a then [f a] else [] := by
  induction l with
  | nil => rfl
  | cons a l ih =>
    rw [List.flatMap_cons, ← ih, List.filter_cons]
    split_ifs <;> rfl

/-- The record is about a metric of a row. -/
structure AnomalyRecord.Describes [CxxFloat F] (db : Mysql F) (thresholds : AnomalyThresholds F)
    (row : SqlRow F) (metric : Metric) (rec : AnomalyRecord F) : Prop where
  serverName : rec.serverName = row.serverName
  timestamp : rec.timestamp = db.parseTime row.timestamp
  anomalyType : rec.anomalyType = metric.anomalyType
  metricName : rec.metricName = metric.column
  value : rec.value = metric.value db row
  threshold : rec.threshold = metric.threshold thresholds
  severity : rec.severity = .critical ↔ metric.criticalSize < metric.size rec.value

section Records

variable [CxxFloat F] (db : Mysql F) (thresholds : AnomalyThresholds F) (now : ℤ) (row : SqlRow F)

/-- The record about a metric. -/
def anomalyOf (metric : Metric) : AnomalyRecord F :=
  addAnomaly row.serverName (db.parseTime row.timestamp) metric.anomalyType metric.column
    (metric.value db row) (metric.threshold thresholds)

theorem severity_anomalyType (metric : Metric) (x : F) :
    severity metric.anomalyType x =
      if metric.criticalSize < metric.size x then .critical else .warning := by
  by_cases hcritical : metric.criticalSize < metric.size x <;> rw [severity]
  all_goals cases metric <;>
    simp_all [Metric.anomalyType, Metric.criticalSize, Metric.size]

theorem describes_anomalyOf (metric : Metric) :
    (anomalyOf db thresholds row metric).Describes db thresholds row metric := by
  refine ⟨rfl, rfl, rfl, rfl, rfl, rfl, ?_⟩
  have hseverity := severity_anomalyType metric (metric.value db row)
  rw [anomalyOf, addAnomaly]
  simp only [hseverity]
  split_ifs with hcritical <;> simp [hcritical]

/-- The loop makes one record for each metric that exceeds its threshold. -/
theorem anomalies_eq : anomalies db thresholds now (row.fetch anomalyColumns) =
    (Metric.exceeding db thresholds row).map (anomalyOf db thresholds row) := by
  rw [Metric.exceeding, map_filter_eq_flatMap, Metric.all]
  simp only [List.flatMap_cons, List.flatMap_nil, List.append_nil, ← List.append_assoc,
    decide_eq_true_eq]
  rfl

theorem length_anomalies : (anomalies db thresholds now (row.fetch anomalyColumns)).length =
    (Metric.exceeding db thresholds row).length := by
  rw [anomalies_eq, List.length_map]

theorem describes_anomalies : List.Forall₂ (AnomalyRecord.Describes db thresholds row)
    (Metric.exceeding db thresholds row)
    (anomalies db thresholds now (row.fetch anomalyColumns)) := by
  rw [anomalies_eq, List.forall₂_map_right_iff, List.forall₂_same]
  exact fun metric _ => describes_anomalyOf db thresholds row metric

end Records

/-! ### The filter -/

section Filter

variable [CxxFloat F] (db : Mysql F) (number : List Char → ℚ) (serverName : String)
  (range : TimeRange) (thresholds : AnomalyThresholds F)

/-- The comparison of a metric with its threshold. -/
def metricCondition (metric : Metric) : Condition :=
  .greater metric.operand (CxxFloat.print (metric.threshold thresholds))

/-- The condition of `where_clause` about the thresholds. -/
def thresholdCondition : Condition :=
  (metricCondition thresholds .cpu).disjunction
    ([Metric.mem, .disk, .cpuRate, .memRate].map (metricCondition thresholds))

/-- The statement has the text of the condition. -/
theorem thresholdClause_eq : thresholdClause thresholds =
    " AND (".toList ++ ((thresholdCondition thresholds).text ++ ")".toList) := by
  unfold thresholdClause
  simp only [thresholdCondition, Condition.disjunction, List.map_cons,
    List.map_nil, List.foldl_cons, List.foldl_nil, metricCondition, Condition.text, Operand.text,
    Metric.operand, Metric.threshold, String.reduceToList, List.append_assoc, List.cons_append,
    List.nil_append]

/-- The statement selects the columns in their order. -/
theorem select_anomalyColumns :
    "SELECT server_name, timestamp, cpu_percent, mem_used_percent, ".toList ++
        "disk_util_percent, cpu_percent_rate, mem_used_percent_rate ".toList ++
        "FROM server_performance WHERE ".toList =
      "SELECT ".toList ++ columnsText anomalyColumns ++
        " FROM server_performance WHERE ".toList := by
  decide +kernel

/-- What a row holds in a `FLOAT` column. -/
def Mysql.floatColumn {F : Type} (db : Mysql F) (row : SqlRow F) (column : String) : Option ℚ :=
  (row.value column).map db.float

/-- The row lies in the time range. -/
def Mysql.Between {F : Type} (db : Mysql F) (range : TimeRange) (row : SqlRow F) : Prop :=
  db.localtime (range.startTime.tdiv 1000000000) ≤ row.timestamp ∧
    row.timestamp ≤ db.localtime (range.endTime.tdiv 1000000000)

instance {F : Type} (db : Mysql F) (row : SqlRow F) : Decidable (db.Between range row) :=
  inferInstanceAs (Decidable (_ ∧ _))

/-- The row is asked for: in the time range and, if there is a name, of the server. -/
def Mysql.InScope {F : Type} (db : Mysql F) (serverName : String) (range : TimeRange)
    (row : SqlRow F) : Prop :=
  db.Between range row ∧ (serverName ≠ "" → db.weight row.serverName = db.weight serverName)

/-- The truth value of `where_clause` for a row, when `number` reads the literals. -/
def whereTruth (row : SqlRow F) : Truth :=
  let between : Truth := some (decide (db.Between range row))
  let named := if serverName ≠ "" then
    between.and (some (decide (db.weight row.serverName = db.weight serverName))) else between
  named.and ((thresholdCondition thresholds).eval number (db.floatColumn row))

variable {db number serverName range thresholds} {row : SqlRow F}

theorem whereTruth_eq_true_iff : whereTruth db number serverName range thresholds row = some true ↔
    db.InScope serverName range row ∧
      (thresholdCondition thresholds).eval number (db.floatColumn row) = some true := by
  rw [whereTruth, Truth.and_eq_true, Mysql.InScope]
  refine and_congr_left fun _ => ?_
  split_ifs with hname
  · rw [Truth.and_eq_true]
    simp [hname]
  · simp [not_not.1 hname]

end Filter

/-! ### The filter and the loop -/

section Exact

variable {db : Mysql ℚ} {number : List Char → ℚ} {thresholds : AnomalyThresholds ℚ}
  {row : SqlRow ℚ}

/-- Without rounding, the loop reads what the statement compares, and 0 for `NULL`. -/
theorem getD_operand (hexact : ∀ x, db.atof x = x) (metric : Metric) :
    (metric.operand.value (db.floatColumn row)).getD 0 =
      metric.size (metric.value db row) := by
  have hread : db.readFloat (row.value metric.column) =
      (db.floatColumn row metric.column).getD 0 := by
    rw [Mysql.floatColumn]
    cases row.value metric.column with
    | none => rfl
    | some v => exact hexact _
  rw [Metric.value, hread]
  cases metric with
  | cpu | mem | disk => rfl
  | cpuRate | memRate =>
    rw [Metric.size, CxxFloat.abs_rat, Metric.operand, Operand.value, Metric.column]
    cases db.floatColumn row _ with
    | none => simp
    | some x => rfl

theorem metricCondition_eq_true_iff (hexact : ∀ x, db.atof x = x) {metric : Metric}
    (hrendered : number (CxxFloat.print (metric.threshold thresholds)) =
      metric.threshold thresholds) (hpos : 0 < metric.threshold thresholds) :
    (metricCondition thresholds metric).eval number (db.floatColumn row) = some true ↔
      metric.threshold thresholds < metric.size (metric.value db row) := by
  rw [metricCondition, SqlCondition.eval_greater_eq_true_iff_getD (hrendered.symm ▸ hpos.le),
    hrendered, getD_operand hexact]

theorem thresholdCondition_eq_true_iff (hexact : ∀ x, db.atof x = x)
    (hrendered : ∀ metric : Metric, number (CxxFloat.print (metric.threshold thresholds)) =
      metric.threshold thresholds) (hpos : ∀ metric : Metric, 0 < metric.threshold thresholds) :
    (thresholdCondition thresholds).eval number (db.floatColumn row) = some true ↔
      Metric.exceeding db thresholds row ≠ [] := by
  have hall : metricCondition thresholds .cpu ::
      [Metric.mem, .disk, .cpuRate, .memRate].map (metricCondition thresholds) =
      Metric.all.map (metricCondition thresholds) := rfl
  rw [thresholdCondition, SqlCondition.eval_disjunction_eq_true_iff, hall, Metric.exceeding,
    ← List.length_pos_iff, List.length_pos_iff_exists_mem]
  constructor
  · rintro ⟨_, hd, htrue⟩
    obtain ⟨metric, hmetric, rfl⟩ := List.mem_map.1 hd
    rw [metricCondition_eq_true_iff hexact (hrendered metric) (hpos metric)] at htrue
    exact ⟨metric, List.mem_filter.2 ⟨hmetric, decide_eq_true htrue⟩⟩
  · rintro ⟨metric, hmem⟩
    obtain ⟨hmetric, hexceeds⟩ := List.mem_filter.1 hmem
    refine ⟨_, List.mem_map_of_mem hmetric, ?_⟩
    rw [metricCondition_eq_true_iff hexact (hrendered metric) (hpos metric)]
    exact of_decide_eq_true hexceeds

theorem orDefaults_pos (request : AnomalyThresholds ℚ) (metric : Metric) :
    0 < metric.threshold request.orDefaults := by
  have hpos : ∀ requested default : ℚ, 0 < default → 0 < thresholdOr requested default := by
    intro requested default hdefault
    rw [thresholdOr]
    split_ifs with hrequested
    · exact hrequested
    · exact hdefault
  cases metric <;> exact hpos _ _ (by norm_num [lit])

end Exact

/-- **The filter and the loop agree.**  In exact arithmetic, with the thresholds that the service
sets and a text of the statement that denotes them: for every row, with any of its metrics `NULL`,
the `WHERE` clause is true if and only if the row is asked for and the loop makes a record of it.
The loop makes one record for each metric that exceeds its threshold, with the value, the threshold
and the severity of that metric. -/
theorem where_iff_anomalies (db : Mysql ℚ) (hexact : ∀ x, db.atof x = x) (number : List Char → ℚ)
    (request : AnomalyThresholds ℚ)
    (hrendered : ∀ metric : Metric, number (CxxFloat.print (metric.threshold request.orDefaults)) =
      metric.threshold request.orDefaults)
    (serverName : String) (range : TimeRange) (now : ℤ) (row : SqlRow ℚ) :
    let thresholds := request.orDefaults
    let records := anomalies db thresholds now (row.fetch anomalyColumns)
    (whereTruth db number serverName range thresholds row = some true ↔
        db.InScope serverName range row ∧ records ≠ []) ∧
      ((thresholdCondition thresholds).eval number (db.floatColumn row) = some true ↔
        records ≠ []) ∧
      List.Forall₂ (AnomalyRecord.Describes db thresholds row)
        (Metric.exceeding db thresholds row) records := by
  intro thresholds records
  have hcondition : (thresholdCondition thresholds).eval number (db.floatColumn row) = some true ↔
      records ≠ [] := by
    rw [thresholdCondition_eq_true_iff hexact hrendered (orDefaults_pos request),
      ← List.length_pos_iff, ← List.length_pos_iff, length_anomalies]
  exact ⟨whereTruth_eq_true_iff.trans (and_congr_right fun _ => hcondition), hcondition,
    describes_anomalies db thresholds now row⟩

/-- A row of the host `web` in the first minute of 1970 with two metrics; the others are `NULL`. -/
def twoMetrics (cpu mem : ℚ) : SqlRow ℚ where
  serverName := "web"
  timestamp := ⟨1970, 1, 1, 0, 0, 5⟩
  other column :=
    if column = "cpu_percent" then some (.float cpu)
    else if column = "mem_used_percent" then some (.float mem) else none

/-- The first minute of 1970. -/
def firstMinute : TimeRange := ⟨0, 59000000000⟩

/-- With the default thresholds, a row of which only the use of the CPU is too high. -/
theorem where_iff_anomalies_busy :
    whereTruth exactMysql DecimalText.fixedValue "" firstMinute
        (AnomalyThresholds.orDefaults ⟨0, 0, 0, 0⟩) (twoMetrics 97 50) = some true ∧
      (anomalies exactMysql (AnomalyThresholds.orDefaults ⟨0, 0, 0, 0⟩) 0
        ((twoMetrics 97 50).fetch anomalyColumns)).map (·.severity) = [.critical] := by
  have hboth := where_iff_anomalies exactMysql (fun _ => rfl) DecimalText.fixedValue ⟨0, 0, 0, 0⟩
    (by intro metric; cases metric <;> decide +kernel) "" firstMinute 0 (twoMetrics 97 50)
  exact ⟨hboth.1.2 ⟨⟨by decide +kernel, fun h => absurd rfl h⟩, by decide +kernel⟩,
    by decide +kernel⟩

end MonitorSystem
