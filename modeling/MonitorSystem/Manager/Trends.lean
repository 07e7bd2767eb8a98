import MonitorSystem.Library.Grouping
import MonitorSystem.Manager.PageQueries
import MonitorSystem.Manager.Timestamps

/-!
# Plain and aggregated trends

`QueryTrend` returns a record for each row of a server in a time range or, when it is given an
interval, a record of averages for each interval in which there are rows.  MySQL takes the averages;
the two statements select their columns in two separate lists, which one loop reads by position.

`trends_agree` says that the averages are those of the plain records.
-/

namespace MonitorSystem

open ClockText (Tm)
open Grouping
open Paging (Arrangement)
open QueryManager

namespace Trends

variable {F : Type}

/-! ### The statements -/

/-- The columns of the statement for the rows themselves. -/
def plainColumns : List String :=
  ["server_name", "timestamp", "cpu_percent", "usr_percent",
    "system_percent", "io_wait_percent", "load_avg_1", "load_avg_3",
    "load_avg_15", "mem_used_percent", "disk_util_percent", "send_rate",
    "rcv_rate", "score", "cpu_percent_rate", "mem_used_percent_rate",
    "disk_util_percent_rate", "load_avg_1_rate"]

/-- The columns of which the other statement takes averages. -/
def averagedColumns : List String :=
  ["cpu_percent",
    "usr_percent",
    "system_percent",
    "io_wait_percent",
    "load_avg_1",
    "load_avg_3",
    "load_avg_15",
    "mem_used_percent",
    "disk_util_percent",
    "send_rate",
    "rcv_rate",
    "score",
    "cpu_percent_rate",
    "mem_used_percent_rate",
    "disk_util_percent_rate",
    "load_avg_1_rate"]

/-- `AVG(column) as column`. -/
def averageText (column : String) : String := "AVG(" ++ column ++ ") as " ++ column

theorem plainSql_eq (localtime : ℤ → Tm) (serverName : String) (range : TimeRange) :
    plainSql localtime serverName range =
      .code ("SELECT ".toList ++ columnsText plainColumns ++
          " FROM server_performance WHERE server_name=".toList) ::
        serverAndRange localtime serverName range [.code " ORDER BY timestamp".toList] :=
  congrArg (fun text => SqlText.Segment.code text :: _) (by decide +kernel)

theorem aggregatedSql_eq (localtime : ℤ → Tm) (serverName : String) (range : TimeRange)
    (intervalSeconds : Int32) : aggregatedSql localtime serverName range intervalSeconds =
      .code ("SELECT server_name, FROM_UNIXTIME(FLOOR(UNIX_TIMESTAMP(timestamp) / ".toList ++
          intText intervalSeconds ++ ") * ".toList ++ intText intervalSeconds ++
          ") as time_bucket, ".toList ++ (columnsText (averagedColumns.map averageText) ++
          " FROM server_performance WHERE server_name=".toList)) ::
        serverAndRange localtime serverName range
          [.code " GROUP BY server_name, time_bucket ORDER BY time_bucket".toList] := by
  unfold aggregatedSql
  simp only [List.append_assoc, List.cons.injEq, SqlText.Segment.code.injEq,
    List.append_cancel_left_eq, and_true]
  decide +kernel

/-! ### What they are answered with -/

/-- The time zone of the session with MySQL.  `FROM_UNIXTIME` takes the seconds from 0 up to the
last one. -/
structure SessionZone where
  unixTimestamp : Tm → ℤ
  fromUnixtime : ℤ → Tm
  lastSecond : ℤ

section Answers

variable (db : Mysql F) (zone : SessionZone) (serverName : String) (range : TimeRange)
  (table : SqlTable F)

/-- What `plainSql` may be answered with. -/
def PlainAnswer (answer : Option (List (MysqlRow F))) : Prop :=
  ∃ l, Arrangement SqlRow.timestamp (matchingRows db serverName range table) l ∧
    answer = some (l.map (SqlRow.fetch plainColumns))

variable (intervalSeconds : Int32)

/-- `FLOOR(UNIX_TIMESTAMP(timestamp) / interval_seconds) * interval_seconds`. -/
def bucketOf (row : SqlRow F) : ℤ :=
  zone.unixTimestamp row.timestamp / intervalSeconds.toInt * intervalSeconds.toInt

/-- `server_name, time_bucket`, as `GROUP BY` compares them. -/
def groupKey (row : SqlRow F) : String × Tm :=
  (db.weight row.serverName, zone.fromUnixtime (bucketOf zone intervalSeconds row))

end Answers

section Averages

variable (db : Mysql ℚ) (zone : SessionZone) (serverName : String) (range : TimeRange)
  (table : SqlTable ℚ) (intervalSeconds : Int32)

/-- `AVG(column)`, which leaves out each `NULL`. -/
def average (column : String) (rows : List (SqlRow ℚ)) : Option (SqlValue ℚ) :=
  match rows.filterMap fun row => (row.value column).map db.float with
  | [] => none
  | values => some (.float (mean values))

/-- The row of a group. -/
def averagedRow (serverName : String) (timeBucket : Tm) (rows : List (SqlRow ℚ)) : MysqlRow ℚ
  | 0 => some (.name serverName)
  | 1 => some (.time timeBucket)
  | i + 2 => averagedColumns[i]?.bind fun column => average db column rows

/-- What `aggregatedSql` may be answered with: a row for each group, in the order of `time_bucket`,
with the name that any row of the group has. -/
def AggregatedAnswer (answer : Option (List (MysqlRow ℚ))) : Prop :=
  ∃ keys rows, Arrangement Prod.snd
      ((matchingRows db serverName range table).map (groupKey db zone intervalSeconds)).dedup keys ∧
    List.Forall₂ (fun key row => ∃ a ∈ matchingRows db serverName range table,
      groupKey db zone intervalSeconds a = key ∧
      row = averagedRow db a.serverName key.2
        (group (groupKey db zone intervalSeconds) (matchingRows db serverName range table) key))
      keys rows ∧
    answer = some rows

end Averages

/-! ### What is read from the answers -/

section Reading

variable [CxxFloat F] (db : Mysql F)

/-- A turn of the loop in `QueryTrend`: the record of a row, at the time `now`. -/
def trendRecord (now : ℤ) (row : MysqlRow F) : PerformanceRecord F where
  serverName := readName (row 0)
  timestamp := db.readTime now (row 1)
  cpuPercent := db.readFloat (row 2)
  usrPercent := db.readFloat (row 3)
  systemPercent := db.readFloat (row 4)
  ioWaitPercent := db.readFloat (row 5)
  loadAvg1 := db.readFloat (row 6)
  loadAvg3 := db.readFloat (row 7)
  loadAvg15 := db.readFloat (row 8)
  memUsedPercent := db.readFloat (row 9)
  diskUtilPercent := db.readFloat (row 10)
  sendRate := db.readFloat (row 11)
  rcvRate := db.readFloat (row 12)
  score := db.readFloat (row 13)
  cpuPercentRate := db.readFloat (row 14)
  memUsedPercentRate := db.readFloat (row 15)
  diskUtilPercentRate := db.readFloat (row 16)
  loadAvg1Rate := db.readFloat (row 17)

/-- What `QueryTrend` returns, when `answer` comes back; `none` stands for an error. -/
def queryTrendRecords (connected : Bool) (range : TimeRange) (now : ℤ)
    (answer : Option (List (MysqlRow F))) : List (PerformanceRecord F) :=
  if !connected then []
  else if !validateTimeRange range then []
  else (answer.getD []).map (trendRecord db now)

/-- The plain record of a row. -/
def plainRecord (row : SqlRow F) : PerformanceRecord F :=
  trendRecord db 0 (SqlRow.fetch plainColumns row)

end Reading

/-! ### What the averages should be -/

/-- `floor(timestamp / interval_seconds) * interval_seconds`, for the timestamp of a record in
seconds. -/
def bucketStart [CxxFloat F] (intervalSeconds : Int32) (rec : PerformanceRecord F) : ℤ :=
  rec.timestamp / 1000000000 / intervalSeconds.toInt * intervalSeconds.toInt

/-- The metric fields of a record. -/
def metrics : List (PerformanceRecord ℚ → ℚ) :=
  [(·.cpuPercent), (·.usrPercent), (·.systemPercent), (·.nicePercent), (·.idlePercent),
    (·.ioWaitPercent), (·.irqPercent), (·.softIrqPercent), (·.loadAvg1), (·.loadAvg3),
    (·.loadAvg15), (·.memUsedPercent), (·.memTotal), (·.memFree), (·.memAvail),
    (·.diskUtilPercent), (·.sendRate), (·.rcvRate), (·.score), (·.cpuPercentRate),
    (·.memUsedPercentRate), (·.diskUtilPercentRate), (·.loadAvg1Rate), (·.sendRateRate),
    (·.rcvRateRate)]

/-- The record of the averages of a group that begins at a second, with the name of one of its
records. -/
structure IsAverage (start : ℤ) (records : List (PerformanceRecord ℚ))
    (rec : PerformanceRecord ℚ) : Prop where
  timestamp : rec.timestamp = start * 1000000000
  serverName : rec.serverName ∈ records.map (·.serverName)
  metric : ∀ metric ∈ metrics, metric rec = mean (records.map metric)

/-- The averages of MySQL and their texts are exact. -/
structure ExactArithmetic (db : Mysql ℚ) : Prop where
  atof_eq : ∀ x, db.atof x = x
  float_eq : ∀ x, db.float (.float x) = x

/-- The conversions between local times and seconds are inverse to each other, where
`FROM_UNIXTIME` converts, and keep the order. -/
structure ConversionsInverse (db : Mysql F) (zone : SessionZone) : Prop where
  unixTimestamp_eq : ∀ s ∈ Set.Icc 0 zone.lastSecond,
    zone.unixTimestamp (zone.fromUnixtime s) = s
  parseTime_eq : ∀ s ∈ Set.Icc 0 zone.lastSecond,
    db.parseTime (zone.fromUnixtime s) = s * 1000000000
  strictMonoOn : StrictMonoOn zone.fromUnixtime (Set.Icc 0 zone.lastSecond)

/-- The timestamps in a table are the local times of seconds that are converted, and no column with
a number is `NULL`. -/
structure Convertible (zone : SessionZone) (table : SqlTable F) : Prop where
  timestamp : ∀ row ∈ table.rows, ∃ s ∈ Set.Icc 0 zone.lastSecond,
    row.timestamp = zone.fromUnixtime s
  value : ∀ row ∈ table.rows, ∀ column ∈ averagedColumns, row.value column ≠ none

/-! ### Buckets of rows -/

section Buckets

variable [CxxFloat F] {db : Mysql F} {zone : SessionZone} {serverName : String} {range : TimeRange}
  {table : SqlTable F} {intervalSeconds : Int32} {row row' : SqlRow F}

omit [CxxFloat F] in
theorem mem_matchingRows (h : row ∈ matchingRows db serverName range table) :
    row ∈ table.rows ∧ db.weight row.serverName = db.weight serverName := by
  rw [matchingRows] at h
  split_ifs at h
  · obtain ⟨hrow, hmatches⟩ := List.mem_filter.1 h
    exact ⟨hrow, (of_decide_eq_true hmatches).1⟩
  · exact absurd h List.not_mem_nil

omit [CxxFloat F] in
/-- A bucket begins no later than what lies in it. -/
theorem bucketOf_mem (hinverse : ConversionsInverse db zone) (htable : Convertible zone table)
    (hinterval : 0 < intervalSeconds.toInt) (hrow : row ∈ table.rows) :
    bucketOf zone intervalSeconds row ∈ Set.Icc 0 zone.lastSecond := by
  obtain ⟨s, hs, htime⟩ := htable.timestamp row hrow
  rw [bucketOf, htime, hinverse.unixTimestamp_eq s hs]
  have hquotient : 0 ≤ s / intervalSeconds.toInt := Int.ediv_nonneg hs.1 hinterval.le
  exact ⟨mul_nonneg hquotient hinterval.le,
    (Int.ediv_mul_le s hinterval.ne').trans hs.2⟩

/-- The bucket of a row is that of its plain record. -/
theorem bucketStart_plainRecord (hinverse : ConversionsInverse db zone)
    (htable : Convertible zone table) (hrow : row ∈ table.rows) :
    bucketStart intervalSeconds (plainRecord db row) = bucketOf zone intervalSeconds row := by
  obtain ⟨s, hs, htime⟩ := htable.timestamp row hrow
  have hplain : (plainRecord db row).timestamp = db.parseTime row.timestamp := rfl
  rw [bucketStart, hplain, bucketOf, htime, hinverse.parseTime_eq s hs,
    hinverse.unixTimestamp_eq s hs, Int.mul_ediv_cancel s (by decide)]

omit [CxxFloat F] in
/-- The rows that are selected lie in one group if and only if they lie in one bucket. -/
theorem groupKey_eq_iff (hinverse : ConversionsInverse db zone) (htable : Convertible zone table)
    (hinterval : 0 < intervalSeconds.toInt) (hrow : row ∈ matchingRows db serverName range table)
    (hrow' : row' ∈ matchingRows db serverName range table) :
    groupKey db zone intervalSeconds row = groupKey db zone intervalSeconds row' ↔
      bucketOf zone intervalSeconds row = bucketOf zone intervalSeconds row' := by
  obtain ⟨hmem, hname⟩ := mem_matchingRows hrow
  obtain ⟨hmem', hname'⟩ := mem_matchingRows hrow'
  have hbucket := bucketOf_mem hinverse htable hinterval hmem
  have hbucket' := bucketOf_mem hinverse htable hinterval hmem'
  rw [groupKey, groupKey, Prod.mk.injEq, hname, hname', and_iff_right rfl]
  exact hinverse.strictMonoOn.injOn.eq_iff hbucket hbucket'

end Buckets

/-! ### The keys of the groups -/

section Keys

variable {db : Mysql ℚ} {zone : SessionZone} {serverName : String} {range : TimeRange}
  {table : SqlTable ℚ} {intervalSeconds : Int32} {keys : List (String × Tm)} {l : List (SqlRow ℚ)}

/-- The second at which the bucket of a group begins. -/
def startOf (zone : SessionZone) (key : String × Tm) : ℤ := zone.unixTimestamp key.2

theorem startOf_groupKey (hinverse : ConversionsInverse db zone) (htable : Convertible zone table)
    (hinterval : 0 < intervalSeconds.toInt) {row : SqlRow ℚ} (hrow : row ∈ table.rows) :
    startOf zone (groupKey db zone intervalSeconds row) = bucketOf zone intervalSeconds row :=
  hinverse.unixTimestamp_eq _ (bucketOf_mem hinverse htable hinterval hrow)

/-- The groups of the rows, in the order of `time_bucket`, begin at the buckets of the plain
records. -/
theorem isKeys_map_startOf (hinverse : ConversionsInverse db zone) (htable : Convertible zone table)
    (hinterval : 0 < intervalSeconds.toInt)
    (hl : l.Perm (matchingRows db serverName range table))
    (hkeys : Arrangement Prod.snd ((matchingRows db serverName range table).map
      (groupKey db zone intervalSeconds)).dedup keys) :
    IsKeys (bucketStart intervalSeconds) (l.map (plainRecord db)) (keys.map (startOf zone)) := by
  have hmem : ∀ key, key ∈ keys ↔ ∃ row ∈ matchingRows db serverName range table,
      groupKey db zone intervalSeconds row = key := fun key => by
    rw [hkeys.perm.mem_iff, List.mem_dedup, List.mem_map]
  have hnodup : keys.Nodup := hkeys.perm.nodup_iff.2 (List.nodup_dedup _)
  constructor
  · rw [List.pairwise_map]
    refine (hkeys.sorted.and hnodup).imp_of_mem fun {key key'} hkey hkey' ⟨hle, hne⟩ => ?_
    obtain ⟨row, hrow, rfl⟩ := (hmem key).1 hkey
    obtain ⟨row', hrow', rfl⟩ := (hmem key').1 hkey'
    have hbucket := bucketOf_mem hinverse htable hinterval (mem_matchingRows hrow).1
    have hbucket' := bucketOf_mem hinverse htable hinterval (mem_matchingRows hrow').1
    rw [startOf_groupKey hinverse htable hinterval (mem_matchingRows hrow).1,
      startOf_groupKey hinverse htable hinterval (mem_matchingRows hrow').1]
    have hle' : bucketOf zone intervalSeconds row ≤ bucketOf zone intervalSeconds row' :=
      (hinverse.strictMonoOn.le_iff_le hbucket hbucket').1 hle
    exact hle'.lt_of_ne (mt (groupKey_eq_iff hinverse htable hinterval hrow hrow').2 hne)
  · intro start
    simp only [List.mem_map, hmem, exists_exists_and_eq_and, hl.mem_iff]
    refine exists_congr fun row => and_congr_right fun hrow => ?_
    rw [startOf_groupKey hinverse htable hinterval (mem_matchingRows hrow).1,
      bucketStart_plainRecord hinverse htable (mem_matchingRows hrow).1]

/-- The plain records of a bucket are those of the rows of the group. -/
theorem group_plainRecord_perm (hinverse : ConversionsInverse db zone)
    (htable : Convertible zone table) (hinterval : 0 < intervalSeconds.toInt)
    (hl : l.Perm (matchingRows db serverName range table)) {row : SqlRow ℚ}
    (hrow : row ∈ matchingRows db serverName range table) :
    (group (bucketStart intervalSeconds) (l.map (plainRecord db))
      (bucketOf zone intervalSeconds row)).Perm
      ((group (groupKey db zone intervalSeconds) (matchingRows db serverName range table)
        (groupKey db zone intervalSeconds row)).map (plainRecord db)) := by
  rw [group_map]
  refine ((group_perm hl _).map _).trans (List.Perm.of_eq (congrArg _ ?_))
  refine List.filter_congr fun row' hrow' => ?_
  refine decide_eq_decide.2 ?_
  dsimp only
  rw [bucketStart_plainRecord hinverse htable (mem_matchingRows hrow').1]
  exact (groupKey_eq_iff hinverse htable hinterval hrow' hrow).symm

end Keys

/-! ### The averages -/

section Averages

variable {db : Mysql ℚ} {zone : SessionZone} {serverName : String} {range : TimeRange}
  {table : SqlTable ℚ} {intervalSeconds : Int32} {l : List (SqlRow ℚ)}

/-- A field is read from a position behind the first two, or not at all. -/
def ReadFrom (db : Mysql ℚ) (metric : PerformanceRecord ℚ → ℚ) : Prop :=
  (∃ i < averagedColumns.length, ∀ now row,
    metric (trendRecord db now row) = db.readFloat (row (i + 2))) ∨
  ∀ now row, metric (trendRecord db now row) = 0

theorem readFrom_of_mem_metrics (db : Mysql ℚ) : ∀ metric ∈ metrics, ReadFrom db metric := by
  have hat {metric : PerformanceRecord ℚ → ℚ} (i : ℕ) (hi : i < averagedColumns.length)
      (hread : ∀ now row, metric (trendRecord db now row) = db.readFloat (row (i + 2))) :
      ReadFrom db metric := .inl ⟨i, hi, hread⟩
  simp only [metrics, List.forall_mem_cons, List.not_mem_nil, false_imp_iff, implies_true, and_true]
  refine ⟨hat 0 (by decide) fun _ _ => rfl, hat 1 (by decide) fun _ _ => rfl,
    hat 2 (by decide) fun _ _ => rfl, .inr fun _ _ => rfl, .inr fun _ _ => rfl,
    hat 3 (by decide) fun _ _ => rfl, .inr fun _ _ => rfl, .inr fun _ _ => rfl,
    hat 4 (by decide) fun _ _ => rfl, hat 5 (by decide) fun _ _ => rfl,
    hat 6 (by decide) fun _ _ => rfl, hat 7 (by decide) fun _ _ => rfl, .inr fun _ _ => rfl,
    .inr fun _ _ => rfl, .inr fun _ _ => rfl, hat 8 (by decide) fun _ _ => rfl,
    hat 9 (by decide) fun _ _ => rfl, hat 10 (by decide) fun _ _ => rfl,
    hat 11 (by decide) fun _ _ => rfl, hat 12 (by decide) fun _ _ => rfl,
    hat 13 (by decide) fun _ _ => rfl, hat 14 (by decide) fun _ _ => rfl,
    hat 15 (by decide) fun _ _ => rfl, .inr fun _ _ => rfl, .inr fun _ _ => rfl⟩

/-- Behind the first two, the two lists have the same columns at the same positions. -/
theorem fetch_plainColumns (row : SqlRow ℚ) (i : ℕ) :
    SqlRow.fetch plainColumns row (i + 2) = averagedColumns[i]?.bind row.value :=
  rfl

/-- Without a `NULL`, the average of a column is read as the mean of what is read of the rows. -/
theorem readFloat_average (hexact : ExactArithmetic db) {column : String} {rows : List (SqlRow ℚ)}
    (hrows : rows ≠ []) (hvalue : ∀ row ∈ rows, row.value column ≠ none) :
    db.readFloat (average db column rows) =
      mean (rows.map fun row => db.readFloat (row.value column)) := by
  have hread : ∀ v, db.readFloat (some v) = db.float v := fun v => hexact.atof_eq _
  have hvalues : (rows.filterMap fun row => (row.value column).map db.float) =
      rows.map fun row => db.readFloat (row.value column) := by
    rw [← List.filterMap_eq_map]
    refine List.filterMap_congr fun row hrow => ?_
    obtain ⟨v, hv⟩ := Option.ne_none_iff_exists'.1 (hvalue row hrow)
    simp [hv, hread]
  unfold average
  rw [hvalues]
  split
  next hnil => exact absurd (List.map_eq_nil_iff.1 hnil) hrows
  next => rw [hread, hexact.float_eq]

/-- The record of a group is the average of the plain records of its bucket. -/
theorem isAverage_trendRecord (hexact : ExactArithmetic db) (hinverse : ConversionsInverse db zone)
    (htable : Convertible zone table) (hinterval : 0 < intervalSeconds.toInt)
    (hl : l.Perm (matchingRows db serverName range table)) {row : SqlRow ℚ}
    (hrow : row ∈ matchingRows db serverName range table) (now : ℤ) :
    IsAverage (bucketOf zone intervalSeconds row)
      (group (bucketStart intervalSeconds) (l.map (plainRecord db))
        (bucketOf zone intervalSeconds row))
      (trendRecord db now (averagedRow db row.serverName
        (groupKey db zone intervalSeconds row).2
        (group (groupKey db zone intervalSeconds) (matchingRows db serverName range table)
          (groupKey db zone intervalSeconds row)))) := by
  have hmem := (mem_matchingRows hrow).1
  have hperm := group_plainRecord_perm hinverse htable hinterval hl hrow
  have hself : row ∈ group (groupKey db zone intervalSeconds)
      (matchingRows db serverName range table) (groupKey db zone intervalSeconds row) :=
    mem_group.2 ⟨hrow, rfl⟩
  refine ⟨?_, ?_, fun metric hmetric => ?_⟩
  · exact hinverse.parseTime_eq _ (bucketOf_mem hinverse htable hinterval hmem)
  · rw [(hperm.map _).mem_iff, List.map_map]
    exact List.mem_map.2 ⟨row, hself, rfl⟩
  · rw [mean_perm (hperm.map metric), List.map_map]
    rcases readFrom_of_mem_metrics db metric hmetric with ⟨i, hi, hread⟩ | hzero
    · obtain ⟨column, hcolumn⟩ : ∃ column, averagedColumns[i]? = some column :=
        ⟨_, List.getElem?_eq_getElem hi⟩
      have hplain : ∀ row : SqlRow ℚ, (metric ∘ plainRecord db) row =
          db.readFloat (row.value column) := fun row => by
        rw [Function.comp_apply, plainRecord, hread, fetch_plainColumns, hcolumn]
        rfl
      rw [hread, averagedRow, hcolumn, Option.bind_some,
        List.map_congr_left fun row _ => hplain row]
      refine readFloat_average hexact (List.ne_nil_of_mem hself) fun row' hrow' => ?_
      exact htable.value row' (mem_matchingRows (mem_group.1 hrow').1).1 column
        (List.mem_of_getElem? hcolumn)
    · rw [hzero]
      exact (mean_map_zero fun row' _ => hzero 0 _).symm

end Averages

/-! ### The two trends -/

section Trends

variable {db : Mysql ℚ} {zone : SessionZone} {serverName : String} {range : TimeRange}
  {table : SqlTable ℚ} {intervalSeconds : Int32} {answer : Option (List (MysqlRow ℚ))}

theorem matchingRows_of_reversed (hrange : validateTimeRange range = false) :
    matchingRows db serverName range table = [] := by
  rw [matchingRows, hrange]
  rfl

/-- For a reversed range nothing is read, as nothing is asked. -/
theorem queryTrendRecords_eq (now : ℤ) (hnil : validateTimeRange range = false → answer = some []) :
    queryTrendRecords db true range now answer = (answer.getD []).map (trendRecord db now) := by
  cases hrange : validateTimeRange range with
  | true => simp [queryTrendRecords, hrange]
  | false => simp [queryTrendRecords, hrange, hnil hrange]

/-- The plain records are those of the matching rows, in the order of an answer. -/
theorem queryTrendRecords_of_plainAnswer (now : ℤ)
    (hanswer : PlainAnswer db serverName range table answer) :
    ∃ l : List (SqlRow ℚ), l.Perm (matchingRows db serverName range table) ∧
      queryTrendRecords db true range now answer = l.map (plainRecord db) := by
  obtain ⟨l, hl, rfl⟩ := hanswer
  refine ⟨l, hl.perm, ?_⟩
  rw [queryTrendRecords_eq, Option.getD_some, List.map_map]
  · rfl
  · intro hrange
    have hperm := hl.perm
    rw [matchingRows_of_reversed hrange] at hperm
    rw [hperm.eq_nil, List.map_nil]

/-- **Plain and aggregated trends.**  For every content of the table, every server, time range and
interval: the records of the trend for the interval are the averages of the plain records, grouped
by the interval in which they lie, one for each group in the order of the intervals; and each
matching row lies in one of the groups, and in one only. -/
theorem trends_agree (intervalSeconds : Int32) (hinterval : 0 < intervalSeconds)
    (hexact : ExactArithmetic db) (hinverse : ConversionsInverse db zone)
    (htable : Convertible zone table) {plainAnswer averageAnswer : Option (List (MysqlRow ℚ))}
    (hplain : PlainAnswer db serverName range table plainAnswer)
    (haverage : AggregatedAnswer db zone serverName range table intervalSeconds averageAnswer)
    (now now' : ℤ) :
    GroupedInto (bucketStart intervalSeconds) IsAverage
        (queryTrendRecords db true range now plainAnswer)
        (queryTrendRecords db true range now' averageAnswer) ∧
      ∀ starts, IsKeys (bucketStart intervalSeconds)
          (queryTrendRecords db true range now plainAnswer) starts →
        (starts.flatMap (group (bucketStart intervalSeconds)
          (queryTrendRecords db true range now plainAnswer))).Perm
          ((matchingRows db serverName range table).map (plainRecord db)) := by
  have hpos : 0 < intervalSeconds.toInt := by
    rwa [Int32.lt_iff_toInt_lt, Int32.toInt_zero] at hinterval
  obtain ⟨l, hl, hrecords⟩ := queryTrendRecords_of_plainAnswer now hplain
  rw [hrecords]
  refine ⟨?_, fun starts hstarts => hstarts.flatMap_perm.trans (hl.map _)⟩
  obtain ⟨keys, rows, hkeys, hrows, rfl⟩ := haverage
  refine ⟨_, isKeys_map_startOf hinverse htable hpos hl hkeys, ?_⟩
  rw [queryTrendRecords_eq, Option.getD_some, List.forall₂_map_left_iff,
    List.forall₂_map_right_iff]
  · refine hrows.imp fun {key row} ⟨a, ha, hkey, hrow⟩ => ?_
    rw [hrow, ← hkey, startOf_groupKey hinverse htable hpos (mem_matchingRows ha).1]
    exact isAverage_trendRecord hexact hinverse htable hpos hl ha now'
  · intro hrange
    rw [matchingRows_of_reversed hrange] at hkeys
    rw [hkeys.perm.eq_nil, List.forall₂_nil_left_iff] at hrows
    rw [hrows]

end Trends

/-! ### Zones without daylight saving time -/

section FixedOffset

variable (c : ℤ) (hc : -172800 < c ∧ c < 172800)

/-- The C library in a zone that is always `c` seconds ahead of UTC. -/
def fixedZone : Zone where
  offset _ := c
  isDst _ := false
  standard _ := c
  offset_mem _ := hc
  standard_mem _ := hc
  standard_eq _ _ _ := rfl

/-- A session in the same zone, up to the end of the year 9999. -/
def fixedSession : SessionZone where
  unixTimestamp t := CivilCalendar.seconds t - c
  fromUnixtime s := CivilCalendar.ofSeconds (s + c)
  lastSecond := 253402300799 - c

/-- In such a zone the conversions are inverse to each other. -/
theorem conversionsInverse_fixed (db : Mysql F) :
    ConversionsInverse ((fixedZone c hc).mysql db) (fixedSession c) where
  unixTimestamp_eq s _ := by
    show CivilCalendar.seconds (CivilCalendar.ofSeconds (s + c)) - c = s
    rw [CivilCalendar.seconds_ofSeconds]
    omega
  parseTime_eq s hs := by
    have hlast : s ≤ 253402300799 - c := hs.2
    have hyear : ((fixedZone c hc).localtime s).year ≤ 9999 := by
      refine CivilCalendar.year_ofSeconds_le_iff.2 ?_
      show s + c < CivilCalendar.yearStart (9999 + 1) * 86400
      have hstart : CivilCalendar.yearStart (9999 + 1) = 2932897 := by decide
      omega
    have hread : (fixedZone c hc).mktime (ClockText.getTime ClockText.clockFormat zeroTm
        (ClockText.strftime ((fixedZone c hc).localtime s))) = s + (c - c) :=
      Zone.mktime_getTime hs.1 hyear
    rw [sub_self, add_zero] at hread
    exact congrArg (· * 1000000000) hread
  strictMonoOn s _ s' _ h :=
    CivilCalendar.ofSeconds_strictMono (show s + c < s' + c by omega)

end FixedOffset

/-- A row of the host `web` with one value in all its columns. -/
def rowAt (s : ℤ) (x : ℚ) : SqlRow ℚ where
  serverName := "web"
  timestamp := CivilCalendar.ofSeconds s
  other _ := some (.float x)

/-- Two rows of the first minute of 1970, and the first one of the second minute. -/
def threeRows : SqlTable ℚ := ⟨[rowAt 10 1, rowAt 59 3, rowAt 60 5], by decide⟩

/-- MySQL at Greenwich. -/
def greenwich : Mysql ℚ := (fixedZone 0 (by decide)).mysql exactMysql

/-- The averages over a minute. -/
def minuteAverages : List (MysqlRow ℚ) :=
  [averagedRow greenwich "web" (CivilCalendar.ofSeconds 0) [rowAt 10 1, rowAt 59 3],
    averagedRow greenwich "web" (CivilCalendar.ofSeconds 60) [rowAt 60 5]]

theorem trends_agree_minutes :
    GroupedInto (bucketStart 60) IsAverage
      (queryTrendRecords greenwich true ⟨0, 60000000000⟩ 0
        (some (threeRows.rows.map (SqlRow.fetch plainColumns))))
      (queryTrendRecords greenwich true ⟨0, 60000000000⟩ 0 (some minuteAverages)) := by
  have hrows : matchingRows greenwich "web" ⟨0, 60000000000⟩ threeRows = threeRows.rows := by
    rw [matchingRows, if_pos (by decide)]
    refine List.filter_eq_self.2 ?_
    decide +kernel
  have hkeys : (threeRows.rows.map (groupKey greenwich (fixedSession 0) 60)).dedup =
      [("web", CivilCalendar.ofSeconds 0), ("web", CivilCalendar.ofSeconds 60)] := by
    decide +kernel
  have htable : Convertible (fixedSession 0) threeRows := by
    constructor
    · simp only [threeRows, List.forall_mem_cons]
      exact ⟨⟨10, by decide, rfl⟩, ⟨59, by decide, rfl⟩, ⟨60, by decide, rfl⟩, by simp⟩
    · decide +kernel
  have hplain : PlainAnswer greenwich "web" ⟨0, 60000000000⟩ threeRows
      (some (threeRows.rows.map (SqlRow.fetch plainColumns))) :=
    ⟨threeRows.rows, ⟨by rw [hrows], by decide +kernel⟩, rfl⟩
  have haverage : AggregatedAnswer greenwich (fixedSession 0) "web" ⟨0, 60000000000⟩ threeRows 60
      (some minuteAverages) := by
    refine ⟨_, _, ⟨by rw [hrows, hkeys], by decide +kernel⟩, ?_, rfl⟩
    rw [hrows]
    exact .cons ⟨rowAt 10 1, List.mem_cons_self, by decide +kernel, rfl⟩
      (.cons ⟨rowAt 60 5, by simp [threeRows], by decide +kernel, rfl⟩ .nil)
  exact (trends_agree 60 (by decide) ⟨fun _ => rfl, fun _ => rfl⟩
    (conversionsInverse_fixed 0 (by decide) exactMysql) htable hplain haverage 0 0).1

end Trends

end MonitorSystem
