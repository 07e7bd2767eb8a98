import MonitorSystem.Manager.Anomalies

/-!
# Pages of anomalies

`LIMIT`, `OFFSET` and `COUNT` are about rows, but `QueryAnomaly` returns a record for every
threshold that a row exceeds.  `anomaly_pages_count_iff` says when the numbers fit together all the
same.
-/

namespace MonitorSystem

open Paging (Arrangement pageCount)
open QueryManager

variable {F : Type}

/-! ### The query -/

/-- What is asked for, but for the page. -/
structure AnomalyQuery (F : Type) where
  serverName : String
  range : TimeRange
  thresholds : AnomalyThresholds F

section Pages

variable [CxxFloat F] (db : Mysql F) (number : List Char → ℚ) (table : SqlTable F)
  (query : AnomalyQuery F)

/-- The rows of `server_performance` that are selected; a reversed range has none. -/
def anomalyRows : List (SqlRow F) :=
  if validateTimeRange query.range then
    table.rows.filter fun row =>
      whereTruth db number query.serverName query.range query.thresholds row == some true
  else []

/-- What the statement for one page may be answered with. -/
def AnomalyAnswer (page pageSize : Int32) (answer : Option (List (MysqlRow F))) : Prop :=
  ∃ l, Arrangement (fun row => OrderDual.toDual row.timestamp)
      (anomalyRows db number table query) l ∧
    answer = (limitOffset page pageSize l).map (·.map (SqlRow.fetch anomalyColumns))

/-- `total_count` of `QueryAnomaly`. -/
def anomalyTotal : Int32 := getTotalCount (anomalyRows db number table query).length

/-- The number of pages, by the count that is reported with each of them. -/
def anomalyPages (pageSize : Int32) : ℕ :=
  pageCount (normalizePageSize pageSize).toInt.toNat
    (anomalyTotal db number table query).toInt.toNat

/-- Paging counts anomalies: no page has more records than its size, and all pages together, each
asked for at a time of its own and answered on its own, have as many as are reported. -/
structure CountsAnomalies (pageSize : Int32) : Prop where
  page_le : ∀ (page : Int32) (now : ℤ) (answer : Option (List (MysqlRow F))),
    AnomalyAnswer db number table query (normalizePage page) (normalizePageSize pageSize) answer →
    (queryAnomalyRecords db query.thresholds true query.range now answer).length ≤
      (normalizePageSize pageSize).toInt
  total_eq : ∀ (now : ℕ → ℤ) (answers : ℕ → Option (List (MysqlRow F))),
    (∀ p < anomalyPages db number table query pageSize,
      AnomalyAnswer db number table query (normalizePage (Int32.ofNat (p + 1)))
        (normalizePageSize pageSize) (answers p)) →
    ((List.range (anomalyPages db number table query pageSize)).flatMap
        fun p => queryAnomalyRecords db query.thresholds true query.range (now p)
          (answers p)).length =
      (anomalyTotal db number table query).toInt

/-- Every row that is selected exceeds exactly one threshold. -/
def OneThresholdEach : Prop :=
  ∀ row ∈ anomalyRows db number table query, (Metric.exceeding db query.thresholds row).length = 1

/-! ### The records of pages -/

variable {db number table query} {pageSize : Int32}

theorem length_anomalyRows_lt : (anomalyRows db number table query).length < 2 ^ 31 := by
  rw [anomalyRows]
  split_ifs
  · exact (List.length_filter_le _ _).trans_lt table.length_lt
  · exact Nat.two_pow_pos 31

theorem toInt_anomalyTotal : (anomalyTotal db number table query).toInt =
    (anomalyRows db number table query).length :=
  toInt_getTotalCount length_anomalyRows_lt

theorem anomalyPages_eq : anomalyPages db number table query pageSize =
    pageCount (normalizePageSize pageSize).toInt.toNat
      (anomalyRows db number table query).length := by
  rw [anomalyPages, toInt_anomalyTotal, Int.toNat_natCast]

/-- The records of an answer; for a reversed range there are none, as there are no rows. -/
theorem queryAnomalyRecords_eq {page size : Int32} {now : ℤ} {answer : Option (List (MysqlRow F))}
    (hanswer : AnomalyAnswer db number table query page size answer) :
    queryAnomalyRecords db query.thresholds true query.range now answer =
      (answer.getD []).flatMap (anomalies db query.thresholds now) := by
  rw [queryAnomalyRecords, if_neg (by simp)]
  split_ifs with hinvalid
  · obtain ⟨l, hl, rfl⟩ := hanswer
    have hvalid : validateTimeRange query.range = false := by simpa using hinvalid
    have hrows : anomalyRows db number table query = [] := by
      rw [anomalyRows, hvalid]
      rfl
    have hnil : l = [] := by
      rw [hrows] at hl
      exact hl.perm.eq_nil
    rw [hnil, limitOffset]
    split_ifs <;> simp
  · rfl

/-- Rows yield as many records as they exceed thresholds. -/
theorem length_flatMap_anomalies (now : ℤ) (l : List (SqlRow F)) :
    ((l.map (SqlRow.fetch anomalyColumns)).flatMap (anomalies db query.thresholds now)).length =
      (l.flatMap (Metric.exceeding db query.thresholds)).length := by
  rw [List.length_flatMap, List.length_flatMap, List.map_map]
  refine congrArg List.sum (List.map_congr_left fun row _ => ?_)
  exact length_anomalies db query.thresholds now row

/-- The records of all pages together. -/
theorem length_allRecords {now : ℕ → ℤ} {answers : ℕ → Option (List (MysqlRow F))}
    {choice : ℕ → List (SqlRow F)}
    (hchoice : ∀ p < anomalyPages db number table query pageSize,
      Arrangement (fun row => OrderDual.toDual row.timestamp) (anomalyRows db number table query)
        (choice p))
    (hcut : CutFrom anomalyColumns (anomalyRows db number table query).length pageSize choice
      answers) :
    ((List.range (anomalyPages db number table query pageSize)).flatMap
        fun p => queryAnomalyRecords db query.thresholds true query.range (now p)
          (answers p)).length =
      ((Paging.pages (normalizePageSize pageSize).toInt.toNat
          (anomalyPages db number table query pageSize) choice).flatMap
        (Metric.exceeding db query.thresholds)).length := by
  rw [List.length_flatMap, Paging.pages, List.flatMap_assoc, List.length_flatMap]
  refine congrArg List.sum (List.map_congr_left fun p hp => ?_)
  have hp := List.mem_range.1 hp
  have hpage := hp
  rw [anomalyPages_eq] at hpage
  rw [queryAnomalyRecords_eq ⟨choice p, hchoice p hp, hcut p hpage⟩,
    hcut.getD length_anomalyRows_lt hpage, length_flatMap_anomalies]

/-! ### One record for each row -/

/-- When every row exceeds one threshold, paging counts anomalies. -/
theorem countsAnomalies_of_one (hone : OneThresholdEach db number table query) :
    CountsAnomalies db number table query pageSize where
  page_le page now answer hanswer := by
    rw [queryAnomalyRecords_eq hanswer]
    obtain ⟨l, hl, rfl⟩ := hanswer
    have hsize := one_le_normalizePageSize pageSize
    cases hcut : limitOffset (normalizePage page) (normalizePageSize pageSize) l with
    | none =>
      simp only [Option.map_none, Option.getD_none, List.flatMap_nil, List.length_nil]
      omega
    | some m =>
      obtain ⟨hsub, hlength⟩ := subset_of_limitOffset hcut
      have hrows : ∀ row ∈ m, (Metric.exceeding db query.thresholds row).length = 1 :=
        fun row hrow => hone row (hl.perm.subset (hsub hrow))
      rw [Option.map_some, Option.getD_some, length_flatMap_anomalies,
        Paging.length_flatMap_of_one hrows]
      omega
  total_eq now answers hanswers := by
    choose! choice hchoice hanswer using hanswers
    have hcut : CutFrom anomalyColumns (anomalyRows db number table query).length pageSize choice
        answers := fun p hp => hanswer p (by rwa [anomalyPages_eq])
    have hrows : ∀ row ∈ Paging.pages (normalizePageSize pageSize).toInt.toNat
        (anomalyPages db number table query pageSize) choice,
        (Metric.exceeding db query.thresholds row).length = 1 := by
      intro row hrow
      obtain ⟨p, hp, hrow⟩ := Paging.exists_mem_of_mem_pages hrow
      exact hone row ((hchoice p hp).perm.subset hrow)
    have hsize := one_le_normalizePageSize pageSize
    rw [length_allRecords hchoice hcut, Paging.length_flatMap_of_one hrows, toInt_anomalyTotal]
    rw [anomalyPages_eq] at hchoice ⊢
    rw [Paging.length_pages (by omega) fun p hp => (hchoice p hp).perm.length_eq]

/-- The pages of one order of the rows show every row once. -/
theorem length_flatMap_exceeding (hcounts : CountsAnomalies db number table query pageSize) :
    ((anomalyRows db number table query).flatMap (Metric.exceeding db query.thresholds)).length =
      (anomalyRows db number table query).length := by
  obtain ⟨l, hl⟩ := Paging.exists_arrangement (fun row => OrderDual.toDual row.timestamp)
    (anomalyRows db number table query)
  have hsize := one_le_normalizePageSize pageSize
  have hlength := hl.perm.length_eq
  have htotal := hcounts.total_eq (fun _ => 0) (cut anomalyColumns pageSize fun _ => l)
    fun p _ => ⟨l, hl, rfl⟩
  rw [length_allRecords (fun _ _ => hl) cutFrom_cut, toInt_anomalyTotal, anomalyPages_eq, ← hlength,
    Paging.pages_const (by omega)] at htotal
  rw [← (hl.perm.flatMap_right _).length_eq, ← hlength]
  exact_mod_cast htotal

/-- On pages of one row each, no row exceeds two thresholds. -/
theorem length_exceeding_le (hcounts : CountsAnomalies db number table query 1) :
    ∀ row ∈ anomalyRows db number table query,
      (Metric.exceeding db query.thresholds row).length ≤ 1 := by
  intro row hrow
  obtain ⟨l, hl⟩ := Paging.exists_arrangement (fun row => OrderDual.toDual row.timestamp)
    (anomalyRows db number table query)
  obtain ⟨p, hp, rfl⟩ := List.mem_iff_getElem.1 (hl.perm.mem_iff.2 hrow)
  have hlength := hl.perm.length_eq
  have hpage : p < pageCount (normalizePageSize 1).toInt.toNat
      (anomalyRows db number table query).length := by
    refine Paging.lt_pageCount (by decide) ?_
    rw [← hlength]
    exact (mul_one p).trans_lt hp
  have hanswer : AnomalyAnswer db number table query (normalizePage (Int32.ofNat (p + 1)))
      (normalizePageSize 1) (cut anomalyColumns 1 (fun _ => l) p) := ⟨l, hl, rfl⟩
  have hle := hcounts.page_le (Int32.ofNat (p + 1)) 0 _ hanswer
  have hone : Paging.page (normalizePageSize 1).toInt.toNat p l = [l[p]] := by
    show (l.drop (p * 1)).take 1 = [l[p]]
    rw [mul_one, List.drop_eq_getElem_cons hp, List.take_succ_cons, List.take_zero]
  rw [queryAnomalyRecords_eq hanswer, cutFrom_cut.getD length_anomalyRows_lt hpage,
    length_flatMap_anomalies, hone, List.flatMap_singleton] at hle
  have hsize : (normalizePageSize 1).toInt = 1 := by decide
  rw [hsize] at hle
  exact_mod_cast hle

/-- Where every row exceeds a threshold at all, it has to exceed exactly one. -/
theorem countsAnomalies_iff (hsome : ∀ row ∈ anomalyRows db number table query,
      Metric.exceeding db query.thresholds row ≠ []) :
    CountsAnomalies db number table query pageSize ↔ OneThresholdEach db number table query :=
  ⟨fun hcounts => Paging.one_of_length_flatMap (length_flatMap_exceeding hcounts)
    (.inr fun row hrow => List.length_pos_iff.2 (hsome row hrow)), countsAnomalies_of_one⟩

end Pages

/-- In exact arithmetic every row that is selected exceeds a threshold. -/
theorem countsAnomalies_iff_of_exact {db : Mysql ℚ} (hexact : ∀ x, db.atof x = x)
    {number : List Char → ℚ} {query : AnomalyQuery ℚ}
    (hrendered : ∀ metric : Metric, number (CxxFloat.print (metric.threshold query.thresholds)) =
      metric.threshold query.thresholds)
    (hpos : ∀ metric : Metric, 0 < metric.threshold query.thresholds) {table : SqlTable ℚ}
    {pageSize : Int32} :
    CountsAnomalies db number table query pageSize ↔ OneThresholdEach db number table query := by
  refine countsAnomalies_iff fun row hrow => ?_
  rw [anomalyRows] at hrow
  split_ifs at hrow
  · have htrue := beq_iff_eq.1 (List.mem_filter.1 hrow).2
    exact (thresholdCondition_eq_true_iff hexact hrendered hpos).1
      (whereTruth_eq_true_iff.1 htrue).2
  · exact absurd hrow List.not_mem_nil

/-- **When paging counts anomalies.**  For every content of `server_performance`, all thresholds,
however they are rendered into the statement, and every time range: paging counts anomalies for
every page size if and only if every row that is selected exceeds exactly one threshold.  Where
every row that is selected exceeds a threshold at all, as in exact arithmetic, this holds of each
single page size. -/
theorem anomaly_pages_count_iff [CxxFloat F] (db : Mysql F) (number : List Char → ℚ)
    (table : SqlTable F) (query : AnomalyQuery F) :
    ((∀ pageSize, CountsAnomalies db number table query pageSize) ↔
        OneThresholdEach db number table query) ∧
      ((∀ row ∈ anomalyRows db number table query, Metric.exceeding db query.thresholds row ≠ []) →
        ∀ pageSize, CountsAnomalies db number table query pageSize ↔
          OneThresholdEach db number table query) := by
  refine ⟨⟨fun hcounts => ?_, fun hone _ => countsAnomalies_of_one hone⟩,
    fun hsome _ => countsAnomalies_iff hsome⟩
  exact Paging.one_of_length_flatMap (length_flatMap_exceeding (hcounts 1))
    (.inl (length_exceeding_le (hcounts 1)))

/-- A row with too high a use of the CPU and of the memory yields two records, on a page of one. -/
theorem two_anomalies_on_page_of_one :
    ¬ ∀ (table : SqlTable ℚ) (query : AnomalyQuery ℚ) (pageSize : Int32),
      (∀ metric : Metric, 0 < metric.threshold query.thresholds) → 1 ≤ pageSize →
      CountsAnomalies exactMysql DecimalText.fixedValue table query pageSize := by
  intro hclaim
  let query : AnomalyQuery ℚ := ⟨"", firstMinute, AnomalyThresholds.orDefaults ⟨0, 0, 0, 0⟩⟩
  have hcounts := hclaim ⟨[twoMetrics 97 98], by decide⟩ query 1 (orDefaults_pos _) (by decide)
  have hle := length_exceeding_le hcounts (twoMetrics 97 98) (by
    rw [anomalyRows, if_pos (by decide)]
    exact List.mem_filter.2 ⟨List.mem_singleton_self _, by decide +kernel⟩)
  revert hle
  decide +kernel

end MonitorSystem
