import MonitorSystem.Manager.AnomalyPages
import MonitorSystem.Manager.QueryService

/-!
# Offsets of pages

Seven query functions answer a page at a time.  Each of them multiplies `page - 1` by `page_size` in
32 bits, after the service and the function itself have bounded both numbers from below, but
neither from above.  `page_offsets_exact_iff` says for which pages the product is what it should be.
-/

namespace MonitorSystem

open QueryManager

namespace PageOffsets

variable {F : Type}

/-! ### Calls for a page -/

/-- A query function with all its arguments but the page: the statements that it sends, what the one
for the page may be answered with, and the number of rows that it reports. -/
structure PagedCall (F : Type) where
  statements : Int32 → Int32 → List Statement
  Answer : Int32 → Int32 → Option (List (MysqlRow F)) → Prop
  totalCount : Int32

section Calls

variable [CxxFloat F] (db : Mysql F) (number : List Char → ℚ) (tables : String → SqlTable F)

/-- A call for the rows of a server, by a function that sends `statements`. -/
def rowsCall {R : Type} (query : DetailQuery F R)
    (statements : (ℤ → ClockText.Tm) → Bool → Bool → String → TimeRange → Int32 → Int32 →
      List Statement) (serverName : String) (range : TimeRange) : PagedCall F where
  statements := statements db.localtime true true serverName range
  Answer page pageSize := PageAnswer db serverName range query.columns (tables query.table)
    (normalizePage page) (normalizePageSize pageSize)
  totalCount := getTotalCount (query.matching db tables serverName range).length

/-- A call of `QueryAnomaly`. -/
def anomalyCall (query : AnomalyQuery F) : PagedCall F where
  statements :=
    queryAnomaly db.localtime true true query.serverName query.range query.thresholds
  Answer page pageSize := AnomalyAnswer db number (tables "server_performance") query
    (normalizePage page) (normalizePageSize pageSize)
  totalCount := anomalyTotal db number (tables "server_performance") query

/-- The calls that ask for a time range: all but `QueryScoreRank`. -/
def rangeCalls (query : AnomalyQuery F) : List (PagedCall F) :=
  [rowsCall db tables db.performance queryPerformance query.serverName query.range,
    anomalyCall db number tables query,
    rowsCall db tables db.netDetail queryNetDetail query.serverName query.range,
    rowsCall db tables db.diskDetail queryDiskDetail query.serverName query.range,
    rowsCall db tables db.memDetail queryMemDetail query.serverName query.range,
    rowsCall db tables db.softIrqDetail querySoftIrqDetail query.serverName query.range]

/-- The statements of `QueryScoreRank`. -/
def queryScoreRank (connected wantsCount : Bool) (order : SortOrder) (page pageSize : Int32) :
    List Statement :=
  if !connected then []
  else
    let page := normalizePage page
    let pageSize := normalizePageSize pageSize
    (if wantsCount then [countServersSql] else []) ++ [scoreRankSql order page pageSize]

omit [CxxFloat F] in
/-- A call of `QueryScoreRank`. -/
def scoreRankCall (order : SortOrder) : PagedCall F where
  statements := queryScoreRank true true order
  Answer page pageSize := db.ScoreRankAnswer (tables "server_performance") order
    (normalizePage page) (normalizePageSize pageSize)
  totalCount := getTotalCount (db.servers (tables "server_performance")).length

end Calls

/-! ### What an offset should be -/

/-- `(page - 1) * page_size`, without an overflow, after the numbers of the request have been
normalised. -/
def firstRow (pagination : Proto.Pagination) : ℤ :=
  ((normalizePage pagination.page).toInt - 1) * (normalizePageSize pagination.pageSize).toInt

/-- The statement ends with this offset. -/
def EndsWithOffset (statement : Statement) (m : ℤ) : Prop :=
  ∃ front text, statement = front ++ [.code (text ++ " OFFSET ".toList ++ DecimalText.intText m)]

/-- What the call for the page of a request should do: the service normalises the numbers of the
page and passes them on.  An answer `none` is that of a statement that fails. -/
structure PagedCall.OffsetRight (call : PagedCall F) (pagination : Proto.Pagination) : Prop where
  statement : ∃ statement,
    (call.statements (normalizePage pagination.page)
      (normalizePageSize pagination.pageSize)).getLast? = some statement ∧
    EndsWithOffset statement (firstRow pagination)
  nonneg : 0 ≤ firstRow pagination
  beyond : call.totalCount.toInt ≤ firstRow pagination → ∀ answer,
    call.Answer (normalizePage pagination.page) (normalizePageSize pagination.pageSize) answer →
    answer = some []

/-! ### The product in 32 bits -/

theorem one_le_normalizePage (page : Int32) : 1 ≤ (normalizePage page).toInt := by
  rw [normalizePage]
  split_ifs with h
  · decide
  · rw [Int32.lt_iff_toInt_lt] at h
    exact not_lt.1 h

/-- A number that is at least 1 is left as it is. -/
theorem ite_lt_one_eq_self {n : Int32} (hn : 1 ≤ n.toInt) (d : Int32) :
    (if n < 1 then d else n) = n := by
  refine if_neg ?_
  rw [Int32.lt_iff_toInt_lt]
  exact not_lt.2 hn

/-- The second normalisation changes nothing. -/
theorem normalizePage_normalizePage (page : Int32) :
    normalizePage (normalizePage page) = normalizePage page :=
  ite_lt_one_eq_self (one_le_normalizePage page) 1

theorem normalizePageSize_normalizePageSize (pageSize : Int32) :
    normalizePageSize (normalizePageSize pageSize) = normalizePageSize pageSize :=
  ite_lt_one_eq_self (one_le_normalizePageSize pageSize) 100

theorem firstRow_nonneg (pagination : Proto.Pagination) : 0 ≤ firstRow pagination := by
  have hpage := one_le_normalizePage pagination.page
  have hsize := one_le_normalizePageSize pagination.pageSize
  exact mul_nonneg (by omega) (by omega)

/-- The product does not overflow if and only if it lies below `2 ^ 31`. -/
theorem toInt_offset_eq_iff (pagination : Proto.Pagination) :
    (offset (normalizePage pagination.page) (normalizePageSize pagination.pageSize)).toInt =
      firstRow pagination ↔ firstRow pagination < 2 ^ 31 := by
  have hnonneg := firstRow_nonneg pagination
  have hpage := one_le_normalizePage pagination.page
  have hlt := (normalizePage pagination.page).toInt_lt
  have hpred : (normalizePage pagination.page - 1).toInt =
      (normalizePage pagination.page).toInt - 1 := by
    rw [Int32.toInt_sub, Int32.toInt_one, Int.bmod_eq_of_le]
    all_goals omega
  constructor
  · intro heq
    rw [← heq]
    exact Int32.toInt_lt _
  · intro hsmall
    rw [offset, Int32.toInt_mul, hpred]
    exact Int.bmod_eq_of_le (by unfold firstRow at *; omega) (by unfold firstRow at *; omega)

/-! ### The offset in a statement -/

theorem not_mem_intText (m : ℤ) : ' ' ∉ DecimalText.intText m := fun hmem =>
  absurd (DecimalText.isNumeric_intText m _ hmem) (by unfold DecimalText.IsNumeric; decide)

/-- The text behind the last blank. -/
theorem takeWhile_reverse_append {front text : List Char} (htext : ' ' ∉ text) :
    (front ++ " OFFSET ".toList ++ text).reverse.takeWhile (· ≠ ' ') = text.reverse := by
  have hchars : ∀ c ∈ text.reverse, decide (c ≠ ' ') = true := fun c hc =>
    decide_eq_true fun h => htext (h ▸ List.mem_reverse.1 hc)
  have hblank : (" OFFSET ".toList).reverse = ' ' :: "TESFFO ".toList := by decide
  rw [List.reverse_append, List.reverse_append, hblank, List.takeWhile_append_of_pos hchars]
  simp

/-- A statement ends with one offset only. -/
theorem EndsWithOffset.unique {statement : Statement} {m m' : ℤ}
    (h : EndsWithOffset statement m) (h' : EndsWithOffset statement m') : m = m' := by
  obtain ⟨front, text, rfl⟩ := h
  obtain ⟨front', text', heq⟩ := h'
  obtain ⟨-, hlast⟩ := List.append_inj' heq rfl
  have htexts : text ++ " OFFSET ".toList ++ DecimalText.intText m =
      text' ++ " OFFSET ".toList ++ DecimalText.intText m' := by simpa using hlast
  have hwords := congrArg (fun l => l.reverse.takeWhile (· ≠ ' ')) htexts
  rw [takeWhile_reverse_append (not_mem_intText m), takeWhile_reverse_append (not_mem_intText m'),
    List.reverse_inj] at hwords
  exact DecimalText.intText_injective hwords

/-! ### When offsets are right -/

/-- What the calls have in common: the statement for the page ends with the product, and it is
answered with the part of `n` rows that begins there. -/
structure PagedCall.Lists (call : PagedCall F) (n : ℕ) : Prop where
  statement : ∀ page pageSize, ∃ statement,
    (call.statements page pageSize).getLast? = some statement ∧
    EndsWithOffset statement (offset (normalizePage page) (normalizePageSize pageSize)).toInt
  answered : ∀ page pageSize, ∃ answer, call.Answer page pageSize answer
  cut : ∀ page pageSize answer, call.Answer page pageSize answer →
    ∃ l : List (MysqlRow F), l.length = n ∧
      answer = limitOffset (normalizePage page) (normalizePageSize pageSize) l

/-- With the right offset, a page is empty exactly when it begins behind the rows. -/
theorem limitOffset_eq_nil_iff {A : Type} {pagination : Proto.Pagination}
    (hsmall : firstRow pagination < 2 ^ 31) (l : List A) :
    limitOffset (normalizePage pagination.page) (normalizePageSize pagination.pageSize) l =
      some [] ↔ l.length ≤ firstRow pagination := by
  have hnonneg := firstRow_nonneg pagination
  have hsize := one_le_normalizePageSize pagination.pageSize
  have hoffset := (toInt_offset_eq_iff pagination).2 hsmall
  rw [limitOffset, if_pos (by rwa [Int32.le_iff_toInt_le, hoffset, Int32.toInt_zero]), hoffset,
    Option.some.injEq, List.take_eq_nil_iff, List.drop_eq_nil_iff]
  omega

theorem PagedCall.Lists.offsetRight_iff {call : PagedCall F} {n : ℕ} (h : call.Lists n)
    (pagination : Proto.Pagination) : call.OffsetRight pagination ↔
      firstRow pagination < 2 ^ 31 ∧
        ¬ (call.totalCount.toInt ≤ firstRow pagination ∧ firstRow pagination < n) := by
  obtain ⟨statement, hlast, hends⟩ :=
    h.statement (normalizePage pagination.page) (normalizePageSize pagination.pageSize)
  rw [normalizePage_normalizePage, normalizePageSize_normalizePageSize] at hends
  constructor
  · intro hright
    obtain ⟨statement', hlast', hends'⟩ := hright.statement
    obtain rfl : statement = statement' := Option.some.inj (hlast.symm.trans hlast')
    have hsmall := (toInt_offset_eq_iff pagination).1 (hends.unique hends')
    refine ⟨hsmall, fun ⟨hbeyond, hrow⟩ => ?_⟩
    obtain ⟨answer, hanswer⟩ :=
      h.answered (normalizePage pagination.page) (normalizePageSize pagination.pageSize)
    have hnil := hright.beyond hbeyond answer hanswer
    obtain ⟨l, hlength, rfl⟩ := h.cut _ _ answer hanswer
    rw [normalizePage_normalizePage, normalizePageSize_normalizePageSize,
      limitOffset_eq_nil_iff hsmall, hlength] at hnil
    omega
  · rintro ⟨hsmall, hno⟩
    refine ⟨⟨statement, hlast, (toInt_offset_eq_iff pagination).2 hsmall ▸ hends⟩,
      firstRow_nonneg pagination, fun hbeyond answer hanswer => ?_⟩
    obtain ⟨l, hlength, rfl⟩ := h.cut _ _ answer hanswer
    rw [normalizePage_normalizePage, normalizePageSize_normalizePageSize,
      limitOffset_eq_nil_iff hsmall, hlength]
    exact not_lt.1 fun hrow => hno ⟨hbeyond, hrow⟩

theorem limitOffset_map {A B : Type} (f : A → B) (page pageSize : Int32) (l : List A) :
    (limitOffset page pageSize l).map (·.map f) = limitOffset page pageSize (l.map f) := by
  unfold limitOffset
  split_ifs
  · simp [List.map_take, List.map_drop]
  · rfl

/-! ### The seven calls -/

section Calls

variable [CxxFloat F] {db : Mysql F} {number : List Char → ℚ} {tables : String → SqlTable F}

omit [CxxFloat F] in
theorem lists_rowsCall {R : Type} {query : DetailQuery F R} {serverName : String}
    {range : TimeRange} (hrange : validateTimeRange range = true)
    {statements : (ℤ → ClockText.Tm) → Bool → Bool → String → TimeRange → Int32 → Int32 →
      List Statement}
    (hstatements : ∀ localtime, statements localtime = query.statements localtime) :
    (rowsCall db tables query statements serverName range).Lists
      (query.matching db tables serverName range).length where
  statement page pageSize := by
    refine ⟨pageSql db.localtime (columnsText query.columns) query.table.toList serverName range
      (normalizePage page) (normalizePageSize pageSize), ?_, ?_⟩
    · simp [rowsCall, hstatements, DetailQuery.statements, pageQuery, hrange]
    · exact ⟨[_, _, _, _, _, _], _, rfl⟩
  answered page pageSize := by
    obtain ⟨l, hl⟩ := Paging.exists_arrangement (fun row => OrderDual.toDual row.timestamp)
      (query.matching db tables serverName range)
    exact ⟨_, l, hl, rfl⟩
  cut page pageSize answer hanswer := by
    obtain ⟨l, hl, rfl⟩ := hanswer
    exact ⟨l.map (SqlRow.fetch query.columns), (List.length_map _).trans hl.perm.length_eq,
      limitOffset_map _ _ _ _⟩

theorem lists_anomalyCall {query : AnomalyQuery F} (hrange : validateTimeRange query.range = true) :
    (anomalyCall db number tables query).Lists
      (anomalyRows db number (tables "server_performance") query).length where
  statement page pageSize := by
    have hlast : ∀ (count statement : Statement), [count, statement].getLast? = some statement :=
      fun _ _ => rfl
    simp only [anomalyCall, queryAnomaly, hrange, Bool.not_true, Bool.false_eq_true, if_false,
      if_true, List.singleton_append, hlast]
    exact ⟨_, rfl, _, _, rfl⟩
  answered page pageSize := by
    obtain ⟨l, hl⟩ := Paging.exists_arrangement (fun row => OrderDual.toDual row.timestamp)
      (anomalyRows db number (tables "server_performance") query)
    exact ⟨_, l, hl, rfl⟩
  cut page pageSize answer hanswer := by
    obtain ⟨l, hl, rfl⟩ := hanswer
    exact ⟨l.map (SqlRow.fetch anomalyColumns), (List.length_map _).trans hl.perm.length_eq,
      limitOffset_map _ _ _ _⟩

omit [CxxFloat F] in
theorem lists_scoreRankCall (order : SortOrder) : (scoreRankCall db tables order).Lists
    (db.latestRows (tables "server_performance")).length where
  statement page pageSize :=
    ⟨scoreRankSql order (normalizePage page) (normalizePageSize pageSize), rfl, [], _, rfl⟩
  answered page pageSize := by
    obtain ⟨l, hl⟩ := db.exists_ranked order (db.latestRows (tables "server_performance"))
    exact ⟨_, l, hl, rfl⟩
  cut page pageSize answer hanswer := by
    obtain ⟨l, hl, rfl⟩ := hanswer
    exact ⟨l.map (SqlRow.fetch Mysql.scoreColumns),
      (List.length_map _).trans hl.perm.length_eq, limitOffset_map _ _ _ _⟩

end Calls

/-- For the calls with a time range, `total_count` is the number of rows. -/
theorem PagedCall.Lists.offsetRight_iff_of_total {call : PagedCall F} {n : ℕ} (h : call.Lists n)
    (htotal : call.totalCount.toInt = n) (pagination : Proto.Pagination) :
    call.OffsetRight pagination ↔ firstRow pagination < 2 ^ 31 := by
  rw [h.offsetRight_iff, htotal, and_iff_left_iff_imp]
  omega

/-- The calls for the rows of a server. -/
theorem offsetRight_rowsCall_iff [CxxFloat F] {db : Mysql F} {tables : String → SqlTable F}
    {R : Type} {query : DetailQuery F R} {serverName : String} {range : TimeRange}
    (hrange : validateTimeRange range = true)
    {statements : (ℤ → ClockText.Tm) → Bool → Bool → String → TimeRange → Int32 → Int32 →
      List Statement}
    (hstatements : ∀ localtime, statements localtime = query.statements localtime)
    (pagination : Proto.Pagination) :
    (rowsCall db tables query statements serverName range).OffsetRight pagination ↔
      firstRow pagination < 2 ^ 31 :=
  (lists_rowsCall hrange hstatements).offsetRight_iff_of_total
    (toInt_getTotalCount (length_matchingRows_lt _ _ _ _)) pagination

/-- **Offsets of pages.**  For every content of the tables and every page and page size of a
request: the calls with a time range that is not reversed offset their page by
`(page - 1) * page_size`, and answer a page behind the last row with an empty list, if and only if
this product is less than `2 ^ 31`.  `QueryScoreRank` does if and only if, moreover, no row is
listed at or behind the product when that is beyond the number of servers. -/
theorem page_offsets_exact_iff [CxxFloat F] (db : Mysql F) (number : List Char → ℚ)
    (tables : String → SqlTable F) (query : AnomalyQuery F) (order : SortOrder)
    (pagination : Proto.Pagination) (hrange : validateTimeRange query.range = true) :
    (∀ call ∈ rangeCalls db number tables query,
      call.OffsetRight pagination ↔ firstRow pagination < 2 ^ 31) ∧
    ((scoreRankCall db tables order).OffsetRight pagination ↔
      firstRow pagination < 2 ^ 31 ∧
        ¬ ((db.servers (tables "server_performance")).length ≤ firstRow pagination ∧
          firstRow pagination < (db.latestRows (tables "server_performance")).length)) := by
  constructor
  · unfold rangeCalls
    simp only [List.forall_mem_cons, List.not_mem_nil, false_imp_iff, implies_true, and_true]
    refine ⟨?_, ?_, ?_, ?_, ?_, ?_⟩
    · exact offsetRight_rowsCall_iff hrange (queryPerformance_eq db) pagination
    · exact (lists_anomalyCall hrange).offsetRight_iff_of_total toInt_anomalyTotal pagination
    · exact offsetRight_rowsCall_iff hrange (queryNetDetail_eq db) pagination
    · exact offsetRight_rowsCall_iff hrange (queryDiskDetail_eq db) pagination
    · exact offsetRight_rowsCall_iff hrange (queryMemDetail_eq db) pagination
    · exact offsetRight_rowsCall_iff hrange (querySoftIrqDetail_eq db) pagination
  · have htotal : (scoreRankCall db tables order).totalCount.toInt =
        (db.servers (tables "server_performance")).length := db.toInt_countServers _
    rw [(lists_scoreRankCall order).offsetRight_iff, htotal]

/-- Tables without rows. -/
def noRows (_ : String) : SqlTable ℚ := ⟨[], by decide⟩

/-- The anomalies of all servers in the first minute of 1970. -/
def earlyAnomalies : AnomalyQuery ℚ := ⟨"", ⟨0, 0⟩, ⟨80, 90, 85, 1⟩⟩

/-- Two rows of the host `web` in every table. -/
def twoRows (_ : String) : SqlTable ℚ := ⟨[twoMetrics 97 50, twoMetrics 50 97], by decide⟩

/-- Both of them are asked for, and the second page begins with the second one. -/
theorem page_offsets_second :
    (rangeCalls exactMysql DecimalText.fixedValue twoRows
      { earlyAnomalies with serverName := "web", range := firstMinute }).map (·.totalCount) =
        [2, 2, 2, 2, 2, 2] ∧
      ∀ call ∈ rangeCalls exactMysql DecimalText.fixedValue twoRows
        { earlyAnomalies with serverName := "web", range := firstMinute },
        call.OffsetRight ⟨2, 1⟩ :=
  ⟨by decide +kernel, fun call hcall =>
    ((page_offsets_exact_iff exactMysql DecimalText.fixedValue twoRows _ .desc ⟨2, 1⟩
      (by decide)).1 call hcall).2 (by decide)⟩

/-- The last page of the default size would begin at the row `-200`, which MySQL refuses. -/
theorem last_page_refused :
    (¬ ∀ (tables : String → SqlTable ℚ) (query : AnomalyQuery ℚ) (pagination : Proto.Pagination),
      validateTimeRange query.range = true →
      ∀ call ∈ rangeCalls exactMysql DecimalText.fixedValue tables query,
        call.OffsetRight pagination) ∧
    (offset (normalizePage 2147483647) (normalizePageSize 0)).toInt = -200 := by
  refine ⟨fun hclaim => ?_, by decide⟩
  have hright := hclaim noRows earlyAnomalies ⟨2147483647, 0⟩ (by decide) _ List.mem_cons_self
  have hsmall := (offsetRight_rowsCall_iff (by decide) (queryPerformance_eq exactMysql) _).1 hright
  exact absurd hsmall (by decide)

end PageOffsets

end MonitorSystem
