import MonitorSystem.Library.Paging
import MonitorSystem.Manager.HostIsolation
import MonitorSystem.Manager.QueryManager

/-!
# The rows of the tables

An `INSERT` leaves a row (`Insert.row`), a selection fetches some of its columns by position
(`SqlRow.fetch`), and the query functions read the values that they find there.  Names are taken to
denote themselves between quotes; `names_read_as_meant_iff` says which names do.  What MySQL does
with the values in between, and how it compares names, is in `Mysql`.

A statement that MySQL can parse succeeds.  One kind cannot be parsed: the `INSERT` into
`server_disk_detail` names a column by a reserved word, so that this table stays empty.
-/

namespace MonitorSystem

open ClockText (Tm)
open CxxFloat (toFloat)
open Paging (Arrangement)

variable {F : Type}

/-- What the query functions take from MySQL and from the C library. -/
structure Mysql (F : Type) where
  /-- the same for two names if the collation does not tell them apart -/
  weight : String → String
  /-- what a `FLOAT` column makes of a value, of which the statement has the six digits of `<<` -/
  float : SqlValue F → ℚ
  /-- what a `BIGINT` column makes of a value -/
  bigint : SqlValue F → ℤ
  /-- `std::atof` of the text of a `FLOAT` -/
  atof : ℚ → F
  /-- `ParseTime` of the text of a `DATETIME` -/
  parseTime : Tm → ℤ
  localtime : ℤ → Tm

/-- A row of a table.  The columns `server_name` and `timestamp` are never `NULL`. -/
structure SqlRow (F : Type) where
  serverName : String
  timestamp : Tm
  other : String → Option (SqlValue F)

/-- What a row holds in a column; `none` is `NULL`. -/
def SqlRow.value (row : SqlRow F) (column : String) : Option (SqlValue F) :=
  if column = "server_name" then some (.name row.serverName)
  else if column = "timestamp" then some (.time row.timestamp)
  else row.other column

/-- The value that a statement gives for a column. -/
def Insert.value (statement : Insert F) (column : String) : Option (SqlValue F) :=
  (statement.columns.zip statement.values).lookup column

/-- The row that a statement leaves, if MySQL can parse it. -/
def Insert.row (statement : Insert F) : Option (SqlRow F) :=
  match statement.value "server_name", statement.value "timestamp" with
  | some (.name serverName), some (.time timestamp) =>
    some ⟨serverName, timestamp, statement.value⟩
  | _, _ => none

/-- MySQL can parse the statement.  Of the columns that `WriteToMysql` names, `reads` is a reserved
word; `sql/init_server_performance.sql` puts it between back-ticks, and `WriteToMysql` does not. -/
def Insert.Parses (statement : Insert F) : Prop := "reads" ∉ statement.columns

instance (statement : Insert F) : Decidable statement.Parses :=
  inferInstanceAs (Decidable (¬ _))

/-- The rows that statements leave in a table. -/
def storedRows (statements : List (Insert F)) (table : String) : List (SqlRow F) :=
  ((statements.filter (·.table == table)).filter (·.Parses)).filterMap Insert.row

/-- The content of a table; its primary key `id` is an `INT`. -/
structure SqlTable (F : Type) where
  rows : List (SqlRow F)
  length_lt : rows.length < 2 ^ 31

/-- The tables after statements, from empty tables on. -/
def tablesOf (statements : List (Insert F)) (h : statements.length < 2 ^ 31) (table : String) :
    SqlTable F where
  rows := storedRows statements table
  length_lt := by
    have hfilter : ((statements.filter (·.table == table)).filter (·.Parses)).length ≤
        statements.length := (List.length_filter_le _ _).trans (List.length_filter_le _ _)
    exact ((List.length_filterMap_le _ _).trans hfilter).trans_lt h

/-! ### Fetching -/

/-- `MYSQL_ROW`: the values of the selected columns by position. -/
abbrev MysqlRow (F : Type) := ℕ → Option (SqlValue F)

/-- The selected columns of a row. -/
def SqlRow.fetch (columns : List String) (row : SqlRow F) : MysqlRow F := fun i =>
  columns[i]?.bind row.value

/-- `row[i] ? row[i] : ""`. -/
def readName : Option (SqlValue F) → String
  | some (.name s) => s
  | _ => ""

namespace Mysql

variable (db : Mysql F)

/-- `row[i] ? ParseTime(row[i]) : now`. -/
def readTime (now : ℤ) : Option (SqlValue F) → ℤ
  | some (.time t) => db.parseTime t
  | _ => now

/-- `row[i] ? std::atof(row[i]) : 0`, stored in a `float`. -/
def readFloat [CxxFloat F] : Option (SqlValue F) → F
  | some v => toFloat (db.atof (db.float v))
  | none => 0

/-- `row[i] ? std::stoull(row[i]) : 0`. -/
def readUInt64 : Option (SqlValue F) → UInt64
  | some v => UInt64.ofInt (db.bigint v)
  | none => 0

/-- `row[i] ? std::stoll(row[i]) : 0`. -/
def readInt64 : Option (SqlValue F) → Int64
  | some v => Int64.ofInt (db.bigint v)
  | none => 0

end Mysql

/-! ### Selecting -/

namespace QueryManager

variable (db : Mysql F) (serverName : String) (range : TimeRange)

/-- A row satisfies `server_name='…' AND timestamp BETWEEN '…' AND '…'`. -/
def Matches (row : SqlRow F) : Prop :=
  db.weight row.serverName = db.weight serverName ∧
    db.localtime (range.startTime.tdiv 1000000000) ≤ row.timestamp ∧
    row.timestamp ≤ db.localtime (range.endTime.tdiv 1000000000)

instance (row : SqlRow F) : Decidable (Matches db serverName range row) :=
  inferInstanceAs (Decidable (_ ∧ _ ∧ _))

/-- The rows of a server in a time range; a reversed range has none. -/
def matchingRows (table : SqlTable F) : List (SqlRow F) :=
  if validateTimeRange range then table.rows.filter fun row => Matches db serverName range row
  else []

/-- The text of a list of columns. -/
def columnsText (columns : List String) : List Char :=
  [',', ' '].intercalate (columns.map String.toList)

/-- `LIMIT page_size OFFSET offset`; a negative offset is an error. -/
def limitOffset {A : Type} (page pageSize : Int32) (l : List A) : Option (List A) :=
  if 0 ≤ offset page pageSize then
    some ((l.drop (offset page pageSize).toInt.toNat).take pageSize.toInt.toNat)
  else none

/-- What `pageSql` may be answered with, when the rows of the table are `table`. -/
def PageAnswer (columns : List String) (table : SqlTable F) (page pageSize : Int32)
    (answer : Option (List (MysqlRow F))) : Prop :=
  ∃ l, Arrangement (fun row => OrderDual.toDual row.timestamp)
      (matchingRows db serverName range table) l ∧
    answer = (limitOffset page pageSize l).map (·.map (SqlRow.fetch columns))

/-- `GetTotalCount`, when `n` is the answer. -/
def getTotalCount (n : ℕ) : Int32 := Int32.ofNat n

theorem length_matchingRows_lt (table : SqlTable F) :
    (matchingRows db serverName range table).length < 2 ^ 31 := by
  rw [matchingRows]
  split_ifs
  · exact (List.length_filter_le _ _).trans_lt table.length_lt
  · exact Nat.two_pow_pos 31

theorem toInt_getTotalCount {n : ℕ} (hn : n < 2 ^ 31) : (getTotalCount n).toInt = n :=
  Int32.toInt_ofNat_of_lt hn

/-! ### Page numbers -/

theorem one_le_normalizePageSize (pageSize : Int32) :
    1 ≤ (normalizePageSize pageSize).toInt := by
  rw [normalizePageSize]
  split_ifs with h
  · decide
  · rw [Int32.lt_iff_toInt_lt] at h
    exact not_lt.1 h

theorem normalizePage_ofNat {p : ℕ} (hp : p + 1 < 2 ^ 31) :
    normalizePage (Int32.ofNat (p + 1)) = Int32.ofNat (p + 1) := by
  refine if_neg ?_
  rw [Int32.lt_iff_toInt_lt, Int32.toInt_ofNat_of_lt hp]
  exact not_lt.2 (by push_cast; exact le_add_of_nonneg_left p.cast_nonneg)

/-- The offset of page `p + 1` does not overflow when it is the number of a row. -/
theorem toInt_offset {p : ℕ} {size : Int32} (hsize : 1 ≤ size.toInt)
    (hp : p * size.toInt.toNat < 2 ^ 31) (hp' : p + 1 < 2 ^ 31) :
    (offset (Int32.ofNat (p + 1)) size).toInt = p * size.toInt.toNat := by
  have hcast : (size.toInt.toNat : ℤ) = size.toInt := Int.toNat_of_nonneg (by omega)
  have hbound : (p : ℤ) * size.toInt < 2 ^ 31 := by
    rw [← hcast]
    exact_mod_cast hp
  have hnonneg : 0 ≤ (p : ℤ) * size.toInt := mul_nonneg p.cast_nonneg (by omega)
  have hpage : (Int32.ofNat (p + 1) - 1).toInt = p := by
    rw [Int32.toInt_sub, Int32.toInt_ofNat_of_lt hp', Int32.toInt_one, Int.bmod_eq_of_le]
    all_goals push_cast; omega
  rw [offset, Int32.toInt_mul, hpage, hcast, Int.bmod_eq_of_le]
  all_goals omega

/-- Within the rows, a page is cut where it should be. -/
theorem limitOffset_eq {A : Type} {p n : ℕ} {size : Int32} (hsize : 1 ≤ size.toInt)
    (hn : n < 2 ^ 31) (hp : p < Paging.pageCount size.toInt.toNat n) (l : List A) :
    limitOffset (normalizePage (Int32.ofNat (p + 1))) size l =
      some (Paging.page size.toInt.toNat p l) := by
  have hmul : p * size.toInt.toNat < n := Paging.mul_lt_of_lt_pageCount (by omega) hp
  have hle : p ≤ p * size.toInt.toNat := Nat.le_mul_of_pos_right p (by omega)
  have hoffset := toInt_offset hsize (hmul.trans hn) (by omega)
  rw [normalizePage_ofNat (by omega), limitOffset, if_pos, hoffset]
  · rfl
  · rw [Int32.le_iff_toInt_le, hoffset, Int32.toInt_zero]
    exact_mod_cast Nat.zero_le _

/-- Rows of the list are selected, no more than the limit. -/
theorem subset_of_limitOffset {A : Type} {page size : Int32} {l m : List A}
    (h : limitOffset page size l = some m) : m ⊆ l ∧ m.length ≤ size.toInt.toNat := by
  rw [limitOffset] at h
  split_ifs at h
  cases h
  exact ⟨fun a ha => List.mem_of_mem_drop (List.mem_of_mem_take ha), List.length_take_le _ _⟩

/-! ### All pages -/

section Pages

variable {R A : Type} {columns : List String} {read : ℤ → MysqlRow F → R} {n : ℕ}
  {pageSize : Int32} {now : ℕ → ℤ} {answers : ℕ → Option (List (MysqlRow F))}
  {choice : ℕ → List (SqlRow F)}

/-- The answer for page `p + 1` that is cut from the list `choice p`. -/
def cut (columns : List String) (pageSize : Int32) (choice : ℕ → List (SqlRow F)) (p : ℕ) :
    Option (List (MysqlRow F)) :=
  (limitOffset (normalizePage (Int32.ofNat (p + 1))) (normalizePageSize pageSize)
    (choice p)).map (·.map (SqlRow.fetch columns))

/-- The answers for all pages of `n` rows are cut from the lists `choice`. -/
def CutFrom (columns : List String) (n : ℕ) (pageSize : Int32) (choice : ℕ → List (SqlRow F))
    (answers : ℕ → Option (List (MysqlRow F))) : Prop :=
  ∀ p < Paging.pageCount (normalizePageSize pageSize).toInt.toNat n,
    answers p = cut columns pageSize choice p

theorem cutFrom_cut : CutFrom columns n pageSize choice (cut columns pageSize choice) :=
  fun _ _ => rfl

/-- An answer that is cut from a list has the rows of a page of it. -/
theorem CutFrom.getD (h : CutFrom columns n pageSize choice answers) (hn : n < 2 ^ 31) {p : ℕ}
    (hp : p < Paging.pageCount (normalizePageSize pageSize).toInt.toNat n) :
    (answers p).getD [] = (Paging.page (normalizePageSize pageSize).toInt.toNat p
      (choice p)).map (SqlRow.fetch columns) := by
  rw [h p hp, cut, limitOffset_eq (one_le_normalizePageSize pageSize) hn hp]
  rfl

/-- What is read from the answers, as far as it does not depend on the time of reading, is what the
pages of the lists hold. -/
theorem CutFrom.map_read (h : CutFrom columns n pageSize choice answers) (hn : n < 2 ^ 31)
    (look : R → A) {f : SqlRow F → A}
    (hread : ∀ now row, look (read now (SqlRow.fetch columns row)) = f row) :
    ((List.range (Paging.pageCount (normalizePageSize pageSize).toInt.toNat n)).flatMap fun p =>
      ((answers p).getD []).map (read (now p))).map look =
      (Paging.pages (normalizePageSize pageSize).toInt.toNat
        (Paging.pageCount (normalizePageSize pageSize).toInt.toNat n) choice).map f := by
  rw [Paging.pages, List.map_flatMap, List.map_flatMap]
  refine List.flatMap_congr fun p hp => ?_
  rw [h.getD hn (List.mem_range.1 hp), List.map_map, List.map_map]
  exact List.map_congr_left fun row _ => hread (now p) row

theorem CutFrom.mem_read (h : CutFrom columns n pageSize choice answers) (hn : n < 2 ^ 31) {rec : R}
    (hrec : rec ∈ (List.range (Paging.pageCount (normalizePageSize pageSize).toInt.toNat
      n)).flatMap fun p => ((answers p).getD []).map (read (now p))) :
    ∃ p < Paging.pageCount (normalizePageSize pageSize).toInt.toNat n, ∃ row ∈ choice p,
      rec = read (now p) (SqlRow.fetch columns row) := by
  obtain ⟨p, hp, hrec⟩ := List.mem_flatMap.1 hrec
  have hp := List.mem_range.1 hp
  rw [h.getD hn hp, List.map_map] at hrec
  obtain ⟨row, hrow, rfl⟩ := List.mem_map.1 hrec
  exact ⟨p, hp, row, Paging.mem_of_mem_page hrow, rfl⟩

end Pages

end QueryManager

/-- Four threads, with a constant hash, in the first minute of 1970. -/
def earlyEnv : Env := ⟨fun _ => 0, 4, fun t => ⟨1970, 1, 1, 0, 0, t.toNat⟩⟩

/-- MySQL in exact arithmetic, with a collation that tells all names apart. -/
def exactMysql : Mysql ℚ where
  weight := id
  float
    | .float x => x
    | _ => 0
  bigint
    | .float x => ⌊x⌋
    | .uint64 n => n.toNat
    | _ => 0
  atof := id
  parseTime t := t.second * 1000000000
  localtime := earlyEnv.localtime

/-! ### What reports leave -/

section ProcessData

variable [CxxFloat F]

/-- The row of the statement is one of the host with the timestamp `t`. -/
def Insert.LeavesRow (hostName : String) (t : Tm) (statement : Insert F) : Prop :=
  ∃ row, statement.row = some row ∧ row.serverName = hostName ∧ row.timestamp = t

theorem leavesRow_writeDetails {hostName : String} {shardIdx : ℕ} {timeBuf : Tm}
    {info : MonitorInfo F} {store : Store F} {statement : Insert F}
    (hmem : statement ∈ (writeDetails hostName shardIdx timeBuf info store).2) :
    statement.LeavesRow hostName timeBuf := by
  obtain ⟨_, _, rfl⟩ | ⟨_, _, rfl⟩ | ⟨_, _, rfl⟩ | ⟨_, _, rfl⟩ := mem_writeDetails _ _ _ hmem
  all_goals exact ⟨_, rfl, rfl, rfl⟩

/-- All rows of one report have the same timestamp, the whole second in which it was processed. -/
theorem leavesRow_processData {env : Env} {thread : ℕ} {store : Store F} {job : Job F}
    {statement : Insert F} (hmem : statement ∈ (processData env thread store job).2) :
    statement.LeavesRow (serverIdentifier job.info)
      (env.localtime (job.now.tdiv 1000000000)) := by
  simp only [processData] at hmem
  split_ifs at hmem with hempty
  · cases hmem
  · cases hconn : job.connection with
    | initFailed => simp [writeToMysql, hconn] at hmem
    | connectFailed => simp [writeToMysql, hconn] at hmem
    | connected =>
      simp only [writeToMysql, hconn, List.mem_cons] at hmem
      rcases hmem with rfl | hdetail
      · exact ⟨_, rfl, rfl, rfl⟩
      · exact leavesRow_writeDetails hdetail

end ProcessData

end MonitorSystem
