import MonitorSystem.Manager.Tables

/-!
# Pages of the detail tables

`QueryNetDetail`, `QueryDiskDetail` and `QuerySoftIrqDetail` answer one page at a time, each page
from a statement of its own, ordered by the timestamp.  But all rows of one report have the same
timestamp (`leavesRow_processData`), and MySQL may list them in another order for every page.

`pages_cover_iff` says when the pages together hold every matching row once all the same.
-/

namespace MonitorSystem

open ClockText (Tm)
open Paging (Arrangement Straddles Tiles pageCount)
open QueryManager

variable {F : Type}

/-! ### The queries -/

/-- `NetDetailRecord`. -/
structure NetDetailRecord (F : Type) where
  serverName : String
  netName : String
  timestamp : ℤ
  errIn : UInt64
  errOut : UInt64
  dropIn : UInt64
  dropOut : UInt64
  rcvBytesRate : F
  sndBytesRate : F
  rcvPacketsRate : F
  sndPacketsRate : F

/-- `DiskDetailRecord`. -/
structure DiskDetailRecord (F : Type) where
  serverName : String
  diskName : String
  timestamp : ℤ
  readBytesPerSec : F
  writeBytesPerSec : F
  readIops : F
  writeIops : F
  avgReadLatencyMs : F
  avgWriteLatencyMs : F
  utilPercent : F

/-- `SoftIrqDetailRecord`. -/
structure SoftIrqDetailRecord where
  serverName : String
  cpuName : String
  timestamp : ℤ
  hi : Int64
  timer : Int64
  netTx : Int64
  netRx : Int64
  block : Int64
  sched : Int64

/-- What the query functions for details differ in: the table, the columns, and how a record is
read from a row of the result at the time `now`, on which nothing depends as no timestamp is
`NULL`. -/
structure DetailQuery (F R : Type) where
  table : String
  columns : List String
  read : ℤ → MysqlRow F → R
  read_fetch : ∀ now row, read now (SqlRow.fetch columns row) = read 0 (SqlRow.fetch columns row)

namespace Mysql

variable [CxxFloat F] (db : Mysql F)

/-- `QueryNetDetail`. -/
def netDetail : DetailQuery F (NetDetailRecord F) where
  table := "server_net_detail"
  columns :=
    ["server_name", "net_name", "timestamp", "err_in", "err_out",
      "drop_in", "drop_out", "rcv_bytes_rate", "snd_bytes_rate",
      "rcv_packets_rate", "snd_packets_rate"]
  read now row :=
    { serverName := readName (row 0)
      netName := readName (row 1)
      timestamp := db.readTime now (row 2)
      errIn := db.readUInt64 (row 3)
      errOut := db.readUInt64 (row 4)
      dropIn := db.readUInt64 (row 5)
      dropOut := db.readUInt64 (row 6)
      rcvBytesRate := db.readFloat (row 7)
      sndBytesRate := db.readFloat (row 8)
      rcvPacketsRate := db.readFloat (row 9)
      sndPacketsRate := db.readFloat (row 10) }
  read_fetch _ _ := rfl

/-- `QueryDiskDetail`. -/
def diskDetail : DetailQuery F (DiskDetailRecord F) where
  table := "server_disk_detail"
  columns :=
    ["server_name", "disk_name", "timestamp", "read_bytes_per_sec",
      "write_bytes_per_sec", "read_iops", "write_iops", "avg_read_latency_ms",
      "avg_write_latency_ms", "util_percent"]
  read now row :=
    { serverName := readName (row 0)
      diskName := readName (row 1)
      timestamp := db.readTime now (row 2)
      readBytesPerSec := db.readFloat (row 3)
      writeBytesPerSec := db.readFloat (row 4)
      readIops := db.readFloat (row 5)
      writeIops := db.readFloat (row 6)
      avgReadLatencyMs := db.readFloat (row 7)
      avgWriteLatencyMs := db.readFloat (row 8)
      utilPercent := db.readFloat (row 9) }
  read_fetch _ _ := rfl

omit [CxxFloat F] in
/-- `QuerySoftIrqDetail`. -/
def softIrqDetail : DetailQuery F SoftIrqDetailRecord where
  table := "server_softirq_detail"
  columns :=
    ["server_name", "cpu_name", "timestamp", "hi", "timer", "net_tx",
      "net_rx", "block", "sched"]
  read now row :=
    { serverName := readName (row 0)
      cpuName := readName (row 1)
      timestamp := db.readTime now (row 2)
      hi := db.readInt64 (row 3)
      timer := db.readInt64 (row 4)
      netTx := db.readInt64 (row 5)
      netRx := db.readInt64 (row 6)
      block := db.readInt64 (row 7)
      sched := db.readInt64 (row 8) }
  read_fetch _ _ := rfl

end Mysql

namespace DetailQuery

variable {R : Type} (query : DetailQuery F R)

/-- The record of a row. -/
def record (row : SqlRow F) : R := query.read 0 (SqlRow.fetch query.columns row)

/-- The statements that are sent for a page. -/
def statements (localtime : ℤ → Tm) : Bool → Bool → String → TimeRange → Int32 → Int32 →
    List Statement :=
  pageQuery localtime (columnsText query.columns) query.table.toList

/-- What the function returns for a page, when `answer` comes back; `none` stands for an error. -/
def page (connected : Bool) (range : TimeRange) (now : ℤ) (answer : Option (List (MysqlRow F))) :
    List R :=
  if !connected then []
  else if !validateTimeRange range then []
  else (answer.getD []).map (query.read now)

end DetailQuery

theorem queryNetDetail_eq [CxxFloat F] (db : Mysql F) (localtime : ℤ → Tm) :
    queryNetDetail localtime = db.netDetail.statements localtime := by
  unfold queryNetDetail DetailQuery.statements
  congr 1

theorem queryDiskDetail_eq [CxxFloat F] (db : Mysql F) (localtime : ℤ → Tm) :
    queryDiskDetail localtime = db.diskDetail.statements localtime := by
  unfold queryDiskDetail DetailQuery.statements
  congr 1

theorem querySoftIrqDetail_eq (db : Mysql F) (localtime : ℤ → Tm) :
    querySoftIrqDetail localtime = db.softIrqDetail.statements localtime := by
  unfold querySoftIrqDetail DetailQuery.statements
  congr 1

/-! ### All pages -/

namespace DetailQuery

variable {R : Type} (query : DetailQuery F R) (db : Mysql F) (tables : String → SqlTable F)
  (serverName : String) (range : TimeRange) (pageSize : Int32)

/-- The matching rows of the table. -/
def matching : List (SqlRow F) := matchingRows db serverName range (tables query.table)

/-- The number of pages, by the count that is reported with each of them. -/
def pageTotal : ℕ :=
  pageCount (normalizePageSize pageSize).toInt.toNat
    (getTotalCount (query.matching db tables serverName range).length).toInt.toNat

/-- The pages from the first to the last, each asked for at a time of its own and answered on its
own, together hold the record of each matching row once. -/
def PagesCover : Prop :=
  ∀ (now : ℕ → ℤ) (answers : ℕ → Option (List (MysqlRow F))),
    (∀ p < query.pageTotal db tables serverName range pageSize,
      PageAnswer db serverName range query.columns (tables query.table)
        (normalizePage (Int32.ofNat (p + 1))) (normalizePageSize pageSize) (answers p)) →
    ((List.range (query.pageTotal db tables serverName range pageSize)).flatMap fun p =>
      query.page true range (now p) (answers p)).Perm
      ((query.matching db tables serverName range).map query.record)

/-- If some of the matching rows with a timestamp lie before a page boundary and some behind it,
all of them give the same record. -/
def TiesAlike : Prop :=
  ∀ t : Tm, Straddles (fun row => OrderDual.toDual row.timestamp)
      (normalizePageSize pageSize).toInt.toNat (OrderDual.toDual t)
      (query.matching db tables serverName range) →
    ∀ a ∈ query.matching db tables serverName range,
    ∀ b ∈ query.matching db tables serverName range,
      a.timestamp = t → b.timestamp = t → query.record a = query.record b

variable {query db tables serverName range pageSize}

theorem pageTotal_eq : query.pageTotal db tables serverName range pageSize =
    pageCount (normalizePageSize pageSize).toInt.toNat
      (query.matching db tables serverName range).length := by
  have hlength := length_matchingRows_lt db serverName range (tables query.table)
  rw [pageTotal, matching, toInt_getTotalCount hlength, Int.toNat_natCast]

theorem page_of_valid (hrange : validateTimeRange range = true) (now : ℤ)
    (answer : Option (List (MysqlRow F))) :
    query.page true range now answer = (answer.getD []).map (query.read now) := by
  simp [page, hrange]

/-- The pages that the functions return are the pages of arrangements of the matching rows. -/
theorem pagesCover_iff_tiles (hrange : validateTimeRange range = true) :
    query.PagesCover db tables serverName range pageSize ↔
      Tiles (fun row => OrderDual.toDual row.timestamp) query.record
        (normalizePageSize pageSize).toInt.toNat
        (query.matching db tables serverName range) := by
  have hlength : (query.matching db tables serverName range).length < 2 ^ 31 :=
    length_matchingRows_lt db serverName range (tables query.table)
  have hread (now : ℤ) (row : SqlRow F) :
      id (query.read now (SqlRow.fetch query.columns row)) = query.record row :=
    query.read_fetch now row
  simp only [PagesCover, page_of_valid hrange, pageTotal_eq]
  constructor
  · intro hcover choice hchoice
    have hperm := hcover (fun _ => 0) (cut query.columns pageSize choice) fun p hp =>
      ⟨choice p, hchoice p hp, rfl⟩
    rwa [← List.map_id (List.flatMap _ _), cutFrom_cut.map_read hlength id hread] at hperm
  · intro htiles now answers hanswers
    choose! choice hchoice hanswer using hanswers
    have hcut : CutFrom query.columns _ pageSize choice answers := hanswer
    rw [← List.map_id (List.flatMap _ _), hcut.map_read hlength id hread]
    exact htiles choice hchoice

theorem pagesCover_iff : query.PagesCover db tables serverName range pageSize ↔
    query.TiesAlike db tables serverName range pageSize := by
  have hsize : 0 < (normalizePageSize pageSize).toInt.toNat := by
    have := one_le_normalizePageSize pageSize
    omega
  by_cases hrange : validateTimeRange range = true
  · rw [pagesCover_iff_tiles hrange, Paging.tiles_iff hsize]
    exact ⟨fun h t ht a ha b hb hat hbt => h _ ht a ha b hb (congrArg _ hat) (congrArg _ hbt),
      fun h t ht a ha b hb hat hbt => h _ ht a ha b hb hat hbt⟩
  · -- nothing is asked, and nothing matches
    have hnil : query.matching db tables serverName range = [] := if_neg hrange
    refine iff_of_true (fun now answers _ => ?_) fun t _ a ha => ?_
    · simp [hnil, page, hrange]
    · simp [hnil] at ha

end DetailQuery

/-- **When pages cover the rows.**  For every content of the tables, every server, time range and
page size: the pages of network, disk and softirq details together hold every matching row once,
whatever order MySQL chooses among equal timestamps in each of the queries, if and only if all
matching rows with a timestamp that is spread over a page boundary give the same record. -/
theorem pages_cover_iff [CxxFloat F] (db : Mysql F) (tables : String → SqlTable F)
    (serverName : String) (range : TimeRange) (pageSize : Int32) :
    (db.netDetail.PagesCover db tables serverName range pageSize ↔
      db.netDetail.TiesAlike db tables serverName range pageSize) ∧
    (db.diskDetail.PagesCover db tables serverName range pageSize ↔
      db.diskDetail.TiesAlike db tables serverName range pageSize) ∧
    (db.softIrqDetail.PagesCover db tables serverName range pageSize ↔
      db.softIrqDetail.TiesAlike db tables serverName range pageSize) :=
  ⟨DetailQuery.pagesCover_iff, DetailQuery.pagesCover_iff, DetailQuery.pagesCover_iff⟩

/-- A report of the host `web` with two interfaces. -/
def twoInterfaces : Job ℚ where
  info := { name := "web",
            netInfo := [⟨"eth0", 0, 0, 0, 0, 0, 0, 0, 0⟩, ⟨"eth1", 0, 0, 0, 0, 0, 0, 0, 0⟩] }
  now := 0
  connection := .connected

/-- The two rows of one report straddle the boundary between pages of one row, and both pages may
show the same of them. -/
theorem pages_miss_a_row :
    ¬ ∀ (tables : String → SqlTable ℚ) (serverName : String) (range : TimeRange) (pageSize : Int32),
      1 ≤ pageSize →
      exactMysql.netDetail.PagesCover exactMysql tables serverName range pageSize := by
  intro hclaim
  let tables := tablesOf (processData earlyEnv 0 {} twoInterfaces).2 (by decide +kernel)
  have halike := DetailQuery.pagesCover_iff.1 (hclaim tables "web" ⟨0, 0⟩ 1 (by decide))
  have hsame := halike ⟨1970, 1, 1, 0, 0, 0⟩ ⟨1, by decide +kernel, by decide +kernel⟩
  have htime : ∀ row ∈ exactMysql.netDetail.matching exactMysql tables "web" ⟨0, 0⟩,
      row.timestamp = ⟨1970, 1, 1, 0, 0, 0⟩ := by decide +kernel
  have hnames : (exactMysql.netDetail.matching exactMysql tables "web" ⟨0, 0⟩).map
      (fun row => (exactMysql.netDetail.record row).netName) = ["eth0", "eth1"] := by
    decide +kernel
  obtain ⟨a, ha, hname⟩ := List.mem_map.1 (hnames ▸ List.mem_cons_self)
  obtain ⟨b, hb, hname'⟩ := List.mem_map.1
    (hnames ▸ List.mem_cons_of_mem "eth0" List.mem_cons_self)
  have heq := congrArg NetDetailRecord.netName (hsame a ha b hb (htime a ha) (htime b hb))
  rw [hname, hname'] at heq
  exact absurd heq (by decide)

end MonitorSystem
