import MonitorSystem.Manager.PageOffsets

/-!
# The details of a report

`WriteToMysql` leaves a row of every interface and CPU of a report and one of its memory, and RPCs
read these rows page by page.  Its statements about the disks fail, and the RPC that reads their
table finds nothing.  The four tables differ in the devices, the statement and the message:
`DetailTable` has what they share.

A client that asks for one page after the other is a `DetailReader`.
-/

namespace MonitorSystem

open ClockText (Tm)
open CxxFloat (toFloat)
open Paging (Arrangement)
open QueryManager QueryService

/-! ### The rows of a report -/

theorem storedRows_append {F : Type} (l m : List (Insert F)) (table : String) :
    storedRows (l ++ m) table = storedRows l table ++ storedRows m table := by
  rw [storedRows, List.filter_append, List.filter_append, List.filterMap_append]
  rfl

theorem storedRows_cons {F : Type} {statement : Insert F} {row : SqlRow F}
    (hparses : statement.Parses) (hrow : statement.row = some row) (l : List (Insert F)) :
    storedRows (statement :: l) statement.table = row :: storedRows l statement.table := by
  rw [storedRows, List.filter_cons, if_pos (beq_self_eq_true _), List.filter_cons,
    if_pos (decide_eq_true hparses), List.filterMap_cons_some hrow]
  rfl

theorem storedRows_cons_of_ne {F : Type} {statement : Insert F} {table : String}
    (hne : statement.table ≠ table) (l : List (Insert F)) :
    storedRows (statement :: l) table = storedRows l table := by
  rw [storedRows, List.filter_cons, if_neg (mt beq_iff_eq.1 hne)]
  rfl

theorem storedRows_eq_nil {F : Type} {l : List (Insert F)} {table : String}
    (h : ∀ statement ∈ l, statement.table = table → ¬ statement.Parses) :
    storedRows l table = [] := by
  have hnone : (l.filter (·.table == table)).filter (fun statement => statement.Parses) = [] := by
    rw [List.filter_eq_nil_iff]
    intro statement hmem hparses
    obtain ⟨hmem, htable⟩ := List.mem_filter.1 hmem
    exact h statement hmem (beq_iff_eq.1 htable) (of_decide_eq_true hparses)
  rw [storedRows, hnone, List.filterMap_nil]

section Loop

variable {F : Type} {A S P : Type} [Zero S] {nameOf : A → String} {sampleOf : A → S}
  {insertOf : A → S → S → Insert F} {table : String} {look : SqlRow F → P} {message : A → P}

/-- A loop over devices leaves one row of each, in order. -/
theorem map_storedRows_writeDetail (htable : ∀ a curr last, (insertOf a curr last).table = table)
    (hparses : ∀ a curr last, (insertOf a curr last).Parses)
    (hrow : ∀ a last, ∃ row, (insertOf a (sampleOf a) last).row = some row ∧ look row = message a)
    (shardIdx : ℕ) (hostName : String) (as : List A) (samples : DeviceMap S) :
    (storedRows (writeDetail nameOf sampleOf insertOf shardIdx hostName as samples).2 table).map
      look = as.map message := by
  induction as generalizing samples with
  | nil => rfl
  | cons a rest ih =>
    obtain ⟨row, hrow, hlook⟩ := hrow a ((samples shardIdx hostName (nameOf a)).getD 0)
    rw [← htable a (sampleOf a) ((samples shardIdx hostName (nameOf a)).getD 0)] at ih ⊢
    simp only [writeDetail]
    rw [storedRows_cons (hparses _ _ _) hrow, List.map_cons, hlook, List.map_cons, ih]

/-- A loop over devices leaves nothing in other tables. -/
theorem storedRows_writeDetail_of_ne {other : String} (hne : table ≠ other)
    (htable : ∀ a curr last, (insertOf a curr last).table = table) (shardIdx : ℕ)
    (hostName : String) (as : List A) (samples : DeviceMap S) :
    storedRows (writeDetail nameOf sampleOf insertOf shardIdx hostName as samples).2 other =
      [] := by
  refine storedRows_eq_nil fun statement hmem hother => ?_
  obtain ⟨a, -, last, rfl⟩ := mem_writeDetail _ hmem
  exact absurd ((htable ..).symm.trans hother) hne

end Loop

section Report

variable (hostName : String) (shardIdx : ℕ) (timeBuf : Tm) (info : MonitorInfo ℚ) (store : Store ℚ)
  {table : String}

/-- The rows of the interfaces in a table. -/
def netRows (table : String) : List (SqlRow ℚ) :=
  storedRows (writeDetail (·.name) netDetailSample (netInsert hostName timeBuf) shardIdx hostName
    info.netInfo store.lastNetSamplesShards).2 table

/-- The rows of the CPUs in a table. -/
def softirqRows (table : String) : List (SqlRow ℚ) :=
  storedRows (writeDetail (·.cpu) softIrqSample (softirqInsert hostName timeBuf) shardIdx hostName
    info.softIrq store.lastSoftirqSamplesShards).2 table

/-- The rows of the memory in a table. -/
def memRows (table : String) : List (SqlRow ℚ) :=
  storedRows (writeMemDetail hostName shardIdx timeBuf info.memInfo store.lastMemSamplesShards).2
    table

/-- The rows of the disks in a table. -/
def diskRows (table : String) : List (SqlRow ℚ) :=
  storedRows (writeDetail (·.name) diskDetailSample (diskInsert hostName timeBuf) shardIdx hostName
    info.diskInfo store.lastDiskSamplesShards).2 table

theorem storedRows_writeDetails (table : String) :
    storedRows (writeDetails hostName shardIdx timeBuf info store).2 table =
      netRows hostName shardIdx timeBuf info store table ++
      softirqRows hostName shardIdx timeBuf info store table ++
      memRows hostName shardIdx timeBuf info store table ++
      diskRows hostName shardIdx timeBuf info store table := by
  rw [netRows, softirqRows, memRows, diskRows, ← storedRows_append, ← storedRows_append,
    ← storedRows_append]
  rfl

variable {hostName shardIdx timeBuf info store}

theorem netRows_of_ne (hne : "server_net_detail" ≠ table) :
    netRows hostName shardIdx timeBuf info store table = [] :=
  storedRows_writeDetail_of_ne hne (fun _ _ _ => rfl) ..

theorem softirqRows_of_ne (hne : "server_softirq_detail" ≠ table) :
    softirqRows hostName shardIdx timeBuf info store table = [] :=
  storedRows_writeDetail_of_ne hne (fun _ _ _ => rfl) ..

theorem memRows_of_ne (hne : "server_mem_detail" ≠ table) :
    memRows hostName shardIdx timeBuf info store table = [] := by
  refine storedRows_eq_nil fun statement hmem hother => ?_
  cases hmemory : info.memInfo with
  | none =>
    rw [hmemory] at hmem
    cases hmem
  | some mem =>
    rw [hmemory] at hmem
    rw [List.mem_singleton.1 hmem] at hother
    exact absurd hother hne

/-- MySQL refuses the statements about the disks. -/
theorem not_parses_diskInsert (disk : DiskInfo ℚ) (curr last : DiskDetailSample ℚ) :
    ¬ (diskInsert hostName timeBuf disk curr last).Parses := by
  rw [Insert.Parses, not_not]
  exact List.mem_of_elem_eq_true rfl

/-- The disks of a report leave no rows at all. -/
theorem diskRows_eq_nil : diskRows hostName shardIdx timeBuf info store table = [] := by
  refine storedRows_eq_nil fun statement hmem _ => ?_
  obtain ⟨disk, -, last, rfl⟩ := mem_writeDetail _ hmem
  exact not_parses_diskInsert disk _ last

end Report

/-! ### What the four tables share -/

/-- A table of details: the query function and the RPC that read it, the devices of a report that
have a row in it, and the message about a device of a host in a report of some second. -/
structure DetailTable (db : Mysql ℚ) (R P D : Type) where
  query : DetailQuery ℚ R
  ask : QueryFunctions ℚ → String → TimeRange → Int32 → Int32 → List R × Int32
  copy : R → P
  rpc : Option (QueryFunctions ℚ) → Proto.QueryDetailRequest → Status × Proto.PageResponse P
  devices : MonitorInfo ℚ → List D
  message : String → Tm → D → P
  rpc_eq : ∀ q request, rpc q request =
    pageRpc (fun q => ask q request.serverName) copy q request.timeRange request.pagination
  ne_performance : query.table ≠ "server_performance"
  rows_eq : ∀ hostName shardIdx timeBuf info store,
    (storedRows (writeDetails hostName shardIdx timeBuf info store).2 query.table).map
      (fun row => copy (query.record row)) = (devices info).map (message hostName timeBuf)

namespace Mysql

variable (db : Mysql ℚ)

/-- What is left of a value that goes through a `FLOAT` column. -/
def throughFloat (x : ℚ) : ℚ := db.readFloat (some (.float x))

/-- What is left of a counter that goes through a `BIGINT` column. -/
def throughUInt64 (n : UInt64) : UInt64 := db.readUInt64 (some (.uint64 n))

/-- What is left of a value that goes through a `BIGINT` column. -/
def throughInt64 (x : ℚ) : Int64 := db.readInt64 (some (.float x))

/-- `server_net_detail`. -/
def netTable : DetailTable db (NetDetailRecord ℚ) (Proto.NetDetailRecord ℚ) (NetInfo ℚ) where
  query := db.netDetail
  ask q := q.queryNetDetail
  copy := netDetailRecord
  rpc := queryNetDetail
  devices info := info.netInfo
  message hostName timeBuf net :=
    { serverName := hostName
      netName := net.name
      timestamp := setTimestamp (db.parseTime timeBuf)
      errIn := db.throughUInt64 net.errIn
      errOut := db.throughUInt64 net.errOut
      dropIn := db.throughUInt64 net.dropIn
      dropOut := db.throughUInt64 net.dropOut
      rcvBytesRate := db.throughFloat net.rcvRate
      sndBytesRate := db.throughFloat net.sendRate
      rcvPacketsRate := db.throughFloat net.rcvPacketsRate
      sndPacketsRate := db.throughFloat net.sendPacketsRate }
  rpc_eq _ _ := rfl
  ne_performance := (by decide : "server_net_detail" ≠ "server_performance")
  rows_eq hostName shardIdx timeBuf info store := by
    have htable : db.netDetail.table = "server_net_detail" := rfl
    rw [htable, storedRows_writeDetails, softirqRows_of_ne (by decide),
      memRows_of_ne (by decide), diskRows_eq_nil, List.append_nil, List.append_nil,
      List.append_nil]
    unfold netRows
    apply map_storedRows_writeDetail
    · exact fun _ _ _ => rfl
    · exact fun _ _ _ => by simp [Insert.Parses, netInsert]
    · exact fun _ _ => ⟨_, rfl, rfl⟩

/-- `server_softirq_detail`. -/
def softirqTable : DetailTable db SoftIrqDetailRecord Proto.SoftIrqDetailRecord (SoftIrq ℚ) where
  query := db.softIrqDetail
  ask q := q.querySoftIrqDetail
  copy := softIrqDetailRecord
  rpc := querySoftIrqDetail
  devices info := info.softIrq
  message hostName timeBuf sirq :=
    { serverName := hostName
      cpuName := sirq.cpu
      timestamp := setTimestamp (db.parseTime timeBuf)
      hi := db.throughInt64 sirq.hi
      timer := db.throughInt64 sirq.timer
      netTx := db.throughInt64 sirq.netTx
      netRx := db.throughInt64 sirq.netRx
      block := db.throughInt64 sirq.block
      sched := db.throughInt64 sirq.sched }
  rpc_eq _ _ := rfl
  ne_performance := (by decide : "server_softirq_detail" ≠ "server_performance")
  rows_eq hostName shardIdx timeBuf info store := by
    have htable : db.softIrqDetail.table = "server_softirq_detail" := rfl
    rw [htable, storedRows_writeDetails, netRows_of_ne (by decide),
      memRows_of_ne (by decide), diskRows_eq_nil, List.nil_append, List.append_nil,
      List.append_nil]
    unfold softirqRows
    apply map_storedRows_writeDetail
    · exact fun _ _ _ => rfl
    · exact fun _ _ _ => by simp [Insert.Parses, softirqInsert]
    · exact fun _ _ => ⟨_, rfl, rfl⟩

/-- `server_mem_detail`. -/
def memTable : DetailTable db (MemDetailRecord ℚ) (Proto.MemDetailRecord ℚ) (MemInfo ℚ) where
  query := db.memDetail
  ask q := q.queryMemDetail
  copy := memDetailRecord
  rpc := queryMemDetail
  devices info := info.memInfo.toList
  message hostName timeBuf mem :=
    { serverName := hostName
      timestamp := setTimestamp (db.parseTime timeBuf)
      total := db.throughFloat mem.total
      free := db.throughFloat mem.free
      avail := db.throughFloat mem.avail
      buffers := db.throughFloat mem.buffers
      cached := db.throughFloat mem.cached
      active := db.throughFloat mem.active
      inactive := db.throughFloat mem.inactive
      dirty := db.throughFloat mem.dirty }
  rpc_eq _ _ := rfl
  ne_performance := (by decide : "server_mem_detail" ≠ "server_performance")
  rows_eq hostName shardIdx timeBuf info store := by
    have htable : db.memDetail.table = "server_mem_detail" := rfl
    rw [htable, storedRows_writeDetails, netRows_of_ne (by decide),
      softirqRows_of_ne (by decide), diskRows_eq_nil, List.nil_append, List.nil_append,
      List.append_nil]
    cases hmemory : info.memInfo with
    | none =>
      rw [memRows, hmemory]
      rfl
    | some mem =>
      rw [memRows, hmemory]
      rfl

/-- `server_disk_detail`, in which no disk leaves a row. -/
def diskTable : DetailTable db (DiskDetailRecord ℚ) (Proto.DiskDetailRecord ℚ) Empty where
  query := db.diskDetail
  ask q := q.queryDiskDetail
  copy := diskDetailRecord
  rpc := queryDiskDetail
  devices _ := []
  message _ _ := Empty.elim
  rpc_eq _ _ := rfl
  ne_performance := (by decide : "server_disk_detail" ≠ "server_performance")
  rows_eq hostName shardIdx timeBuf info store := by
    have htable : db.diskDetail.table = "server_disk_detail" := rfl
    rw [htable, storedRows_writeDetails, netRows_of_ne (by decide),
      softirqRows_of_ne (by decide), memRows_of_ne (by decide), diskRows_eq_nil]
    rfl

end Mysql

section Table

variable {db : Mysql ℚ} {R P D : Type} (t : DetailTable db R P D)

namespace DetailTable

/-- What a client gets of a row. -/
def delivered (row : SqlRow ℚ) : P := t.copy (t.query.record row)

/-- A report leaves a row of each of its devices. -/
theorem map_delivered_processData (env : Env) (thread : ℕ) (store : Store ℚ) {job : Job ℚ}
    (hconn : job.connection = .connected) (hid : serverIdentifier job.info ≠ "") :
    (storedRows (processData env thread store job).2 t.query.table).map t.delivered =
      (t.devices job.info).map
        (t.message (serverIdentifier job.info) (env.localtime (job.now.tdiv 1000000000))) := by
  simp only [processData, if_neg hid, writeToMysql, hconn]
  rw [storedRows_cons_of_ne t.ne_performance.symm]
  exact t.rows_eq ..

end DetailTable

/-! ### Reading page by page -/

/-- A client asks for the pages of the details of a server, from the first on, and each page is
answered in an order of its own. -/
structure DetailReader (tables : String → SqlTable ℚ) (serverName : String)
    (timeRange : Proto.TimeRange) (pageSize : Int32) where
  now : ℕ → ℤ
  world : ℕ → World ℚ
  queryManager : ℕ → QueryFunctions ℚ
  ask_eq : ∀ p, t.ask (queryManager p) = t.query.run db.localtime (world p) true (now p)
  answered : ∀ p, PageAnswer db serverName (convertTimeRange timeRange) t.query.columns
    (tables t.query.table) (normalizePage (Int32.ofNat (p + 1))) (normalizePageSize pageSize)
    ((world p).select (pageSql db.localtime (columnsText t.query.columns) t.query.table.toList
      serverName (convertTimeRange timeRange) (normalizePage (Int32.ofNat (p + 1)))
      (normalizePageSize pageSize)))

namespace DetailReader

variable {t} {tables : String → SqlTable ℚ} {serverName : String} {timeRange : Proto.TimeRange}
  {pageSize : Int32} (reader : DetailReader t tables serverName timeRange pageSize)

/-- The response with page `p`. -/
def reply (p : ℕ) : Status × Proto.PageResponse P :=
  t.rpc (some (reader.queryManager p)) ⟨serverName, timeRange, ⟨Int32.ofNat (p + 1), pageSize⟩⟩

/-- The records of the first `n` responses. -/
def records (n : ℕ) : List P := (List.range n).flatMap fun p => (reader.reply p).2.records

/-- The rows that are asked for. -/
def matching (_ : DetailReader t tables serverName timeRange pageSize) : List (SqlRow ℚ) :=
  t.query.matching db tables serverName (convertTimeRange timeRange)

/-- What MySQL answers. -/
def answer (p : ℕ) : Option (List (MysqlRow ℚ)) :=
  (reader.world p).select (pageSql db.localtime (columnsText t.query.columns)
    t.query.table.toList serverName (convertTimeRange timeRange)
    (normalizePage (Int32.ofNat (p + 1))) (normalizePageSize pageSize))

theorem records_reply (p : ℕ) : (reader.reply p).2.records =
    (t.query.page true (convertTimeRange timeRange) (reader.now p) (reader.answer p)).map
      t.copy := by
  unfold reply
  rw [t.rpc_eq]
  cases hvalid : validateTimeRange (convertTimeRange timeRange) with
  | false => simp [pageRpc, DetailQuery.page, hvalid]
  | true =>
    rw [records_pageRpc _ _ _ hvalid, reader.ask_eq]
    unfold DetailQuery.run
    simp only [Bool.not_true, Bool.false_eq_true, if_false, hvalid,
      PageOffsets.normalizePage_normalizePage, PageOffsets.normalizePageSize_normalizePageSize]
    rfl

/-- A page is cut from an order of the rows; for a reversed range there are none. -/
theorem exists_arrangement_reply (p : ℕ) :
    ∃ l, Arrangement (fun row => OrderDual.toDual row.timestamp) reader.matching l ∧
      (reader.reply p).2.records = ((limitOffset (normalizePage (Int32.ofNat (p + 1)))
        (normalizePageSize pageSize) l).getD []).map t.delivered := by
  obtain ⟨l, harr, hanswer⟩ := reader.answered p
  refine ⟨l, harr, ?_⟩
  have hanswer : reader.answer p = _ := hanswer
  rw [reader.records_reply, hanswer]
  cases hvalid : validateTimeRange (convertTimeRange timeRange) with
  | false =>
    have hnil : l = [] := by
      rw [matchingRows, hvalid] at harr
      exact harr.perm.eq_nil
    rw [hnil, limitOffset]
    split_ifs <;> simp [DetailQuery.page, hvalid]
  | true =>
    rw [DetailQuery.page_of_valid hvalid, List.map_map]
    cases limitOffset (normalizePage (Int32.ofNat (p + 1))) (normalizePageSize pageSize) l with
    | none => rfl
    | some rows =>
      rw [Option.map_some, Option.getD_some, List.map_map]
      exact List.map_congr_left fun row _ => congrArg t.copy (t.query.read_fetch _ _)

/-- A client gets messages of rows that match. -/
theorem exists_of_mem_reply {p : ℕ} {rec : P} (hrec : rec ∈ (reader.reply p).2.records) :
    ∃ row ∈ reader.matching, t.delivered row = rec := by
  obtain ⟨l, harr, hrecords⟩ := reader.exists_arrangement_reply p
  rw [hrecords] at hrec
  obtain ⟨row, hrow, rfl⟩ := List.mem_map.1 hrec
  refine ⟨row, harr.perm.mem_iff.1 ?_, rfl⟩
  cases hcut : limitOffset (normalizePage (Int32.ofNat (p + 1))) (normalizePageSize pageSize) l with
  | none =>
    rw [hcut] at hrow
    cases hrow
  | some rows =>
    rw [hcut] at hrow
    exact (subset_of_limitOffset hcut).1 hrow

/-- A page that has room for all rows has the messages of all of them. -/
theorem records_one_perm
    (hroom : reader.matching.length ≤ (normalizePageSize pageSize).toInt.toNat) :
    (reader.records 1).Perm (reader.matching.map t.delivered) := by
  obtain ⟨l, harr, hrecords⟩ := reader.exists_arrangement_reply 0
  have hcut : limitOffset (normalizePage (Int32.ofNat (0 + 1))) (normalizePageSize pageSize) l =
      some l := by
    have hoffset :
        offset (normalizePage (Int32.ofNat (0 + 1))) (normalizePageSize pageSize) = 0 := by
      rw [show normalizePage (Int32.ofNat (0 + 1)) = 1 by decide, offset, Int32.sub_self,
        Int32.zero_mul]
    rw [limitOffset, hoffset, if_pos (by decide)]
    exact congrArg some (List.take_of_length_le (harr.perm.length_eq.trans_le hroom))
  have hone : reader.records 1 = (reader.reply 0).2.records := List.append_nil _
  rw [hone, hrecords, hcut]
  exact harr.perm.map _

/-- The number of pages, by the count that comes with each of them. -/
def pageTotal (_ : DetailReader t tables serverName timeRange pageSize) : ℕ :=
  t.query.pageTotal db tables serverName (convertTimeRange timeRange) pageSize

theorem records_eq (n : ℕ) : reader.records n = ((List.range n).flatMap fun p =>
    t.query.page true (convertTimeRange timeRange) (reader.now p) (reader.answer p)).map
      t.copy := by
  rw [records, List.map_flatMap]
  exact List.flatMap_congr fun p _ => reader.records_reply p

/-- All pages together are the messages of all rows, if rows with one timestamp that are spread over
a page boundary are alike. -/
theorem records_perm (hties : t.query.TiesAlike db tables serverName (convertTimeRange timeRange)
    pageSize) : (reader.records reader.pageTotal).Perm (reader.matching.map t.delivered) := by
  have hcover := DetailQuery.pagesCover_iff.2 hties reader.now reader.answer
    fun p _ => reader.answered p
  rw [records_eq]
  refine (hcover.map t.copy).trans (List.Perm.of_eq ?_)
  rw [List.map_map]
  rfl

end DetailReader

end Table

end MonitorSystem
