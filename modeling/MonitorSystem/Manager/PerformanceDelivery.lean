import MonitorSystem.Manager.TimeRanges

/-!
# From the table to the response

A value of `server_performance` passes four places before `QueryPerformance` has delivered it: the
list of columns in the statement, the loop that reads a row by position, the record of the manager
and the copy into the message.  Seven columns get lost on the way.  `records_as_stored_iff` says
when the response is right all the same.
-/

namespace MonitorSystem

open Paging (Arrangement)
open QueryManager QueryService
open TimeRanges (noRecords)

namespace PerformanceDelivery

variable {F : Type} [CxxFloat F]

/-! ### What is stored -/

/-- What a row has in a `FLOAT` column, as the query functions read it back when they fetch that
column (`Mysql.readFloat`); a `NULL` counts as zero. -/
def stored (db : Mysql F) (row : SqlRow F) (column : String) : F := db.readFloat (row.value column)

/-- The message that has in every field what the row has in the column of that name. -/
def storedRecord (db : Mysql F) (row : SqlRow F) : Proto.PerformanceRecord F where
  serverName := row.serverName
  timestamp := setTimestamp (db.parseTime row.timestamp)
  cpuPercent := stored db row "cpu_percent"
  usrPercent := stored db row "usr_percent"
  systemPercent := stored db row "system_percent"
  nicePercent := stored db row "nice_percent"
  idlePercent := stored db row "idle_percent"
  ioWaitPercent := stored db row "io_wait_percent"
  irqPercent := stored db row "irq_percent"
  softIrqPercent := stored db row "soft_irq_percent"
  loadAvg1 := stored db row "load_avg_1"
  loadAvg3 := stored db row "load_avg_3"
  loadAvg15 := stored db row "load_avg_15"
  memUsedPercent := stored db row "mem_used_percent"
  memTotal := stored db row "total"
  memFree := stored db row "free"
  memAvail := stored db row "avail"
  diskUtilPercent := stored db row "disk_util_percent"
  sendRate := stored db row "send_rate"
  rcvRate := stored db row "rcv_rate"
  score := stored db row "score"
  cpuPercentRate := stored db row "cpu_percent_rate"
  usrPercentRate := stored db row "usr_percent_rate"
  systemPercentRate := stored db row "system_percent_rate"
  ioWaitPercentRate := stored db row "io_wait_percent_rate"
  loadAvg1Rate := stored db row "load_avg_1_rate"
  loadAvg3Rate := stored db row "load_avg_3_rate"
  loadAvg15Rate := stored db row "load_avg_15_rate"
  memUsedPercentRate := stored db row "mem_used_percent_rate"
  diskUtilPercentRate := stored db row "disk_util_percent_rate"
  sendRateRate := stored db row "send_rate_rate"
  rcvRateRate := stored db row "rcv_rate_rate"

/-- The columns that get lost: five that the statement does not select, and two that are read into
the record of the manager but not copied into the message. -/
def lostColumns : List String :=
  ["usr_percent_rate", "system_percent_rate", "io_wait_percent_rate", "load_avg_3_rate",
    "load_avg_15_rate", "send_rate_rate", "rcv_rate_rate"]

/-! ### A call of the RPC -/

/-- A valid request, the content of the table, and an order in which MySQL may list the rows of the
server in the time range. -/
structure Selection (F : Type) [CxxFloat F] where
  db : Mysql F
  table : SqlTable F
  request : Proto.QueryPerformanceRequest
  valid : validateTimeRange (convertTimeRange request.timeRange) = true
  listed : List (SqlRow F)
  arrangement : Arrangement (fun row => OrderDual.toDual row.timestamp)
    (matchingRows db request.serverName (convertTimeRange request.timeRange) table) listed

namespace Selection

variable (selection : Selection F)

/-- `page`, as the manager receives it. -/
def page : Int32 := normalizePage selection.request.pagination.page

/-- `page_size`, as the manager receives it. -/
def pageSize : Int32 := normalizePageSize selection.request.pagination.pageSize

/-- The statement for the page. -/
def statement : Statement :=
  pageSql selection.db.localtime (columnsText performanceColumns) "server_performance".toList
    selection.request.serverName (convertTimeRange selection.request.timeRange)
    (normalizePage selection.page) (normalizePageSize selection.pageSize)

/-- The rows of the page; `none` if the statement fails. -/
def rows? : Option (List (SqlRow F)) :=
  limitOffset (normalizePage selection.page) (normalizePageSize selection.pageSize)
    selection.listed

/-- The rows that are selected. -/
def selected : List (SqlRow F) := selection.rows?.getD []

end Selection

/-- A call of `QueryPerformance` at the time `now`, which MySQL answers with the selected rows. -/
structure Call (F : Type) [CxxFloat F] extends Selection F where
  now : ℤ
  world : World F
  answered : world.select toSelection.statement =
    toSelection.rows?.map (·.map (SqlRow.fetch performanceColumns))
  queryManager : QueryFunctions F
  queryPerformance_eq :
    queryManager.queryPerformance = db.performance.run db.localtime world true now

/-- The status and the response. -/
def Call.reply (call : Call F) : Status × Proto.PageResponse (Proto.PerformanceRecord F) :=
  queryPerformance (some call.queryManager) call.request

/-! ### What is delivered -/

/-- What becomes of a row. -/
def delivered (db : Mysql F) (row : SqlRow F) : Proto.PerformanceRecord F :=
  performanceRecord (db.performance.record row)

/-- A row is delivered as it is stored, but for the columns that get lost. -/
theorem delivered_eq (db : Mysql F) (row : SqlRow F) : delivered db row =
    { storedRecord db row with
      usrPercentRate := 0, systemPercentRate := 0, ioWaitPercentRate := 0, loadAvg3Rate := 0,
      loadAvg15Rate := 0, sendRateRate := 0, rcvRateRate := 0 } :=
  rfl

theorem delivered_eq_storedRecord_iff (db : Mysql F) (row : SqlRow F) :
    delivered db row = storedRecord db row ↔ ∀ column ∈ lostColumns, stored db row column = 0 := by
  rw [delivered_eq]
  constructor
  · intro heq column hcolumn
    have hfield (field : Proto.PerformanceRecord F → F) := congrArg field heq
    simp only [lostColumns, List.mem_cons, List.not_mem_nil, or_false] at hcolumn
    rcases hcolumn with rfl | rfl | rfl | rfl | rfl | rfl | rfl
    · exact (hfield (·.usrPercentRate)).symm
    · exact (hfield (·.systemPercentRate)).symm
    · exact (hfield (·.ioWaitPercentRate)).symm
    · exact (hfield (·.loadAvg3Rate)).symm
    · exact (hfield (·.loadAvg15Rate)).symm
    · exact (hfield (·.sendRateRate)).symm
    · exact (hfield (·.rcvRateRate)).symm
  · intro hzero
    simp only [lostColumns, List.forall_mem_cons] at hzero
    obtain ⟨husr, hsystem, hioWait, hload3, hload15, hsend, hrcv, -⟩ := hzero
    rw [storedRecord, husr, hsystem, hioWait, hload3, hload15, hsend, hrcv]

/-- The manager returns the records of the selected rows. -/
theorem Call.queryPerformance_fst (call : Call F) :
    (call.queryManager.queryPerformance call.request.serverName
      (convertTimeRange call.request.timeRange) call.page call.pageSize).1 =
      call.selected.map call.db.performance.record := by
  have hselect : call.world.select (pageSql call.db.localtime
      (columnsText call.db.performance.columns) call.db.performance.table.toList
      call.request.serverName (convertTimeRange call.request.timeRange)
      (normalizePage call.page) (normalizePageSize call.pageSize)) = _ := call.answered
  have hread (row : SqlRow F) : call.db.performance.read call.now
      (SqlRow.fetch performanceColumns row) = call.db.performance.record row :=
    call.db.performance.read_fetch call.now row
  rw [call.queryPerformance_eq]
  unfold DetailQuery.run Selection.selected
  simp only [Bool.not_true, Bool.false_eq_true, if_false, call.valid, hselect]
  rw [DetailQuery.page_of_valid call.valid]
  cases call.rows? with
  | none => rfl
  | some rows => simp [hread]

/-- The response has a record for each selected row, in order. -/
theorem Call.records_reply (call : Call F) :
    call.reply.2.records = call.selected.map (delivered call.db) := by
  have hmanager := call.queryPerformance_fst
  unfold Selection.page Selection.pageSize at hmanager
  rw [Call.reply, QueryService.queryPerformance, records_pageRpc _ _ _ call.valid, hmanager,
    List.map_map]
  rfl

/-- **From the table to the response.**  For every content of the table and every valid request:
the records of the response have in every field what the selected rows, in order, have in the column
of that name, if and only if the columns that get lost are zero in all of these rows. -/
theorem records_as_stored_iff (call : Call F) :
    call.reply.2.records = call.selected.map (storedRecord call.db) ↔
      ∀ row ∈ call.selected, ∀ column ∈ lostColumns, stored call.db row column = 0 := by
  rw [call.records_reply, List.map_inj_left]
  exact forall₂_congr fun row _ => delivered_eq_storedRecord_iff call.db row

/-! ### A rate that is not zero -/

/-- A row of the host `web` that has 1 in every column with a number. -/
def allOnes : SqlRow ℚ where
  serverName := "web"
  timestamp := ⟨1970, 1, 1, 0, 0, 0⟩
  other _ := some (.float 1)

/-- The request for the first page of the host `web`, when that row is all there is. -/
def onlyRow : Selection ℚ where
  db := exactMysql
  table := ⟨[allOnes], by decide⟩
  request := { serverName := "web" }
  valid := by decide
  listed := [allOnes]
  arrangement := by
    have hrows : matchingRows exactMysql "web" (convertTimeRange {}) ⟨[allOnes], by decide⟩ =
        [allOnes] := by
      rw [matchingRows, if_pos (by decide), List.filter_cons_of_pos (by decide), List.filter_nil]
    exact ⟨by rw [hrows], List.pairwise_singleton _ _⟩

/-- A MySQL server that answers every selection with that row. -/
def onlyRowWorld : World ℚ where
  select _ := onlyRow.rows?.map (·.map (SqlRow.fetch performanceColumns))
  count _ := some 1

theorem select_onlyRowWorld (statement : Statement) : onlyRowWorld.select statement =
    onlyRow.rows?.map (·.map (SqlRow.fetch performanceColumns)) :=
  rfl

/-- The manager of that server, at the time 0. -/
def onlyRowManager : QueryFunctions ℚ :=
  { noRecords with
    queryPerformance := exactMysql.performance.run exactMysql.localtime onlyRowWorld true 0 }

/-- The call. -/
def onlyRowCall : Call ℚ where
  toSelection := onlyRow
  now := 0
  world := onlyRowWorld
  answered := select_onlyRowWorld _
  queryManager := onlyRowManager
  queryPerformance_eq := rfl

/-- Seven rates of this row are delivered as 0, although 1 is stored. -/
theorem rates_lost : ¬ ∀ call : Call ℚ,
    (∀ row ∈ call.table.rows, ∀ column, row.value column ≠ none) →
    call.reply.2.records = call.selected.map (storedRecord call.db) := by
  intro hclaim
  have hrecords := hclaim onlyRowCall (by
    intro row hrow column
    obtain rfl := List.mem_singleton.1 hrow
    unfold SqlRow.value
    split_ifs <;> simp [allOnes])
  rw [onlyRowCall.records_reply, List.map_inj_left] at hrecords
  have hrow : allOnes ∈ onlyRowCall.selected := List.mem_singleton_self _
  have hzero := (delivered_eq_storedRecord_iff _ _).1 (hrecords allOnes hrow) "send_rate_rate"
    (by decide)
  exact absurd hzero (by decide +kernel)

end PerformanceDelivery

end MonitorSystem
