import MonitorSystem.Library.GrowingPages
import MonitorSystem.Manager.PageOffsets
import MonitorSystem.Manager.Trends
import MonitorSystem.System.FleetRecords

/-!
# From a worker to a client

A client reads the records of a server page by page with `QueryPerformance`.  When the table stays
as it is meanwhile, it gets a record of each report of a worker that left a row (`fleet_records`);
when reports keep arriving, it may get some records twice, but none of those that were there at
first is left out (`fleet_records_growing`).

The manager, MySQL and the C library are in one time zone.  A time range is taken in seconds, within
the bound of `time_range_exact_iff`, and a report lies in it by the local second in which it was
processed.
-/

namespace MonitorSystem

namespace FleetRecords

open Fleet (Config)
open PageOffsets (normalizePage_normalizePage normalizePageSize_normalizePageSize)
open PerformanceDelivery (Call delivered)
open QueryManager
open QueryService (convertTimeRange)
open MetricCollector (MemReading Worker memCall)
open TimeRanges (Fits)
open Transition (run run_rel run_append_eq_some)
open Trends (fixedZone greenwich)

variable {cfg : Config}

/-! ### Page by page -/

/-- A client asks for the pages of the records of a server, from the first on; `table p` is what
page `p` finds, and each page is answered in an order of its own. -/
structure Paged (db : Mysql ℚ) (table : ℕ → SqlTable ℚ) (serverName : String)
    (timeRange : Proto.TimeRange) (pageSize : Int32) where
  call : ℕ → Call ℚ
  db_eq : ∀ p, (call p).db = db
  table_eq : ∀ p, (call p).table = table p
  request_eq : ∀ p, (call p).request = ⟨serverName, timeRange, ⟨Int32.ofNat (p + 1), pageSize⟩⟩

namespace Paged

variable {db : Mysql ℚ} {table : ℕ → SqlTable ℚ} {serverName : String}
  {timeRange : Proto.TimeRange} {pageSize : Int32}
  (paged : Paged db table serverName timeRange pageSize)

/-- The rows that page `p` is cut from. -/
def matching (_ : Paged db table serverName timeRange pageSize) (p : ℕ) : List (SqlRow ℚ) :=
  matchingRows db serverName (convertTimeRange timeRange) (table p)

/-- The records of the first `n` responses. -/
def records (n : ℕ) : List (Proto.PerformanceRecord ℚ) :=
  (List.range n).flatMap fun p => (paged.call p).reply.2.records

include paged in
theorem valid : validateTimeRange (convertTimeRange timeRange) = true := by
  have hvalid := (paged.call 0).valid
  rwa [paged.request_eq] at hvalid

theorem arrangement (p : ℕ) :
    Paging.Arrangement (fun row : SqlRow ℚ => OrderDual.toDual row.timestamp) (paged.matching p)
      (paged.call p).listed := by
  have harr := (paged.call p).arrangement
  rwa [paged.request_eq, paged.db_eq, paged.table_eq] at harr

/-- The records of a response are those of rows that match. -/
theorem exists_of_mem_reply {p : ℕ} {rec : Proto.PerformanceRecord ℚ}
    (hrec : rec ∈ (paged.call p).reply.2.records) :
    ∃ row ∈ paged.matching p, rec = delivered db row := by
  rw [(paged.call p).records_reply, paged.db_eq] at hrec
  obtain ⟨row, hrow, rfl⟩ := List.mem_map.1 hrec
  refine ⟨row, (paged.arrangement p).perm.mem_iff.1 ?_, rfl⟩
  unfold PerformanceDelivery.Selection.selected at hrow
  cases hrows : (paged.call p).rows? with
  | none => simp [hrows] at hrow
  | some rows =>
    rw [hrows] at hrow
    exact (subset_of_limitOffset hrows).1 hrow

/-- A response has the records of a page of the rows. -/
theorem records_call {p : ℕ} (hp : p < Paging.pageCount (normalizePageSize pageSize).toInt.toNat
    (paged.matching p).length) :
    (paged.call p).reply.2.records = (Paging.page (normalizePageSize pageSize).toInt.toNat p
      (paged.call p).listed).map (delivered db) := by
  have hlength : (paged.matching p).length < 2 ^ 31 := length_matchingRows_lt ..
  rw [(paged.call p).records_reply, paged.db_eq]
  unfold PerformanceDelivery.Selection.selected PerformanceDelivery.Selection.rows?
    PerformanceDelivery.Selection.page PerformanceDelivery.Selection.pageSize
  rw [paged.request_eq, normalizePage_normalizePage, normalizePageSize_normalizePageSize,
    limitOffset_eq (one_le_normalizePageSize pageSize) hlength hp]
  rfl

theorem records_eq {db : Mysql ℚ} {table : SqlTable ℚ} {serverName : String}
    {timeRange : Proto.TimeRange} {pageSize : Int32}
    (paged : Paged db (fun _ => table) serverName timeRange pageSize) :
    paged.records (Paging.pageCount (normalizePageSize pageSize).toInt.toNat
      (paged.matching 0).length) = (Paging.pages (normalizePageSize pageSize).toInt.toNat
        (Paging.pageCount (normalizePageSize pageSize).toInt.toNat (paged.matching 0).length)
        fun p => (paged.call p).listed).map (delivered db) := by
  rw [records, Paging.pages, List.map_flatMap]
  exact List.flatMap_congr fun p hp => paged.records_call (List.mem_range.1 hp)

end Paged

/-- Pages can always be asked for. -/
theorem exists_paged (db : Mysql ℚ) (table : ℕ → SqlTable ℚ) (serverName : String)
    {timeRange : Proto.TimeRange} (pageSize : Int32)
    (hvalid : validateTimeRange (convertTimeRange timeRange) = true) :
    Nonempty (Paged db table serverName timeRange pageSize) := by
  choose listed harr using fun p => Paging.exists_arrangement
    (fun row : SqlRow ℚ => OrderDual.toDual row.timestamp)
    (matchingRows db serverName (convertTimeRange timeRange) (table p))
  let selection (p : ℕ) : PerformanceDelivery.Selection ℚ :=
    ⟨db, table p, ⟨serverName, timeRange, ⟨Int32.ofNat (p + 1), pageSize⟩⟩, hvalid, listed p,
      harr p⟩
  let world (p : ℕ) : World ℚ :=
    ⟨fun _ => (selection p).rows?.map (·.map (SqlRow.fetch performanceColumns)), fun _ => none⟩
  let queryManager (p : ℕ) : QueryFunctions ℚ :=
    { TimeRanges.noRecords with
      queryPerformance := db.performance.run db.localtime (world p) true 0 }
  exact ⟨⟨fun p => ⟨selection p, 0, world p, rfl, queryManager p, rfl⟩, fun _ => rfl, fun _ => rfl,
    fun _ => rfl⟩⟩

/-! ### The records of a worker -/

/-- No other worker has a name that MySQL takes for that of worker `w`. -/
def Sole (cfg : Config) (db : Mysql ℚ) (w : ℕ) : Prop :=
  ∀ v ≠ w, db.weight (cfg.worker v).identifier ≠ db.weight (cfg.worker w).identifier

/-- The second in which a report was processed, as `ProcessData` writes it. -/
def Recorded.second (cfg : Config) (r : Recorded) : ClockText.Tm :=
  cfg.localtime (r.now.tdiv 1000000000)

/-- The reports of a worker that were processed in a time range, by the local clock, and have left
rows. -/
def State.recordedOf (s : State) (cfg : Config) (w : ℕ) (range : Proto.TimeRange) :
    List Recorded :=
  s.recorded.filter fun r => r.call.unpair.1 = w ∧
    cfg.localtime range.startTime.seconds.toInt ≤ r.second cfg ∧
    r.second cfg ≤ cfg.localtime range.endTime.seconds.toInt

/-- Within the bound a time range comes back in seconds from its conversion. -/
theorem tdiv_convertTimeRange {range : Proto.TimeRange}
    (hfits : Fits range.startTime ∧ Fits range.endTime) :
    (convertTimeRange range).startTime.tdiv 1000000000 = range.startTime.seconds.toInt ∧
      (convertTimeRange range).endTime.tdiv 1000000000 = range.endTime.seconds.toInt := by
  rw [convertTimeRange, (TimeRanges.toInt_fromTimeT_eq_iff _).2 hfits.1,
    (TimeRanges.toInt_fromTimeT_eq_iff _).2 hfits.2]
  exact ⟨Int.mul_tdiv_cancel _ (by decide), Int.mul_tdiv_cancel _ (by decide)⟩

/-- Within the bound a range is valid that is not reversed in seconds. -/
theorem valid_convertTimeRange {range : Proto.TimeRange}
    (hfits : Fits range.startTime ∧ Fits range.endTime)
    (hle : range.startTime.seconds ≤ range.endTime.seconds) :
    validateTimeRange (convertTimeRange range) = true := by
  by_contra hnot
  have hreversed := (TimeRanges.validateTimeRange_iff hfits.1 hfits.2).1 (by simpa using hnot)
  rw [Int64.lt_iff_toInt_lt] at hreversed
  rw [Int64.le_iff_toInt_le] at hle
  omega

section Matching

variable {s : State} (hs : Inv cfg s) {db : Mysql ℚ} (hlocal : db.localtime = cfg.localtime) {w : ℕ}
  (hw : Sole cfg db w) {table : ℕ → SqlTable ℚ} {timeRange : Proto.TimeRange} {pageSize : Int32}
  (paged : Paged db table (cfg.worker w).identifier timeRange pageSize)
  (hfits : Fits timeRange.startTime ∧ Fits timeRange.endTime) {p : ℕ}
  (htable : (table p).rows = performanceRowsOf s.statements)
include hs hlocal hw hfits htable

/-- The rows that a client asks for under the name of a worker are those of its reports. -/
theorem matching_recordedOf :
    List.Forall₂ (RowOf cfg) (s.recordedOf cfg w timeRange) (paged.matching p) := by
  rw [Paged.matching, matchingRows, if_pos paged.valid, htable]
  simp only [State.recordedOf]
  refine List.rel_filter (fun r row hrow => ?_) hs.rows
  have hname : db.weight (cfg.worker r.call.unpair.1).identifier =
      db.weight (cfg.worker w).identifier ↔ r.call.unpair.1 = w :=
    ⟨fun heq => by_contra fun hne => hw _ hne heq, fun heq => by rw [heq]⟩
  show decide _ = true ↔ decide _ = true
  rw [decide_eq_true_iff, decide_eq_true_iff, Matches, hrow.serverName, hrow.timestamp, hname,
    hlocal, (tdiv_convertTimeRange hfits).1, (tdiv_convertTimeRange hfits).2]
  rfl

theorem map_reportRecord :
    (s.recordedOf cfg w timeRange).map (reportRecord db cfg) =
      (paged.matching p).map fun row => withoutRates (delivered db row) := by
  rw [← List.forall₂_eq_eq_eq]
  exact List.rel_map (fun _ _ hrow => (hrow.delivered db).symm)
    (matching_recordedOf hs hlocal hw paged hfits htable)

theorem map_second :
    (s.recordedOf cfg w timeRange).map (·.second cfg) =
      (paged.matching p).map (·.timestamp) := by
  rw [← List.forall₂_eq_eq_eq]
  exact List.rel_map (fun _ _ hrow => hrow.timestamp.symm)
    (matching_recordedOf hs hlocal hw paged hfits htable)

/-- What a client gets is a record of a report. -/
theorem exists_report_of_mem_reply {rec : Proto.PerformanceRecord ℚ}
    (hrec : rec ∈ (paged.call p).reply.2.records) :
    ∃ r ∈ s.recordedOf cfg w timeRange,
      withoutRates rec = reportRecord db cfg r := by
  obtain ⟨row, hrow, rfl⟩ := paged.exists_of_mem_reply hrec
  have hmem := List.mem_map_of_mem (f := fun row => withoutRates (delivered db row)) hrow
  rw [← map_reportRecord hs hlocal hw paged hfits htable] at hmem
  obtain ⟨r, hr, heq⟩ := List.mem_map.1 hmem
  exact ⟨r, hr, heq.symm⟩

end Matching

/-- A recorded report of a worker was sent by it and has been processed by its consumer. -/
theorem sent_of_recorded {s : State} (hs : Inv cfg s) {r : Recorded} (hr : r ∈ s.recorded) {w : ℕ}
    (hw : r.call.unpair.1 = w) : ∃ k < s.fleet.clients.sent w, r.call = Nat.pair w k ∧
      r.call ∈ s.fleet.manager.pipe.handled (cfg.lane w) ∧
      (cfg.worker w).report k = some (cfg.pipeline.report r.call) := by
  subst hw
  obtain ⟨i, hi⟩ := hs.handled r hr
  have hlane : r.call ∈ (Pipeline.laneOf s.fleet.manager.pipe i).contents :=
    FifoLane.mem_contents.2 (.inl hi)
  have hstored := hs.fleet.mem_stored (Pipeline.pushed_of_mem_lane hs.fleet.accounts hlane)
  have hpair : Nat.pair r.call.unpair.1 r.call.unpair.2 = r.call := Nat.pair_unpair r.call
  obtain rfl := hs.fleet.lane_eq (hpair.symm ▸ hlane)
  exact ⟨r.call.unpair.2, hs.fleet.sent hstored, hpair.symm, hi,
    Fleet.report_eq (hs.fleet.isSome hstored)⟩

/-- What a host finds in `/proc/meminfo`: nothing is used in the first call, and almost all in the
later ones. -/
def filling (k : ℕ) : MemReading where
  file := some (if k = 0 then MemMonitor.memFile MemMonitor.Field.all "100"
    else MemMonitor.memFile (MemMonitor.Field.all.filter (· ≠ .avail)) "100" ++
      "MemAvailable: 2 kB\n".toList)
  stale _ := 0
  overZero := 0

/-- Worker 0 is on the host `web`, which fills up, and all others are on the host `db`; the manager
is at Greenwich. -/
def webHost : Config where
  worker w := if w = 0 then Worker.onlyMem "web" [] filling else Worker.plain "db" []
  hash _ := 0
  requested := 1
  localtime := greenwich.localtime

theorem readable_webHost (k : ℕ) : (webHost.worker 0).Readable k := by
  have hfile : ((webHost.worker 0).readings k).mem = filling k := rfl
  rw [Worker.readable_iff, hfile, MemMonitor.readLines_words, filling]
  by_cases hk : k = 0
  · rw [if_pos hk]
    decide +kernel
  · rw [if_neg hk]
    decide +kernel

theorem exists_report_webHost (k : ℕ) : ∃ mem, memCall (filling k) = .ok mem ∧
    (webHost.worker 0).report k = some ((webHost.worker 0).assembled k mem) ∧
    webHost.pipeline.report (Nat.pair 0 k) = (webHost.worker 0).assembled k mem := by
  obtain ⟨mem, hmem⟩ := (readable_webHost k).exists_mem
  have hreport := Worker.report_of_readable _ (fun j _ => readable_webHost j) hmem
  refine ⟨mem, hmem, hreport, ?_⟩
  show ((webHost.worker (Nat.pair 0 k).unpair.1).report (Nat.pair 0 k).unpair.2).getD {} = _
  rw [Nat.unpair_pair, hreport, Option.getD_some]

theorem accepted_webHost {k : ℕ} {info : MonitorInfo ℚ}
    (hreport : (webHost.worker 0).report k = some info) : Accepted info := by
  rw [(Worker.identity_of_report hreport).2.2.2]
  decide

/-- A report of the host makes two statements. -/
theorem statementCount_webHost (k : ℕ) :
    statementCount (webHost.pipeline.report (Nat.pair 0 k)) = 2 := by
  obtain ⟨mem, -, hreport, hinfo⟩ := exists_report_webHost k
  obtain ⟨hnet, hsoftirq, hdisk⟩ := Worker.devices_of_report_onlyMem hreport
  rw [hinfo, statementCount, hnet, hsoftirq, hdisk]
  rfl

/-- The first `n` calls of the host go through, ten seconds apart. -/
theorem exists_run_webHost (n : ℕ) : ∃ es s, run (step webHost) (start webHost) es = some s ∧
    Quiet webHost 0 n s.fleet ∧
    s.recorded = (List.range n).map fun k => ⟨Nat.pair 0 k, 10000000000 * k⟩ := by
  refine exists_run_wholeCalls webHost 0 (fun k => 10000000000 * k) n fun k _ => ?_
  obtain ⟨mem, -, hreport, -⟩ := exists_report_webHost k
  exact ⟨_, hreport, accepted_webHost hreport⟩

theorem length_statements_webHost {es : List Fleet.Event} {s : State}
    (hrun : run (step webHost) (start webHost) es = some s) {n : ℕ} {time : ℕ → ℤ}
    (hrecorded : s.recorded = (List.range n).map fun k => ⟨Nat.pair 0 k, time k⟩) :
    s.statements.length = 2 * n := by
  rw [length_statements hrun, hrecorded, List.map_map]
  have hcount : ((fun r : Recorded => statementCount (webHost.pipeline.report r.call)) ∘
      fun k => ⟨Nat.pair 0 k, time k⟩) = fun _ => 2 := funext fun k => statementCount_webHost k
  rw [hcount, List.map_const', List.sum_replicate, List.length_range, smul_eq_mul, mul_comm]

theorem sole_webHost : Sole webHost greenwich 0 := by
  intro v hv
  have hworker : webHost.worker v = Worker.plain "db" [] := if_neg hv
  rw [hworker]
  decide

/-- The first minute of 1970. -/
def oneMinute : Proto.TimeRange := ⟨⟨0, 0⟩, ⟨60, 0⟩⟩

theorem fits_oneMinute : Fits oneMinute.startTime ∧ Fits oneMinute.endTime := by decide

theorem second_webHost (c k : ℕ) :
    Recorded.second webHost ⟨c, 10000000000 * k⟩ = CivilCalendar.ofSeconds (10 * k) := by
  have hsecond : (10000000000 * (k : ℤ)).tdiv 1000000000 = 10 * k := by
    rw [Int.tdiv_eq_ediv_of_nonneg (by omega)]
    omega
  show CivilCalendar.ofSeconds ((10000000000 * (k : ℤ)).tdiv 1000000000 + 0) = _
  rw [hsecond, add_zero]

section WebHost

variable {s : State} {n : ℕ}
  (hrecorded : s.recorded = (List.range n).map fun k => ⟨Nat.pair 0 k, 10000000000 * k⟩)
include hrecorded

/-- The first seven reports of the host lie in that minute. -/
theorem recordedOf_oneMinute (hn : n ≤ 7) : s.recordedOf webHost 0 oneMinute = s.recorded := by
  rw [State.recordedOf, List.filter_eq_self, hrecorded]
  intro r hr
  obtain ⟨k, hk, rfl⟩ := List.mem_map.1 hr
  have hlt := List.mem_range.1 hk
  have hmono := CivilCalendar.ofSeconds_strictMono.monotone
  rw [decide_eq_true_iff, Nat.unpair_pair, second_webHost]
  refine ⟨rfl, hmono ?_, hmono ?_⟩
  · show (0 : ℤ) + 0 ≤ 10 * k
    omega
  · show (10 : ℤ) * k ≤ 60 + 0
    omega

theorem pairwise_second_webHost :
    s.recorded.Pairwise fun a b => a.second webHost < b.second webHost := by
  rw [hrecorded, List.pairwise_map]
  refine List.pairwise_lt_range.imp fun {k k'} hlt => ?_
  rw [second_webHost, second_webHost]
  exact CivilCalendar.ofSeconds_strictMono (by omega)

end WebHost

/-- Statements are only added. -/
theorem statements_prefix {s s' : State} {es : List Fleet.Event}
    (hrun : run (step cfg) s es = some s') : s.statements <+: s'.statements := by
  refine run_rel (R := fun s s' : State => s.statements <+: s'.statements)
    (fun _ => List.prefix_refl _) (fun h h' => h.trans h') (fun s e s' h => ?_) hrun
  obtain ⟨fleet, -, rfl⟩ := Option.map_eq_some_iff.1 h
  exact List.prefix_append _ _

/-- The states in which a client asks for its pages: a run goes on from page to page. -/
structure Timeline (cfg : Config) (s : ℕ → State) : Prop where
  first : ∃ es, run (step cfg) (start cfg) es = some (s 0)
  next : ∀ p, ∃ es, run (step cfg) (s p) es = some (s (p + 1))

theorem Timeline.inv {s : ℕ → State} (h : Timeline cfg s) (p : ℕ) : Inv cfg (s p) := by
  induction p with
  | zero =>
    obtain ⟨es, hrun⟩ := h.first
    exact inv_run hrun
  | succ p ih =>
    obtain ⟨es, hrun⟩ := h.next p
    exact Transition.run_invariant (fun _ _ _ => inv_step) hrun ih

section Growing

variable {s : ℕ → State} (hline : Timeline cfg s) {db : Mysql ℚ}
  (hlocal : db.localtime = cfg.localtime) {w : ℕ} (hw : Sole cfg db w) {table : ℕ → SqlTable ℚ}
  (htable : ∀ p, (table p).rows = performanceRowsOf (s p).statements)
  {timeRange : Proto.TimeRange} (hfits : Fits timeRange.startTime ∧ Fits timeRange.endTime)
  {pageSize : Int32} (paged : Paged db table (cfg.worker w).identifier timeRange pageSize)
  (hclock : ∀ p, ((s p).recordedOf cfg w timeRange).Pairwise
    fun a b => a.second cfg < b.second cfg)
include hline hlocal hw htable hfits hclock

/-- The rows that match stand in the order of their times. -/
theorem pairwise_matching (p : ℕ) :
    (paged.matching p).Pairwise fun a b => a.timestamp < b.timestamp := by
  rw [← List.pairwise_map (f := fun row : SqlRow ℚ => row.timestamp) (R := (· < ·)),
    ← map_second (hline.inv p) hlocal hw paged hfits (htable p), List.pairwise_map]
  exact hclock p

/-- Rows that are added match with later times. -/
theorem grows_matching :
    Paging.Grows (fun row : SqlRow ℚ => OrderDual.toDual row.timestamp) paged.matching where
  added p := by
    obtain ⟨es, hrun⟩ := hline.next p
    obtain ⟨new, hnew⟩ := statements_prefix hrun
    have hrows : (table (p + 1)).rows = (table p).rows ++ performanceRowsOf new := by
      rw [htable, htable, ← hnew, performanceRowsOf_append]
    have hmatching : paged.matching (p + 1) = paged.matching p ++
        (performanceRowsOf new).filter fun row =>
          Matches db (cfg.worker w).identifier (convertTimeRange timeRange) row := by
      rw [Paged.matching, Paged.matching, matchingRows, matchingRows, if_pos paged.valid,
        if_pos paged.valid, hrows, List.filter_append]
    have hordered := pairwise_matching hline hlocal hw htable hfits paged hclock (p + 1)
    rw [hmatching] at hordered
    exact ⟨_, hmatching, (List.pairwise_append.1 hordered).2.2⟩
  nodup p := by
    rw [List.Nodup, List.pairwise_map]
    exact (pairwise_matching hline hlocal hw htable hfits paged hclock p).imp fun hlt heq =>
      hlt.ne (OrderDual.toDual.injective heq)

end Growing

/-- **Reading while reports arrive.**  The manager runs on while a client asks for one page after
the other, for a time range below the bound, and every report of the worker is processed in a later
local second than the one before; MySQL does not take the name of the worker for that of another.
Then what the client gets with each page are records of reports, and it gets a record of each report
that had left a row when it asked for its first page, if it goes on until its pages can hold as many
records as there are with its last page. -/
theorem fleet_records_growing (cfg : Config) {s : ℕ → State} (hline : Timeline cfg s)
    (hcap : ∀ p, (s p).statements.length < 2 ^ 31) {zone : Zone}
    (hzone : zone.localtime = cfg.localtime) {mysql : Mysql ℚ} {w : ℕ}
    (hw : Sole cfg (zone.mysql mysql) w) {timeRange : Proto.TimeRange}
    (hfits : Fits timeRange.startTime ∧ Fits timeRange.endTime) {pageSize : Int32}
    (paged : Paged (zone.mysql mysql)
      (fun p => tablesOf (s p).statements (hcap p) "server_performance")
      (cfg.worker w).identifier timeRange pageSize)
    (hclock : ∀ p, ((s p).recordedOf cfg w timeRange).Pairwise
      fun a b => a.second cfg < b.second cfg) :
    (∀ p, ∀ rec ∈ (paged.call p).reply.2.records, ∃ r ∈ (s p).recordedOf cfg w timeRange,
      withoutRates rec = reportRecord (zone.mysql mysql) cfg r) ∧
    ∀ n, ((s n).recordedOf cfg w timeRange).length ≤
        (n + 1) * (normalizePageSize pageSize).toInt.toNat →
      ∀ r ∈ (s 0).recordedOf cfg w timeRange,
        ∃ rec ∈ paged.records (n + 1),
          withoutRates rec = reportRecord (zone.mysql mysql) cfg r := by
  refine ⟨fun p rec hrec =>
    exists_report_of_mem_reply (hline.inv p) hzone hw paged hfits rfl hrec, fun n hend r hr => ?_⟩
  have hgrows := grows_matching hline hzone hw (fun _ => rfl) hfits paged hclock
  have hsize : 0 < (normalizePageSize pageSize).toInt.toNat := by
    have := one_le_normalizePageSize pageSize
    omega
  -- the row of the report, in the list that the first page is cut from
  have hmem := List.mem_map_of_mem (f := reportRecord (zone.mysql mysql) cfg) hr
  rw [map_reportRecord (hline.inv 0) hzone hw paged hfits rfl] at hmem
  obtain ⟨row, hrow, heq⟩ := List.mem_map.1 hmem
  rw [(matching_recordedOf (hline.inv n) hzone hw paged hfits rfl).length_eq,
    ← (paged.arrangement n).perm.length_eq] at hend
  obtain ⟨p, hp, hpage⟩ := Paging.exists_mem_page (hgrows.suffix paged.arrangement) hend
    ((paged.arrangement 0).perm.mem_iff.2 hrow)
  have hreached := Paging.lt_pageCount_of_mem_page hsize hpage
  rw [(paged.arrangement p).perm.length_eq] at hreached
  refine ⟨delivered (zone.mysql mysql) row,
    List.mem_flatMap.2 ⟨p, List.mem_range.2 (by omega), ?_⟩, heq⟩
  rw [paged.records_call hreached]
  exact List.mem_map_of_mem hpage

/-- The first page finds one state, and all later ones find another. -/
def afterOne (s s' : State) : ℕ → State
  | 0 => s
  | _ + 1 => s'

theorem timeline_afterOne {s s' : State} {es es' : List Fleet.Event}
    (hrun : run (step cfg) (start cfg) es = some s) (hrun' : run (step cfg) s es' = some s') :
    Timeline cfg (afterOne s s') where
  first := ⟨es, hrun⟩
  next p := by
    cases p with
    | zero => exact ⟨es', hrun'⟩
    | succ p => exact ⟨[], rfl⟩

/-- A client reads the records of the host one by one, and a third report arrives after its first
page: its three pages have records of the two reports that there were. -/
theorem fleet_records_growing_webHost : ∃ s s', Timeline webHost (afterOne s s') ∧
    ∃ (hcap : ∀ p, (afterOne s s' p).statements.length < 2 ^ 31)
      (paged : Paged greenwich
        (fun p => tablesOf (afterOne s s' p).statements (hcap p) "server_performance")
        (webHost.worker 0).identifier oneMinute 1),
      s.recorded = [⟨Nat.pair 0 0, 0⟩, ⟨Nat.pair 0 1, 10000000000⟩] ∧
      s'.recorded = s.recorded ++ [⟨Nat.pair 0 2, 20000000000⟩] ∧
      ∀ r ∈ s.recorded, ∃ rec ∈ paged.records 3,
        withoutRates rec = reportRecord greenwich webHost r := by
  obtain ⟨es, s, hrun, hquiet, hrecorded⟩ := exists_run_webHost 2
  obtain ⟨mem, -, hreport, -⟩ := exists_report_webHost 2
  obtain ⟨s', hthird, -, hrecorded'⟩ :=
    run_wholeCall hquiet hreport (accepted_webHost hreport) (10000000000 * (2 : ℕ))
  have hall : s'.recorded = (List.range 3).map fun k => ⟨Nat.pair 0 k, 10000000000 * k⟩ := by
    rw [hrecorded', hrecorded, List.range_succ, List.map_append]
    rfl
  have hrecords (p : ℕ) : ∃ n ≤ 3, (afterOne s s' p).recorded =
      (List.range n).map fun k => ⟨Nat.pair 0 k, 10000000000 * k⟩ := by
    cases p with
    | zero => exact ⟨2, by decide, hrecorded⟩
    | succ p => exact ⟨3, le_rfl, hall⟩
  have hcap (p : ℕ) : (afterOne s s' p).statements.length < 2 ^ 31 := by
    cases p with
    | zero => exact (length_statements_webHost hrun hrecorded).trans_lt (by decide)
    | succ p =>
      have hrun' := run_append_eq_some.2 ⟨s, hrun, hthird⟩
      exact (length_statements_webHost hrun' hall).trans_lt (by decide)
  have hof (p : ℕ) :
      (afterOne s s' p).recordedOf webHost 0 oneMinute = (afterOne s s' p).recorded := by
    obtain ⟨n, hn, heq⟩ := hrecords p
    exact recordedOf_oneMinute heq (by omega)
  have hclock (p : ℕ) : ((afterOne s s' p).recordedOf webHost 0 oneMinute).Pairwise
      fun a b => a.second webHost < b.second webHost := by
    obtain ⟨n, -, heq⟩ := hrecords p
    rw [hof]
    exact pairwise_second_webHost heq
  obtain ⟨paged⟩ := exists_paged greenwich
    (fun p => tablesOf (afterOne s s' p).statements (hcap p) "server_performance")
    (webHost.worker 0).identifier 1
    (show validateTimeRange (convertTimeRange oneMinute) = true by decide)
  have hzone : (fixedZone 0 (by decide)).localtime = webHost.localtime := rfl
  have hline := timeline_afterOne hrun hthird
  have hgets := (fleet_records_growing webHost hline hcap hzone sole_webHost fits_oneMinute paged
    hclock).2 2 (by rw [hof]; exact (congrArg List.length hall).le)
  rw [hof] at hgets
  exact ⟨s, s', hline, hcap, paged, hrecorded, hrecorded', hgets⟩

end FleetRecords

end MonitorSystem
