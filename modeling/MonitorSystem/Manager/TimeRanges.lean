import MonitorSystem.Manager.QueryService

/-!
# Time ranges of requests

A timestamp of a message may lie anywhere between the years 1 and 9999.  `ConvertTimeRange` counts
its seconds in nanoseconds before anything is compared, and 64 bits of nanoseconds reach from 1677
to 2262 only.  `time_range_exact_iff` says which requests are compared as they should be.
-/

namespace MonitorSystem

open QueryManager QueryService

namespace TimeRanges

/-- The seconds that a timestamp of a message may have. -/
def Legal (t : Proto.Timestamp) : Prop :=
  -62135596800 ≤ t.seconds.toInt ∧ t.seconds.toInt ≤ 253402300799

instance (t : Proto.Timestamp) : Decidable (Legal t) := inferInstanceAs (Decidable (_ ∧ _))

/-- The seconds of which the nanoseconds fit into 64 bits. -/
def Fits (t : Proto.Timestamp) : Prop :=
  -9223372036 ≤ t.seconds.toInt ∧ t.seconds.toInt ≤ 9223372036

instance (t : Proto.Timestamp) : Decidable (Fits t) := inferInstanceAs (Decidable (_ ∧ _))

variable {F : Type} [CxxFloat F]

/-- The conversion is exact, and every RPC with a time range answers `INVALID_ARGUMENT` if and only
if the range is reversed. -/
structure Exact (q : QueryFunctions F) (range : Proto.TimeRange) : Prop where
  startTime : (convertTimeRange range).startTime = range.startTime.seconds.toInt * 1000000000
  endTime : (convertTimeRange range).endTime = range.endTime.seconds.toInt * 1000000000
  performance : ∀ request : Proto.QueryPerformanceRequest, request.timeRange = range →
    ((queryPerformance (some q) request).1.code = .invalidArgument ↔
      range.endTime.seconds < range.startTime.seconds)
  trend : ∀ request : Proto.QueryTrendRequest, request.timeRange = range →
    ((queryTrend (some q) request).1.code = .invalidArgument ↔
      range.endTime.seconds < range.startTime.seconds)
  anomaly : ∀ request : Proto.QueryAnomalyRequest F, request.timeRange = range →
    ((queryAnomaly (some q) request).1.code = .invalidArgument ↔
      range.endTime.seconds < range.startTime.seconds)
  netDetail : ∀ request : Proto.QueryDetailRequest, request.timeRange = range →
    ((queryNetDetail (some q) request).1.code = .invalidArgument ↔
      range.endTime.seconds < range.startTime.seconds)
  diskDetail : ∀ request : Proto.QueryDetailRequest, request.timeRange = range →
    ((queryDiskDetail (some q) request).1.code = .invalidArgument ↔
      range.endTime.seconds < range.startTime.seconds)
  memDetail : ∀ request : Proto.QueryDetailRequest, request.timeRange = range →
    ((queryMemDetail (some q) request).1.code = .invalidArgument ↔
      range.endTime.seconds < range.startTime.seconds)
  softIrqDetail : ∀ request : Proto.QueryDetailRequest, request.timeRange = range →
    ((querySoftIrqDetail (some q) request).1.code = .invalidArgument ↔
      range.endTime.seconds < range.startTime.seconds)

/-! ### Nanoseconds in 64 bits -/

/-- The product of the conversion, which wraps around. -/
theorem toInt_fromTimeT (t : Int64) :
    (fromTimeT t).toInt = (t.toInt * 1000000000).bmod (2 ^ 64) := by
  rw [fromTimeT, Int64.toInt_mul]
  rfl

/-- A timestamp is converted exactly if and only if its nanoseconds fit. -/
theorem toInt_fromTimeT_eq_iff (t : Proto.Timestamp) :
    (fromTimeT t.seconds).toInt = t.seconds.toInt * 1000000000 ↔ Fits t := by
  rw [toInt_fromTimeT]
  constructor
  · intro heq
    have hlow := Int.le_bmod (x := t.seconds.toInt * 1000000000) (m := 2 ^ 64) (by decide)
    have hhigh := Int.bmod_lt (x := t.seconds.toInt * 1000000000) (m := 2 ^ 64) (by decide)
    rw [heq] at hlow hhigh
    unfold Fits
    omega
  · intro hfits
    unfold Fits at hfits
    exact Int.bmod_eq_of_le (by omega) (by omega)

/-- The comparison of nanoseconds is that of seconds when both conversions are exact. -/
theorem validateTimeRange_iff {range : Proto.TimeRange} (hstart : Fits range.startTime)
    (hend : Fits range.endTime) : validateTimeRange (convertTimeRange range) = false ↔
      range.endTime.seconds < range.startTime.seconds := by
  rw [validateTimeRange, convertTimeRange, (toInt_fromTimeT_eq_iff _).2 hstart,
    (toInt_fromTimeT_eq_iff _).2 hend, decide_eq_false_iff_not, Int64.lt_iff_toInt_lt]
  dsimp only
  omega

/-- **Time ranges.**  For all timestamps, in particular for all legal ones: both are converted
without overflow, and the RPCs refuse the range if and only if it is reversed, exactly when both
lie within 9223372036 seconds of the epoch. -/
theorem time_range_exact_iff (q : QueryFunctions F) (range : Proto.TimeRange) :
    Exact q range ↔ Fits range.startTime ∧ Fits range.endTime := by
  constructor
  · intro hexact
    exact ⟨(toInt_fromTimeT_eq_iff _).1 hexact.startTime,
      (toInt_fromTimeT_eq_iff _).1 hexact.endTime⟩
  · rintro ⟨hstart, hend⟩
    have hvalid := validateTimeRange_iff hstart hend
    refine ⟨(toInt_fromTimeT_eq_iff _).2 hstart, (toInt_fromTimeT_eq_iff _).2 hend, ?_, ?_, ?_, ?_,
      ?_, ?_, ?_⟩
    all_goals rintro request rfl
    case refine_2 => exact (code_queryTrend_iff q request).trans hvalid
    all_goals exact (code_pageRpc_iff _ _ q _ _).trans hvalid

/-- From the epoch to the end of the year 9999. -/
def untilTheEnd : Proto.TimeRange where
  endTime := { seconds := 253402300799 }

/-- A `QueryManager` that finds nothing. -/
def noRecords : QueryFunctions F where
  queryPerformance _ _ _ _ := ([], 0)
  queryTrend _ _ _ := []
  queryAnomaly _ _ _ _ _ := ([], 0)
  queryScoreRank _ _ _ := ([], 0)
  queryLatestScore := ([], ⟨0, 0, 0, 0, 0, 0, "", ""⟩)
  queryNetDetail _ _ _ _ := ([], 0)
  queryDiskDetail _ _ _ _ := ([], 0)
  queryMemDetail _ _ _ _ := ([], 0)
  querySoftIrqDetail _ _ _ _ := ([], 0)

/-- A range that is open towards the future is refused as if it were reversed. -/
theorem open_range_refused : ¬ ∀ (q : QueryFunctions ℚ) (range : Proto.TimeRange),
    Legal range.startTime → Legal range.endTime → Exact q range := by
  intro hclaim
  have hexact := hclaim noRecords untilTheEnd (by decide) (by decide)
  have hrefused := (hexact.performance { timeRange := untilTheEnd } rfl).1
    ((code_pageRpc_iff _ _ _ _ _).2 (by decide))
  exact absurd hrefused (by decide)

end TimeRanges

end MonitorSystem
