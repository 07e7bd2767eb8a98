import MonitorSystem.Manager.HostIsolation
import MonitorSystem.Manager.QueryManager

/-!
# Names in SQL statements

Names that come with a request or with a report are spliced between two quotes as they are.
`names_read_as_meant_iff` says which names MySQL then reads as what they are: those that denote
themselves in a literal.  Any other name changes the statement.
-/

namespace MonitorSystem

open SqlText

/-! ### Texts without quotes -/

theorem isCodeChar_of_isAlphanum {c : Char} (h : c.isAlphanum = true) : isCodeChar c = true := by
  by_contra hcode
  have hc : c = '\'' ∨ c = '\\' ∨ c = '\x00' := by
    simp only [isCodeChar, isPlain, Bool.and_eq_true, decide_eq_true_eq] at hcode
    tauto
  rcases hc with rfl | rfl | rfl <;> exact absurd h (by decide)

theorem codeText_print {F : Type} [CxxFloat F] (x : F) : CodeText (CxxFloat.print x) := by
  intro c hc
  rcases CxxFloat.isFloatChar_print x c hc with h | rfl | rfl | rfl
  · exact isCodeChar_of_isAlphanum h
  all_goals rfl

theorem isCodeChar_of_isNumeric {c : Char} (h : DecimalText.IsNumeric c) :
    isCodeChar c = true := by
  rcases h with h | rfl | rfl | rfl | rfl
  · exact isCodeChar_of_isAlphanum (by simp [Char.isAlphanum, h])
  all_goals rfl

theorem codeText_natText (n : ℕ) : CodeText (DecimalText.natText n) := fun c hc =>
  isCodeChar_of_isNumeric (DecimalText.isNumeric_natText n c hc)

theorem codeText_strftime (t : ClockText.Tm) : CodeText (ClockText.strftime t) := by
  intro c hc
  rcases ClockText.isClockChar_strftime t c hc with h | rfl | rfl
  · exact isCodeChar_of_isNumeric h
  all_goals rfl

theorem verbatim_strftime (t : ClockText.Tm) : verbatim (ClockText.strftime t) = true :=
  verbatim_of_codeText (codeText_strftime t)

namespace QueryManager

/-! ### Queries -/

variable (localtime : ℤ → ClockText.Tm) (serverName : String) (range : TimeRange)

theorem codeText_intText (n : Int32) : CodeText (intText n) := fun c hc =>
  isCodeChar_of_isNumeric (DecimalText.isNumeric_intText n.toInt c hc)

theorem codeText_limit (page pageSize : Int32) :
    CodeText (" ORDER BY timestamp DESC LIMIT ".toList ++ intText pageSize ++
      " OFFSET ".toList ++ intText (offset page pageSize)) := by
  simp only [codeText_append]
  exact ⟨⟨⟨codeText_ofList rfl, codeText_intText _⟩, codeText_ofList rfl⟩, codeText_intText _⟩

/-- A statement about one server is read as it was meant if its name is. -/
theorem readAsMeant_serverAndRange {t : List Char} (ht : CodeText t) {rest : Statement}
    (hrest : ∀ v, WellFormed (.literal v :: rest)) (hcode : ∀ s, .literal s ∉ rest) :
    ReadAsMeant (.code t :: serverAndRange localtime serverName range rest) ↔
      verbatim serverName.toList = true := by
  have hand : WellFormed (.literal (formatTime localtime range.startTime) ::
      .code " AND ".toList :: .literal (formatTime localtime range.endTime) :: rest) :=
    wellFormed_literal_code (codeText_ofList rfl) (by decide) (hrest _) _
  have hwell : WellFormed (.code t :: serverAndRange localtime serverName range rest) :=
    ⟨ht, wellFormed_literal_code (codeText_ofList rfl) (by decide) hand _⟩
  rw [readAsMeant_iff hwell]
  simp [serverAndRange, hcode, formatTime, verbatim_strftime]

theorem readAsMeant_countSql {table : List Char} (htable : CodeText table) :
    ReadAsMeant (countSql localtime table serverName range) ↔
      verbatim serverName.toList = true := by
  refine readAsMeant_serverAndRange _ _ _ ?_ wellFormed_literal_nil (by simp)
  simp only [codeText_append]
  exact ⟨⟨codeText_ofList rfl, htable⟩, codeText_ofList rfl⟩

theorem readAsMeant_pageSql {columns table : List Char} (hcolumns : CodeText columns)
    (htable : CodeText table) (page pageSize : Int32) :
    ReadAsMeant (pageSql localtime columns table serverName range page pageSize) ↔
      verbatim serverName.toList = true := by
  refine readAsMeant_serverAndRange _ _ _ ?_ ?_ (by simp)
  · simp only [codeText_append]
    exact ⟨⟨⟨⟨codeText_ofList rfl, hcolumns⟩, codeText_ofList rfl⟩, htable⟩, codeText_ofList rfl⟩
  · exact wellFormed_literal_code (codeText_limit page pageSize) (by simp) trivial

theorem readAsMeant_aggregatedSql (intervalSeconds : Int32) :
    ReadAsMeant (aggregatedSql localtime serverName range intervalSeconds) ↔
      verbatim serverName.toList = true := by
  refine readAsMeant_serverAndRange _ _ _ ?_ ?_ (by simp)
  · simp only [codeText_append, codeText_intText, and_true]
    repeat' apply And.intro
    all_goals exact codeText_ofList rfl
  · exact wellFormed_literal_code (codeText_ofList rfl) (by decide) trivial

theorem readAsMeant_plainSql :
    ReadAsMeant (plainSql localtime serverName range) ↔ verbatim serverName.toList = true := by
  refine readAsMeant_serverAndRange _ _ _ ?_ ?_ (by simp)
  · simp only [codeText_append]
    exact ⟨⟨⟨⟨⟨codeText_ofList rfl, codeText_ofList rfl⟩, codeText_ofList rfl⟩,
      codeText_ofList rfl⟩, codeText_ofList rfl⟩, codeText_ofList rfl⟩
  · exact wellFormed_literal_code (codeText_ofList rfl) (by decide) trivial

section Anomaly

variable {F : Type} [CxxFloat F] (thresholds : AnomalyThresholds F)

theorem codeText_thresholdClause : CodeText (thresholdClause thresholds) := by
  have hprint (x : F) (t u : List Char) : CodeText (t ++ CxxFloat.print x ++ u) ↔
      CodeText t ∧ CodeText u := by
    rw [codeText_append, codeText_append, and_iff_left (codeText_print x)]
  unfold thresholdClause
  rw [hprint, hprint, hprint, hprint, hprint]
  exact ⟨⟨⟨⟨⟨codeText_ofList rfl, codeText_ofList rfl⟩, codeText_ofList rfl⟩, codeText_ofList rfl⟩,
    codeText_ofList rfl⟩, codeText_ofList rfl⟩

theorem thresholdClause_ne_nil : thresholdClause thresholds ≠ [] := by
  unfold thresholdClause
  exact List.append_ne_nil_of_right_ne_nil _ (by decide)

theorem wellFormed_whereClause {rest : Statement} (hrest : WellFormed rest) :
    WellFormed (whereClause localtime serverName range thresholds ++ rest) := by
  have hthresholds (v : List Char) :
      WellFormed (.literal v :: .code (thresholdClause thresholds) :: rest) :=
    wellFormed_literal_code (codeText_thresholdClause thresholds)
      (thresholdClause_ne_nil thresholds) hrest v
  by_cases hname : serverName = ""
  · simp only [whereClause, hname, ne_eq, not_true_eq_false, if_false, List.append_nil,
      List.cons_append, List.nil_append]
    exact ⟨codeText_ofList rfl,
      wellFormed_literal_code (codeText_ofList rfl) (by decide) (hthresholds _) _⟩
  · simp only [whereClause, hname, ne_eq, not_false_eq_true, if_true, List.cons_append,
      List.nil_append]
    exact ⟨codeText_ofList rfl, wellFormed_literal_code (codeText_ofList rfl) (by decide)
      (wellFormed_literal_code (codeText_ofList rfl) (by decide) (hthresholds _) _) _⟩

/-- A statement about anomalies is read as it was meant if its name is. -/
theorem readAsMeant_whereClause {t : List Char} (ht : CodeText t) {rest : Statement}
    (hrest : WellFormed rest) (hcode : ∀ s, .literal s ∉ rest) :
    ReadAsMeant (.code t :: (whereClause localtime serverName range thresholds ++ rest)) ↔
      verbatim serverName.toList = true := by
  have hwell : WellFormed
      (.code t :: (whereClause localtime serverName range thresholds ++ rest)) :=
    ⟨ht, wellFormed_whereClause localtime serverName range thresholds hrest⟩
  rw [readAsMeant_iff hwell]
  by_cases hname : serverName = ""
  · simp [whereClause, hname, hcode, formatTime, verbatim_strftime, verbatim]
  · simp [whereClause, hname, hcode, formatTime, verbatim_strftime]

end Anomaly

/-- The property of a query function: with a connection and a time range, it depends on the
name. -/
def DependsOnName (statements : List Statement) (connected : Bool) : Prop :=
  (∀ statement ∈ statements, ReadAsMeant statement) ↔
    (connected = true → validateTimeRange range = true → verbatim serverName.toList = true)

variable {localtime serverName range}

theorem dependsOnName_pageQuery {columns table : List Char} (hcolumns : CodeText columns)
    (htable : CodeText table) (connected wantsCount : Bool) (page pageSize : Int32) :
    DependsOnName serverName range
      (pageQuery localtime columns table connected wantsCount serverName range page pageSize)
      connected := by
  unfold DependsOnName pageQuery
  cases connected with
  | false => simp
  | true =>
    cases hrange : validateTimeRange range with
    | false => simp
    | true =>
      have hcount := readAsMeant_countSql localtime serverName range htable
      have hpage := readAsMeant_pageSql localtime serverName range hcolumns htable
        (normalizePage page) (normalizePageSize pageSize)
      cases wantsCount with
      | false => simpa using hpage
      | true => simp [hcount, hpage]

theorem dependsOnName_queryTrend (connected : Bool) (intervalSeconds : Int32) :
    DependsOnName serverName range
      (queryTrend localtime connected serverName range intervalSeconds) connected := by
  unfold DependsOnName queryTrend
  cases connected with
  | false => simp
  | true =>
    cases hrange : validateTimeRange range with
    | false => simp
    | true =>
      by_cases hinterval : 0 < intervalSeconds
      · simpa [hinterval] using
          readAsMeant_aggregatedSql localtime serverName range intervalSeconds
      · simpa [hinterval] using readAsMeant_plainSql localtime serverName range

theorem dependsOnName_queryAnomaly {F : Type} [CxxFloat F] (thresholds : AnomalyThresholds F)
    (connected wantsCount : Bool) (page pageSize : Int32) :
    DependsOnName serverName range
      (queryAnomaly localtime connected wantsCount serverName range thresholds page pageSize)
      connected := by
  unfold DependsOnName queryAnomaly
  cases connected with
  | false => simp
  | true =>
    cases hrange : validateTimeRange range with
    | false => simp
    | true =>
      have hcount := readAsMeant_whereClause localtime serverName range thresholds
        (t := "SELECT COUNT(*) FROM server_performance WHERE ".toList) (codeText_ofList rfl)
        wellFormed_nil (by simp)
      have hselect : CodeText
          ("SELECT server_name, timestamp, cpu_percent, mem_used_percent, ".toList ++
            "disk_util_percent, cpu_percent_rate, mem_used_percent_rate ".toList ++
            "FROM server_performance WHERE ".toList) := by
        simp only [codeText_append]
        exact ⟨⟨codeText_ofList rfl, codeText_ofList rfl⟩, codeText_ofList rfl⟩
      have hlimit : WellFormed [.code (" ORDER BY timestamp DESC LIMIT ".toList ++
          intText (normalizePageSize pageSize) ++ " OFFSET ".toList ++
          intText (offset (normalizePage page) (normalizePageSize pageSize)))] :=
        ⟨codeText_limit _ _, trivial⟩
      have hpage := readAsMeant_whereClause localtime serverName range thresholds hselect hlimit
        (by simp)
      rw [List.append_nil] at hcount
      cases wantsCount with
      | false => simpa using hpage
      | true =>
        simp only [Bool.not_true, Bool.false_eq_true, if_false, if_true, List.cons_append,
          List.nil_append, List.forall_mem_cons, List.not_mem_nil, false_imp_iff, implies_true,
          and_true, forall_const]
        rw [hcount, hpage, and_self]

/-- The statements of a query are read as they were meant if and only if its name is. -/
theorem dependsOnName_query {F : Type} [CxxFloat F] (query : Query F)
    (connected wantsCount : Bool) :
    DependsOnName serverName query.range
      (query.statements localtime connected wantsCount serverName) connected := by
  cases query with
  | performance range page pageSize =>
    refine dependsOnName_pageQuery ?_ (codeText_ofList rfl) _ _ _ _
    simp only [codeText_append]
    repeat' apply And.intro
    all_goals exact codeText_ofList rfl
  | trend range intervalSeconds => exact dependsOnName_queryTrend _ _
  | anomaly range thresholds page pageSize => exact dependsOnName_queryAnomaly _ _ _ _ _
  | netDetail range page pageSize =>
    refine dependsOnName_pageQuery ?_ (codeText_ofList rfl) _ _ _ _
    simp only [codeText_append]
    repeat' apply And.intro
    all_goals exact codeText_ofList rfl
  | diskDetail range page pageSize =>
    refine dependsOnName_pageQuery ?_ (codeText_ofList rfl) _ _ _ _
    simp only [codeText_append]
    repeat' apply And.intro
    all_goals exact codeText_ofList rfl
  | memDetail range page pageSize =>
    refine dependsOnName_pageQuery ?_ (codeText_ofList rfl) _ _ _ _
    simp only [codeText_append]
    repeat' apply And.intro
    all_goals exact codeText_ofList rfl
  | softIrqDetail range page pageSize =>
    refine dependsOnName_pageQuery ?_ (codeText_ofList rfl) _ _ _ _
    simp only [codeText_append]
    repeat' apply And.intro
    all_goals exact codeText_ofList rfl

end QueryManager

/-! ### Reports -/

section Reports

variable {F : Type}

theorem codeText_intercalate {sep : List Char} (hsep : CodeText sep) {ls : List (List Char)}
    (h : ∀ l ∈ ls, CodeText l) : CodeText (sep.intercalate ls) := by
  induction ls with
  | nil => exact fun c hc => by cases hc
  | cons l ls ih =>
    have hl := h l List.mem_cons_self
    cases ls with
    | nil => simpa using hl
    | cons l' ls =>
      rw [List.intercalate_cons_cons, codeText_append, codeText_append]
      exact ⟨⟨hl, hsep⟩, ih fun m hm => h m (List.mem_cons_of_mem l hm)⟩

theorem codeText_header {statement : Insert F} (htable : CodeText statement.table.toList)
    (hcolumns : ∀ column ∈ statement.columns, CodeText column.toList) :
    CodeText statement.header := by
  have hlist : CodeText ([',', ' '].intercalate (statement.columns.map String.toList)) := by
    have hsep : CodeText [',', ' '] := by decide
    refine codeText_intercalate hsep fun l hl => ?_
    obtain ⟨column, hcolumn, rfl⟩ := List.mem_map.1 hl
    exact hcolumns column hcolumn
  unfold Insert.header
  rw [codeText_append, codeText_append, codeText_append, codeText_append]
  refine ⟨⟨⟨⟨?_, htable⟩, ?_⟩, hlist⟩, ?_⟩
  all_goals exact codeText_ofList rfl

variable [CxxFloat F]

theorem wellFormed_segment {t : List Char} {rest : List Segment} (ht : CodeText t) (hne : t ≠ [])
    (h : WellFormed rest) (value : SqlValue F) :
    WellFormed (value.segment :: .code t :: rest) := by
  cases value with
  | name s => exact wellFormed_literal_code ht hne h _
  | float x => exact ⟨codeText_print x, ht, h⟩
  | uint64 n => exact ⟨codeText_natText _, ht, h⟩
  | time t => exact wellFormed_literal_code ht hne h _

theorem wellFormed_valueSegments (values : List (SqlValue F)) :
    WellFormed (valueSegments values) := by
  fun_induction valueSegments values with
  | case1 => exact ⟨by decide, trivial⟩
  | case2 value => exact wellFormed_segment (by decide) (by decide) wellFormed_nil value
  | case3 value rest _ ih => exact wellFormed_segment (by decide) (by decide) ih value

/-- The literals of the values are the names and the times. -/
theorem verbatim_valueSegments_iff (values : List (SqlValue F)) :
    (∀ s, .literal s ∈ valueSegments values → verbatim s = true) ↔
      ∀ n, .name n ∈ values → verbatim n.toList = true := by
  have hsegment (value : SqlValue F) :
      (∀ s, .literal s = value.segment → verbatim s = true) ↔
        ∀ n, .name n = value → verbatim n.toList = true := by
    cases value <;> simp [SqlValue.segment, verbatim_strftime]
  fun_induction valueSegments values with
  | case1 => simp
  | case2 value => simpa using hsegment value
  | case3 value rest _ ih =>
    simp only [List.mem_cons, reduceCtorEq, false_or, or_imp, forall_and, hsegment, ih]

/-- An `INSERT` statement is read as it was meant if its names are. -/
theorem readAsMeant_segments {statement : Insert F} (hheader : CodeText statement.header) :
    ReadAsMeant statement.segments ↔
      ∀ n, .name n ∈ statement.values → verbatim n.toList = true := by
  rw [Insert.segments, readAsMeant_code hheader, readAsMeant_iff (wellFormed_valueSegments _),
    verbatim_valueSegments_iff]

/-- A statement for a host and one of its devices. -/
theorem readAsMeant_deviceInsert {statement : Insert F} {hostName deviceName : String}
    {rest : List (SqlValue F)}
    (htable : CodeText statement.table.toList)
    (hcolumns : ∀ column ∈ statement.columns, CodeText column.toList)
    (hvalues : statement.values = .name hostName :: .name deviceName :: rest)
    (hrest : ∀ n, .name n ∉ rest) :
    ReadAsMeant statement.segments ↔
      verbatim hostName.toList = true ∧ verbatim deviceName.toList = true := by
  rw [readAsMeant_segments (codeText_header htable hcolumns), hvalues]
  simp [hrest]

/-- A statement for a host. -/
theorem readAsMeant_hostInsert {statement : Insert F} {hostName : String}
    {rest : List (SqlValue F)}
    (htable : CodeText statement.table.toList)
    (hcolumns : ∀ column ∈ statement.columns, CodeText column.toList)
    (hvalues : statement.values = .name hostName :: rest) (hrest : ∀ n, .name n ∉ rest) :
    ReadAsMeant statement.segments ↔ verbatim hostName.toList = true := by
  rw [readAsMeant_segments (codeText_header htable hcolumns), hvalues]
  simp [hrest]

variable (hostName : String) (timeBuf : ClockText.Tm)

theorem readAsMeant_netInsert (net : NetInfo F) (curr last : NetDetailSample F) :
    ReadAsMeant (netInsert hostName timeBuf net curr last).segments ↔
      verbatim hostName.toList = true ∧ verbatim net.name.toList = true := by
  refine readAsMeant_deviceInsert (codeText_ofList rfl) ?_ rfl (by simp)
  simp only [netInsert, List.forall_mem_cons]
  repeat' apply And.intro
  all_goals first | exact codeText_ofList rfl | exact nofun

theorem readAsMeant_softirqInsert (sirq : SoftIrq F) (curr last : SoftIrqSample F) :
    ReadAsMeant (softirqInsert hostName timeBuf sirq curr last).segments ↔
      verbatim hostName.toList = true ∧ verbatim sirq.cpu.toList = true := by
  refine readAsMeant_deviceInsert (codeText_ofList rfl) ?_ rfl (by simp)
  simp only [softirqInsert, List.forall_mem_cons]
  repeat' apply And.intro
  all_goals first | exact codeText_ofList rfl | exact nofun

theorem readAsMeant_diskInsert (disk : DiskInfo F) (curr last : DiskDetailSample F) :
    ReadAsMeant (diskInsert hostName timeBuf disk curr last).segments ↔
      verbatim hostName.toList = true ∧ verbatim disk.name.toList = true := by
  refine readAsMeant_deviceInsert (codeText_ofList rfl) ?_ rfl (by simp)
  simp only [diskInsert, List.forall_mem_cons]
  repeat' apply And.intro
  all_goals first | exact codeText_ofList rfl | exact nofun

theorem readAsMeant_memInsert (curr last : MemDetailSample F) :
    ReadAsMeant (memInsert hostName timeBuf curr last).segments ↔
      verbatim hostName.toList = true := by
  refine readAsMeant_hostInsert (codeText_ofList rfl) ?_ rfl (by simp)
  simp only [memInsert, List.forall_mem_cons]
  repeat' apply And.intro
  all_goals first | exact codeText_ofList rfl | exact nofun

theorem readAsMeant_performanceInsert (hostScore : HostScore F)
    (diskUtilPercent cpuPercentRate usrPercentRate systemPercentRate
      nicePercentRate idlePercentRate ioWaitPercentRate
      irqPercentRate softIrqPercentRate
      loadAvg1Rate loadAvg3Rate loadAvg15Rate
      memUsedPercentRate memTotalRate memFreeRate memAvailRate
      diskUtilPercentRate netInRateRate netOutRateRate : F) :
    ReadAsMeant (performanceInsert hostName timeBuf hostScore diskUtilPercent cpuPercentRate
        usrPercentRate systemPercentRate nicePercentRate idlePercentRate ioWaitPercentRate
        irqPercentRate softIrqPercentRate loadAvg1Rate loadAvg3Rate loadAvg15Rate
        memUsedPercentRate memTotalRate memFreeRate memAvailRate diskUtilPercentRate
        netInRateRate netOutRateRate).segments ↔
      verbatim hostName.toList = true := by
  refine readAsMeant_hostInsert (codeText_ofList rfl) ?_ rfl (by simp)
  simp only [performanceInsert, List.forall_mem_cons]
  repeat' apply And.intro
  all_goals first | exact codeText_ofList rfl | exact nofun

omit [CxxFloat F] in
/-- What holds of the statement of every turn holds of all statements of a loop. -/
theorem forall_writeDetail {A S : Type} [Zero S] {nameOf : A → String} {sampleOf : A → S}
    {insertOf : A → S → S → Insert F} {shardIdx : ℕ} {P : Insert F → Prop} {Q : A → Prop}
    (h : ∀ a curr last, P (insertOf a curr last) ↔ Q a) (as : List A) (samples : DeviceMap S) :
    (∀ statement ∈ (writeDetail nameOf sampleOf insertOf shardIdx hostName as samples).2,
      P statement) ↔ ∀ a ∈ as, Q a := by
  induction as generalizing samples with
  | nil => simp [writeDetail]
  | cons a as ih => simp only [writeDetail, List.forall_mem_cons, h, ih]

/-- The statements of the detail tables, under a name that denotes itself. -/
theorem readAsMeant_writeDetails (hhost : verbatim hostName.toList = true) (shardIdx : ℕ)
    (info : MonitorInfo F) (store : Store F) :
    (∀ statement ∈ (writeDetails hostName shardIdx timeBuf info store).2,
        ReadAsMeant statement.segments) ↔
      (∀ net ∈ info.netInfo, verbatim net.name.toList = true) ∧
        (∀ sirq ∈ info.softIrq, verbatim sirq.cpu.toList = true) ∧
          ∀ disk ∈ info.diskInfo, verbatim disk.name.toList = true := by
  have hmem : ∀ statement ∈ (writeMemDetail hostName shardIdx timeBuf info.memInfo
      store.lastMemSamplesShards).2, ReadAsMeant statement.segments := by
    cases info.memInfo with
    | none => simp [writeMemDetail]
    | some mem => simpa [writeMemDetail] using (readAsMeant_memInsert hostName timeBuf _ _).2 hhost
  have hnet (net : NetInfo F) (curr last : NetDetailSample F) :
      ReadAsMeant (netInsert hostName timeBuf net curr last).segments ↔
        verbatim net.name.toList = true :=
    (readAsMeant_netInsert hostName timeBuf net curr last).trans (and_iff_right hhost)
  have hsoftirq (sirq : SoftIrq F) (curr last : SoftIrqSample F) :
      ReadAsMeant (softirqInsert hostName timeBuf sirq curr last).segments ↔
        verbatim sirq.cpu.toList = true :=
    (readAsMeant_softirqInsert hostName timeBuf sirq curr last).trans (and_iff_right hhost)
  have hdisk (disk : DiskInfo F) (curr last : DiskDetailSample F) :
      ReadAsMeant (diskInsert hostName timeBuf disk curr last).segments ↔
        verbatim disk.name.toList = true :=
    (readAsMeant_diskInsert hostName timeBuf disk curr last).trans (and_iff_right hhost)
  simp only [writeDetails, List.forall_mem_append]
  rw [forall_writeDetail hostName hnet, forall_writeDetail hostName hsoftirq,
    forall_writeDetail hostName hdisk]
  tauto

/-- The names in the statements of a report. -/
def reportNames (info : MonitorInfo F) : List String :=
  serverIdentifier info :: (info.netInfo.map (·.name) ++ (info.softIrq.map (·.cpu) ++
    info.diskInfo.map (·.name)))

/-- The statements for a report are read as they were meant if and only if its names are. -/
theorem readAsMeant_processData (env : Env) (thread : ℕ) (store : Store F) (job : Job F) :
    (∀ statement ∈ (processData env thread store job).2, ReadAsMeant statement.segments) ↔
      (job.connection = .connected → serverIdentifier job.info ≠ "" →
        ∀ name ∈ reportNames job.info, verbatim name.toList = true) := by
  simp only [processData]
  split_ifs with hempty
  · simp [hempty]
  · cases hconn : job.connection with
    | initFailed => simp [writeToMysql]
    | connectFailed => simp [writeToMysql]
    | connected =>
      simp only [writeToMysql, List.forall_mem_cons, readAsMeant_performanceInsert, reportNames,
        List.forall_mem_append, List.forall_mem_map, forall_const, ne_eq, hempty,
        not_false_eq_true]
      exact and_congr_right fun hhost => readAsMeant_writeDetails _ _ hhost _ _ _

end Reports

/-- **Names in SQL statements.**  The statements of a query are read as they were meant if and only
if the server name denotes itself in a literal, and so are those of a report if and only if its
identifier and the names of its devices do. -/
theorem names_read_as_meant_iff {F : Type} [CxxFloat F] (env : Env) :
    (∀ (query : QueryManager.Query F) (connected wantsCount : Bool) (serverName : String),
      (∀ statement ∈ query.statements env.localtime connected wantsCount serverName,
          ReadAsMeant statement) ↔
        (connected = true → QueryManager.validateTimeRange query.range = true →
          verbatim serverName.toList = true)) ∧
    ∀ (thread : ℕ) (store : Store F) (job : Job F),
      (∀ statement ∈ (processData env thread store job).2, ReadAsMeant statement.segments) ↔
        (job.connection = .connected → serverIdentifier job.info ≠ "" →
          ∀ name ∈ reportNames job.info, verbatim name.toList = true) :=
  ⟨fun query connected wantsCount _ =>
    QueryManager.dependsOnName_query query connected wantsCount, readAsMeant_processData env⟩

/-- A quote in the server name ends the literal, and the rest of the name becomes a condition that
always holds. -/
theorem name_becomes_condition :
    let noon : ClockText.Tm := ⟨2024, 1, 1, 12, 0, 0⟩
    let serverName := "web' OR '1'='1"
    let sql := QueryManager.countSql (fun _ => noon) "server_performance".toList serverName ⟨0, 0⟩
    sql ∈ (.performance ⟨0, 0⟩ 1 100 : QueryManager.Query ℚ).statements (fun _ => noon) true true
        serverName ∧
      lex (cString (text sql)) =
        tokens [.code "SELECT COUNT(*) FROM server_performance WHERE server_name=".toList,
          .literal "web".toList, .code " OR ".toList, .literal "1".toList, .code "=".toList,
          .literal "1".toList, .code " AND timestamp BETWEEN ".toList,
          .literal "2024-01-01 12:00:00".toList, .code " AND ".toList,
          .literal "2024-01-01 12:00:00".toList] ∧
      ¬ ReadAsMeant sql := by
  refine ⟨List.mem_cons_self, by decide +kernel, ?_⟩
  rw [QueryManager.readAsMeant_countSql _ _ _ (codeText_ofList rfl)]
  decide

end MonitorSystem
