import MonitorSystem.Library.RunningBest
import MonitorSystem.Manager.LatestScore

/-!
# The statistics of the cluster

`QueryLatestScore` goes once through the records and keeps a sum, two counts and the best and the
worst score with their servers; the two scores start outside the range of scores.  What it fills in
at the end describes the list that it returns: `cluster_stats_describe`.
-/

namespace MonitorSystem

open CxxFloat (toFloat lit)
open RunningBest (Leads turn leads_foldl)

/-- A result of `latestScoreSql`: no more rows than its table, whose key is an `INT`, and scores
from 0 to 100, where `NULL` is read as 0. -/
structure ScoreResult (db : Mysql ℚ) where
  rows : List (MysqlRow ℚ)
  length_lt : rows.length < 2 ^ 31
  score_mem : ∀ row ∈ rows, db.readFloat (row 1) ∈ Set.Icc (0 : ℚ) 100

/-- The age of a record in whole seconds. -/
def ServerScoreSummary.age (now : ℤ) (rec : ServerScoreSummary ℚ) : ℤ :=
  (now - rec.lastUpdate).tdiv 1000000000

/-- The statistics are those of the records at the time `now`. -/
structure ClusterStats.Describes (stats : ClusterStats ℚ) (now : ℤ)
    (records : List (ServerScoreSummary ℚ)) : Prop where
  totalServers : stats.totalServers.toInt = records.length
  offlineServers : stats.offlineServers.toInt = records.countP fun rec => 60 < rec.age now
  onlineServers : stats.onlineServers.toInt + stats.offlineServers.toInt = records.length
  avgScore : stats.avgScore * records.length = (records.map (·.score)).sum
  maxScore : records ≠ [] → Leads (· > ·) (·.score) (·.serverName) records
    (stats.maxScore, stats.bestServer)
  minScore : records ≠ [] → Leads (· < ·) (·.score) (·.serverName) records
    (stats.minScore, stats.worstServer)
  between : stats.minScore ≤ stats.avgScore ∧ stats.avgScore ≤ stats.maxScore
  empty : records = [] → stats = ⟨0, 0, 0, 0, 0, 0, "", ""⟩

/-! ### The loop -/

section Loop

variable (records : List (ServerScoreSummary ℚ))

/-- The variables after the loop. -/
def totalsOf : ScoreTotals ℚ := records.foldl ScoreTotals.add {}

variable {records}

theorem totalsOf_append (rec : ServerScoreSummary ℚ) :
    totalsOf (records ++ [rec]) = (totalsOf records).add rec := by
  rw [totalsOf, List.foldl_append]
  rfl

theorem totalScore_totalsOf : (totalsOf records).totalScore = (records.map (·.score)).sum := by
  induction records using List.reverseRecOn with
  | nil => rfl
  | append_singleton records rec ih =>
    rw [totalsOf_append, List.map_append, List.sum_append, ← ih]
    simp [ScoreTotals.add]

/-- The best score and its server. -/
theorem best_totalsOf : ((totalsOf records).maxScore, (totalsOf records).bestServer) =
    records.foldl (turn (· > ·) (·.score) (·.serverName)) (0 - lit 1 1, "") := by
  induction records using List.reverseRecOn with
  | nil => rfl
  | append_singleton records rec ih =>
    rw [totalsOf_append, List.foldl_append, ← ih, List.foldl_cons, List.foldl_nil, turn,
      ScoreTotals.add]
    by_cases hbetter : (totalsOf records).maxScore < rec.score <;> simp [hbetter]

/-- The worst score and its server. -/
theorem worst_totalsOf : ((totalsOf records).minScore, (totalsOf records).worstServer) =
    records.foldl (turn (· < ·) (·.score) (·.serverName)) (lit 101 1, "") := by
  induction records using List.reverseRecOn with
  | nil => rfl
  | append_singleton records rec ih =>
    rw [totalsOf_append, List.foldl_append, ← ih, List.foldl_cons, List.foldl_nil, turn,
      ScoreTotals.add]
    by_cases hbetter : rec.score < (totalsOf records).minScore <;> simp [hbetter]

/-- The two counts. -/
theorem counts_totalsOf (records : List (ServerScoreSummary ℚ)) :
    (totalsOf records).onlineCount =
        Int32.ofNat (records.countP fun rec => rec.status = .online) ∧
      (totalsOf records).offlineCount =
        Int32.ofNat (records.countP fun rec => rec.status = .offline) := by
  induction records using List.reverseRecOn with
  | nil => exact ⟨rfl, rfl⟩
  | append_singleton records rec ih =>
    obtain ⟨honline, hoffline⟩ := ih
    rw [totalsOf_append, ScoreTotals.add, honline, hoffline]
    cases hstatus : rec.status <;> simp [List.countP_append, hstatus, Int32.ofNat_add]

end Loop

/-! ### The result -/

/-- The scores of records lie between 0 and 100. -/
def ScoresInRange (records : List (ServerScoreSummary ℚ)) : Prop :=
  ∀ rec ∈ records, rec.score ∈ Set.Icc (0 : ℚ) 100

section Stats

variable {records : List (ServerScoreSummary ℚ)}

theorem avgScore_stats (records : List (ServerScoreSummary ℚ)) :
    ((totalsOf records).stats records.length).avgScore * records.length =
      (records.map (·.score)).sum := by
  rcases eq_or_ne records [] with rfl | hne
  · simp
  · have hlength : records.length ≠ 0 := mt List.length_eq_zero_iff.1 hne
    have hcast : (records.length : ℚ) ≠ 0 := by exact_mod_cast hlength
    rw [ScoreTotals.stats]
    simp only [if_neg hlength, totalScore_totalsOf, CxxFloat.toFloat_rat]
    exact div_mul_cancel₀ _ hcast

theorem maxScore_stats (hscores : ScoresInRange records) (hne : records ≠ []) :
    Leads (· > ·) (·.score) (·.serverName) records
      (((totalsOf records).stats records.length).maxScore,
        ((totalsOf records).stats records.length).bestServer) := by
  have hleads : Leads (· > ·) (·.score) (·.serverName) records
      ((totalsOf records).maxScore, (totalsOf records).bestServer) := by
    rw [best_totalsOf]
    refine leads_foldl hne fun rec hrec => ?_
    have hlow := (hscores rec hrec).1
    norm_num [lit]
    linarith
  have hnonneg : 0 ≤ (totalsOf records).maxScore := by
    obtain ⟨rec, hrec, hscore, -⟩ := hleads.attained
    have hlow := (hscores rec hrec).1
    rwa [hscore] at hlow
  have hmax : ((totalsOf records).stats records.length).maxScore =
      (totalsOf records).maxScore := by
    rw [ScoreTotals.stats]
    dsimp only
    split_ifs with hpos
    · rfl
    · exact le_antisymm hnonneg (not_lt.1 hpos)
  rwa [hmax]

theorem minScore_stats (hscores : ScoresInRange records) (hne : records ≠ []) :
    Leads (· < ·) (·.score) (·.serverName) records
      (((totalsOf records).stats records.length).minScore,
        ((totalsOf records).stats records.length).worstServer) := by
  have hleads : Leads (· < ·) (·.score) (·.serverName) records
      ((totalsOf records).minScore, (totalsOf records).worstServer) := by
    rw [worst_totalsOf]
    refine leads_foldl hne fun rec hrec => ?_
    have hhigh := (hscores rec hrec).2
    norm_num [lit]
    linarith
  have hlt : (totalsOf records).minScore < lit 101 1 := by
    obtain ⟨rec, hrec, hscore, -⟩ := hleads.attained
    have hhigh := (hscores rec hrec).2
    rw [hscore] at hhigh
    norm_num [lit]
    linarith
  have hmin : ((totalsOf records).stats records.length).minScore =
      (totalsOf records).minScore := if_pos hlt
  rwa [hmin]

/-- The average lies between two bounds of the scores. -/
theorem average_mem {low high avg : ℚ} (hne : records ≠ [])
    (havg : avg * records.length = (records.map (·.score)).sum)
    (hlow : ∀ rec ∈ records, low ≤ rec.score) (hhigh : ∀ rec ∈ records, rec.score ≤ high) :
    low ≤ avg ∧ avg ≤ high := by
  have hpos : (0 : ℚ) < records.length := by
    exact_mod_cast List.length_pos_iff.2 hne
  have hle := List.sum_le_card_nsmul (records.map (·.score)) high (by simpa using hhigh)
  have hge := List.card_nsmul_le_sum (records.map (·.score)) low (by simpa using hlow)
  rw [List.length_map, nsmul_eq_mul, ← havg, mul_comm (records.length : ℚ)] at hle hge
  exact ⟨le_of_mul_le_mul_right hge hpos, le_of_mul_le_mul_right hle hpos⟩

theorem describes_stats {now : ℤ} (hlength : records.length < 2 ^ 31)
    (hscores : ScoresInRange records)
    (hstatus : ∀ rec ∈ records, rec.status = .offline ↔ 60 < rec.age now) :
    ((totalsOf records).stats records.length).Describes now records := by
  obtain ⟨honline, hoffline⟩ := counts_totalsOf records
  have hcount : ∀ p : ServerScoreSummary ℚ → Bool, records.countP p < 2 ^ 31 :=
    fun p => List.countP_le_length.trans_lt hlength
  have hsplit : records.countP (fun rec => rec.status = .online) +
      records.countP (fun rec => rec.status = .offline) = records.length := by
    rw [List.length_eq_countP_add_countP fun rec => rec.status = .online]
    congr 1
    refine List.countP_congr fun rec _ => ?_
    cases rec.status <;> simp
  have havg := avgScore_stats records
  refine ⟨Int32.toInt_ofNat_of_lt hlength, ?_, ?_, havg, maxScore_stats hscores,
    minScore_stats hscores, ?_, ?_⟩
  · show (totalsOf records).offlineCount.toInt = _
    rw [hoffline, Int32.toInt_ofNat_of_lt (hcount _)]
    exact congrArg Nat.cast (List.countP_congr fun rec hrec => by simpa using hstatus rec hrec)
  · show (totalsOf records).onlineCount.toInt + (totalsOf records).offlineCount.toInt = _
    rw [honline, hoffline, Int32.toInt_ofNat_of_lt (hcount _), Int32.toInt_ofNat_of_lt (hcount _)]
    exact_mod_cast hsplit
  · rcases eq_or_ne records [] with rfl | hne
    · norm_num [totalsOf, ScoreTotals.stats, lit]
    · exact average_mem hne havg
        (fun rec hrec => not_lt.1 ((minScore_stats hscores hne).unbeaten rec hrec))
        fun rec hrec => not_lt.1 ((maxScore_stats hscores hne).unbeaten rec hrec)
  · rintro rfl
    norm_num [totalsOf, ScoreTotals.stats, lit]
    rfl

end Stats

/-- **The statistics of the cluster.**  For every result of the statement for the latest scores, in
any order and with any timestamps, a record of each row is returned, in the order of the rows, and
the statistics that are filled in are those of the returned records. -/
theorem cluster_stats_describe (db : Mysql ℚ) (result : ScoreResult db) (now : ℤ) :
    ∃ records stats, queryLatestScore db true now (some result.rows) = (records, some stats) ∧
      records = result.rows.map (scoreSummary db now) ∧ stats.Describes now records := by
  refine ⟨_, _, rfl, rfl, describes_stats ?_ ?_ ?_⟩
  · rw [List.length_map]
    exact result.length_lt
  · intro rec hrec
    obtain ⟨row, hrow, rfl⟩ := List.mem_map.1 hrec
    exact result.score_mem row hrow
  · intro rec hrec
    obtain ⟨row, hrow, rfl⟩ := List.mem_map.1 hrec
    simp [scoreSummary, ServerScoreSummary.age]

/-- The latest row of a server, in the first minute of 1970. -/
def latestRow (serverName : String) (second : ℕ) (score : Option ℚ) : MysqlRow ℚ :=
  SqlRow.fetch Mysql.scoreColumns
    { serverName := serverName
      timestamp := ⟨1970, 1, 1, 0, 0, second⟩
      other column := if column = "score" then score.map .float else none }

/-- Three servers; one has no score, and one has not reported for 90 seconds. -/
def threeServers : ScoreResult exactMysql where
  rows := [latestRow "db" 50 (some 80), latestRow "web" 10 (some 50), latestRow "new" 59 none]
  length_lt := by decide
  score_mem row hrow := by
    simp only [List.mem_cons, List.not_mem_nil, or_false] at hrow
    rcases hrow with rfl | rfl | rfl
    · exact (by decide +kernel : (80 : ℚ) ∈ Set.Icc (0 : ℚ) 100)
    · exact (by decide +kernel : (50 : ℚ) ∈ Set.Icc (0 : ℚ) 100)
    · exact (by decide +kernel : (0 : ℚ) ∈ Set.Icc (0 : ℚ) 100)

theorem cluster_stats_describe_threeServers : ∃ records stats,
    queryLatestScore exactMysql true 100000000000 (some threeServers.rows) =
      (records, some stats) ∧
      records.map (fun rec => (rec.serverName, rec.score, rec.age 100000000000)) =
        [("db", 80, 50), ("web", 50, 90), ("new", 0, 41)] ∧
      stats.Describes 100000000000 records := by
  obtain ⟨records, stats, hanswer, hrecords, hdescribes⟩ :=
    cluster_stats_describe exactMysql threeServers 100000000000
  refine ⟨records, stats, hanswer, ?_, hdescribes⟩
  rw [hrecords]
  decide +kernel

/-- What MySQL answers is such a result, if the scores are in range. -/
theorem exists_scoreResult (db : Mysql ℚ) {table : SqlTable ℚ}
    {answer : Option (List (MysqlRow ℚ))} (hanswer : db.LatestScoreAnswer table answer)
    (hscores : ∀ row ∈ table.rows, db.readFloat (row.value "score") ∈ Set.Icc (0 : ℚ) 100) :
    ∃ result : ScoreResult db, answer = some result.rows := by
  obtain ⟨l, hl, rfl⟩ := hanswer
  have hperm : l.Perm (db.latestRows table) := hl.perm
  refine ⟨⟨l.map (SqlRow.fetch Mysql.scoreColumns), ?_, fun row hrow => ?_⟩, rfl⟩
  · rw [List.length_map, hperm.length_eq, Mysql.latestRows, LatestRows.joinLatest_eq_filter]
    exact (List.length_filter_le _ _).trans_lt table.length_lt
  · obtain ⟨written, hwritten, rfl⟩ := List.mem_map.1 hrow
    exact hscores written (LatestRows.mem_joinLatest.1 (hperm.subset hwritten)).1

end MonitorSystem
