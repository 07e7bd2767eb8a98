import MonitorSystem.Library.LatestRows
import MonitorSystem.Manager.Tables

/-!
# The latest score of each server

`QueryLatestScore` and `QueryScoreRank` join `server_performance` with the greatest timestamp of
each server.  Timestamps are whole seconds, so that several reports of a server can have the
greatest one, and each of them is then listed; the count that comes with the pages of the ranking
is that of the servers.  Pages of the ranking are cut from an order by score alone.

`one_summary_each_iff` says when each server is listed once all the same.
-/

namespace MonitorSystem

open CxxFloat (lit toFloat)
open LatestRows (LatestUnique IsLatest groups joinLatest)
open Paging (Arrangement Straddles Tiles pageCount)
open QueryManager

variable {F : Type}

/-! ### What the statements are answered with -/

namespace Mysql

variable (db : Mysql F)

/-- The server of a row, as names are compared. -/
def server (row : SqlRow F) : String := db.weight row.serverName

/-- The servers of a table, `DISTINCT server_name`. -/
def servers (table : SqlTable F) : List String := groups db.server table.rows

/-- `p1` joined with `p2`. -/
def latestRows (table : SqlTable F) : List (SqlRow F) :=
  joinLatest db.server SqlRow.timestamp table.rows

/-- The score by which rows are ordered, `NULL` first. -/
def scoreKey (row : SqlRow F) : WithBot ℚ :=
  match row.value "score" with
  | some v => (db.float v : ℚ)
  | none => ⊥

/-- `ORDER BY p1.score`. -/
def Ranked (order : SortOrder) (rows l : List (SqlRow F)) : Prop :=
  match order with
  | .desc => Arrangement (fun row => OrderDual.toDual (db.scoreKey row)) rows l
  | .asc => Arrangement db.scoreKey rows l

variable {db} in
theorem Ranked.perm {order : SortOrder} {rows l : List (SqlRow F)} (h : db.Ranked order rows l) :
    l.Perm rows := by
  cases order with
  | desc => exact Arrangement.perm h
  | asc => exact Arrangement.perm h

theorem exists_ranked (order : SortOrder) (rows : List (SqlRow F)) :
    ∃ l, db.Ranked order rows l := by
  cases order with
  | desc => exact Paging.exists_arrangement _ rows
  | asc => exact Paging.exists_arrangement _ rows

/-- Latest rows with equal scores lie on both sides of a page boundary. -/
def RankTie (order : SortOrder) (size : ℕ) (rows : List (SqlRow F)) : Prop :=
  match order with
  | .desc => ∃ t, Straddles (fun row => OrderDual.toDual (db.scoreKey row)) size t rows
  | .asc => ∃ t, Straddles db.scoreKey size t rows

/-- The selected columns. -/
def scoreColumns : List String :=
  ["server_name", "score", "timestamp", "cpu_percent",
    "mem_used_percent", "disk_util_percent", "load_avg_1"]

/-- The statements select these columns in this order. -/
theorem prefix_latestRowsSql :
    "SELECT ".toList ++ columnsText (scoreColumns.map ("p1." ++ ·)) ++
      " FROM server_performance p1 ".toList <+: latestRowsSql := by
  decide +kernel

/-- What `latestScoreSql` may be answered with. -/
def LatestScoreAnswer (table : SqlTable F) (answer : Option (List (MysqlRow F))) : Prop :=
  ∃ l, db.Ranked .desc (db.latestRows table) l ∧ answer = some (l.map (SqlRow.fetch scoreColumns))

/-- What `scoreRankSql` may be answered with; `countServersSql` is answered with the number of
servers. -/
def ScoreRankAnswer (table : SqlTable F) (order : SortOrder) (page pageSize : Int32)
    (answer : Option (List (MysqlRow F))) : Prop :=
  ∃ l, db.Ranked order (db.latestRows table) l ∧
    answer = (limitOffset page pageSize l).map (·.map (SqlRow.fetch scoreColumns))

theorem length_servers_lt (table : SqlTable F) : (db.servers table).length < 2 ^ 31 := by
  have hdedup : (db.servers table).length ≤ (table.rows.map db.server).length :=
    (List.dedup_sublist _).length_le
  rw [List.length_map] at hdedup
  exact hdedup.trans_lt table.length_lt

/-- `total_count` of the ranking. -/
theorem toInt_countServers (table : SqlTable F) :
    (getTotalCount (db.servers table).length).toInt = (db.servers table).length :=
  toInt_getTotalCount (db.length_servers_lt table)

end Mysql

/-! ### What the functions return -/

/-- `ServerStatus`. -/
inductive ServerStatus
  | online
  | offline
  deriving DecidableEq

/-- `ServerScoreSummary`. -/
structure ServerScoreSummary (F : Type) where
  serverName : String
  score : F
  lastUpdate : ℤ
  status : ServerStatus
  cpuPercent : F
  memUsedPercent : F
  diskUtilPercent : F
  loadAvg1 : F

/-- `ClusterStats`. -/
structure ClusterStats (F : Type) where
  totalServers : Int32
  onlineServers : Int32
  offlineServers : Int32
  avgScore : F
  maxScore : F
  minScore : F
  bestServer : String
  worstServer : String

section Functions

variable [CxxFloat F] (db : Mysql F)

/-- A turn of the loop over a result: the record of a row, at the time `now`. -/
def scoreSummary (now : ℤ) (row : MysqlRow F) : ServerScoreSummary F :=
  let lastUpdate := db.readTime now (row 2)
  let age := (now - lastUpdate).tdiv 1000000000
  { serverName := readName (row 0)
    score := db.readFloat (row 1)
    lastUpdate := lastUpdate
    status := if 60 < age then .offline else .online
    cpuPercent := db.readFloat (row 3)
    memUsedPercent := db.readFloat (row 4)
    diskUtilPercent := db.readFloat (row 5)
    loadAvg1 := db.readFloat (row 6) }

/-- The variables of the loop in `QueryLatestScore`. -/
structure ScoreTotals (F : Type) [CxxFloat F] where
  totalScore : F := 0
  maxScore : F := 0 - lit 1 1
  minScore : F := lit 101 1
  bestServer : String := ""
  worstServer : String := ""
  onlineCount : Int32 := 0
  offlineCount : Int32 := 0

/-- A turn of the loop in `QueryLatestScore`, with the record `rec`. -/
def ScoreTotals.add (totals : ScoreTotals F) (rec : ServerScoreSummary F) : ScoreTotals F where
  totalScore := toFloat (totals.totalScore + rec.score)
  maxScore := if totals.maxScore < rec.score then rec.score else totals.maxScore
  minScore := if rec.score < totals.minScore then rec.score else totals.minScore
  bestServer := if totals.maxScore < rec.score then rec.serverName else totals.bestServer
  worstServer := if rec.score < totals.minScore then rec.serverName else totals.worstServer
  onlineCount := if rec.status = .online then totals.onlineCount + 1 else totals.onlineCount
  offlineCount := if rec.status = .online then totals.offlineCount else totals.offlineCount + 1

/-- `stats` after the loop. -/
def ScoreTotals.stats (totals : ScoreTotals F) (count : ℕ) : ClusterStats F where
  totalServers := Int32.ofNat count
  onlineServers := totals.onlineCount
  offlineServers := totals.offlineCount
  avgScore := if count = 0 then 0 else toFloat (totals.totalScore / toFloat (count : F))
  maxScore := if 0 < totals.maxScore then totals.maxScore else 0
  minScore := if totals.minScore < lit 101 1 then totals.minScore else 0
  bestServer := totals.bestServer
  worstServer := totals.worstServer

/-- `QueryLatestScore`, when `answer` comes back; without a result `stats` is left alone. -/
def queryLatestScore (connected : Bool) (now : ℤ) (answer : Option (List (MysqlRow F))) :
    List (ServerScoreSummary F) × Option (ClusterStats F) :=
  if !connected then ([], none)
  else
    match answer with
    | none => ([], none)
    | some rows =>
      let records := rows.map (scoreSummary db now)
      (records, some ((records.foldl ScoreTotals.add {}).stats records.length))

/-- `QueryScoreRank` for one page, when `answer` comes back. -/
def queryScoreRank (connected : Bool) (now : ℤ) (answer : Option (List (MysqlRow F))) :
    List (ServerScoreSummary F) :=
  if !connected then [] else (answer.getD []).map (scoreSummary db now)

end Functions

/-! ### One summary for each server -/

section OneEach

variable [CxxFloat F] (db : Mysql F) (table : SqlTable F)

/-- There is one record for each server, read from a row with the greatest timestamp of it. -/
def OneEach (records : List (ServerScoreSummary F)) : Prop :=
  (records.map fun rec => db.weight rec.serverName).Perm (db.servers table) ∧
    ∀ rec ∈ records, ∃ now, ∃ row ∈ table.rows, IsLatest db.server SqlRow.timestamp table.rows row ∧
      rec = scoreSummary db now (SqlRow.fetch Mysql.scoreColumns row)

/-- `QueryLatestScore` returns one record for each server, and the number of servers. -/
def LatestScoreOnce : Prop :=
  ∀ now answer, db.LatestScoreAnswer table answer →
    OneEach db table (queryLatestScore db true now answer).1 ∧
    ∃ stats, (queryLatestScore db true now answer).2 = some stats ∧
      stats.totalServers.toInt = (db.servers table).length

/-- The number of pages of the ranking, by the count that is reported with each of them. -/
def rankPages (pageSize : Int32) : ℕ :=
  pageCount (normalizePageSize pageSize).toInt.toNat
    (getTotalCount (db.servers table).length).toInt.toNat

/-- All pages of `QueryScoreRank`, each asked for at a time of its own and answered on its own,
together have as many records as are reported, one for each server. -/
def ScoreRankOnce (order : SortOrder) (pageSize : Int32) : Prop :=
  ∀ (now : ℕ → ℤ) (answers : ℕ → Option (List (MysqlRow F))),
    (∀ p < rankPages db table pageSize, db.ScoreRankAnswer table order
      (normalizePage (Int32.ofNat (p + 1))) (normalizePageSize pageSize) (answers p)) →
    let records := (List.range (rankPages db table pageSize)).flatMap fun p =>
      queryScoreRank db true (now p) (answers p)
    records.length = (getTotalCount (db.servers table).length).toInt ∧ OneEach db table records

variable {db table}

/-- Records of latest rows are one for each server if the rows are. -/
theorem oneEach_of_perm {records : List (ServerScoreSummary F)}
    (hperm : (records.map fun rec => db.weight rec.serverName).Perm (db.servers table))
    (hmem : ∀ rec ∈ records, ∃ now, ∃ row ∈ db.latestRows table,
      rec = scoreSummary db now (SqlRow.fetch Mysql.scoreColumns row)) :
    OneEach db table records := by
  refine ⟨hperm, fun rec hrec => ?_⟩
  obtain ⟨now, row, hrow, rfl⟩ := hmem rec hrec
  obtain ⟨hrow, hlatest⟩ := LatestRows.mem_joinLatest.1 hrow
  exact ⟨now, row, hrow, hlatest, rfl⟩

theorem map_server_scoreSummary (now : ℤ) (l : List (SqlRow F)) :
    ((l.map (SqlRow.fetch Mysql.scoreColumns)).map (scoreSummary db now)).map
      (fun rec => db.weight rec.serverName) = l.map db.server := by
  rw [List.map_map, List.map_map]
  rfl

theorem latestScoreOnce_iff : LatestScoreOnce db table ↔
    LatestUnique db.server SqlRow.timestamp table.rows := by
  rw [← LatestRows.groups_perm_iff]
  constructor
  · intro honce
    obtain ⟨l, hl⟩ := Paging.exists_arrangement
      (fun row => OrderDual.toDual (db.scoreKey row)) (db.latestRows table)
    have hperm := (honce 0 _ ⟨l, hl, rfl⟩).1.1
    rw [queryLatestScore, if_neg (by simp), map_server_scoreSummary] at hperm
    exact (hl.perm.map _).symm.trans hperm
  · rintro hperm now _ ⟨l, hl, rfl⟩
    have hservers : (l.map db.server).Perm (db.servers table) :=
      (List.Perm.map _ hl.perm).trans hperm
    have hlength := hservers.length_eq
    rw [List.length_map] at hlength
    rw [queryLatestScore, if_neg (by simp)]
    refine ⟨oneEach_of_perm ?_ fun rec hrec => ?_, _, rfl, ?_⟩
    · rwa [map_server_scoreSummary]
    · rw [List.map_map] at hrec
      obtain ⟨row, hrow, rfl⟩ := List.mem_map.1 hrec
      exact ⟨now, row, hl.perm.subset hrow, rfl⟩
    · simp only [ScoreTotals.stats, List.length_map, hlength]
      exact Int32.toInt_ofNat_of_lt (db.length_servers_lt table)

/-- When the latest row of each server is unique, the pages of the ranking are the pages of
arrangements of these rows. -/
theorem scoreRankOnce_iff_tiles {K : Type} [LinearOrder K] {key : SqlRow F → K} {order : SortOrder}
    {pageSize : Int32} (hunique : LatestUnique db.server SqlRow.timestamp table.rows)
    (hkey : ∀ l, db.Ranked order (db.latestRows table) l ↔
      Arrangement key (db.latestRows table) l) :
    ScoreRankOnce db table order pageSize ↔
      Tiles key db.server (normalizePageSize pageSize).toInt.toNat (db.latestRows table) := by
  have hservers : ((db.latestRows table).map db.server).Perm (db.servers table) :=
    LatestRows.groups_perm_iff.2 hunique
  have hlength : (db.servers table).length = (db.latestRows table).length := by
    rw [← List.length_map (f := db.server)]
    exact hservers.length_eq.symm
  have hpages : rankPages db table pageSize =
      pageCount (normalizePageSize pageSize).toInt.toNat (db.latestRows table).length := by
    rw [rankPages, db.toInt_countServers, Int.toNat_natCast, hlength]
  have hbound : (db.latestRows table).length < 2 ^ 31 := hlength ▸ db.length_servers_lt table
  let look (rec : ServerScoreSummary F) : String := db.weight rec.serverName
  have hread (now : ℤ) (row : SqlRow F) :
      look (scoreSummary db now (SqlRow.fetch Mysql.scoreColumns row)) = db.server row := rfl
  simp only [ScoreRankOnce, queryScoreRank, Bool.not_true, Bool.false_eq_true, if_false, hpages]
  constructor
  · intro honce choice hchoice
    have hperm := (honce (fun _ => 0) (cut Mysql.scoreColumns pageSize choice) fun p hp =>
      ⟨choice p, (hkey _).2 (hchoice p hp), rfl⟩).2.1
    rw [cutFrom_cut.map_read hbound look hread] at hperm
    exact hperm.trans hservers.symm
  · intro htiles now answers hanswers
    choose! choice hchoice hanswer using hanswers
    have hcut : CutFrom Mysql.scoreColumns _ pageSize choice answers := hanswer
    have hperm := (htiles choice fun p hp => (hkey _).1 (hchoice p hp)).trans hservers
    rw [← hcut.map_read hbound look hread] at hperm
    refine ⟨?_, oneEach_of_perm hperm fun rec hrec => ?_⟩
    · rw [db.toInt_countServers, ← hperm.length_eq, List.length_map]
    · obtain ⟨p, hp, row, hrow, rfl⟩ := hcut.mem_read hbound hrec
      exact ⟨now p, row, ((hkey _).1 (hchoice p hp)).perm.subset hrow, rfl⟩

theorem scoreRankOnce_iff {order : SortOrder} {pageSize : Int32}
    (hunique : LatestUnique db.server SqlRow.timestamp table.rows) :
    ScoreRankOnce db table order pageSize ↔
      ¬ db.RankTie order (normalizePageSize pageSize).toInt.toNat (db.latestRows table) := by
  have hsize : 0 < (normalizePageSize pageSize).toInt.toNat := by
    have := one_le_normalizePageSize pageSize
    omega
  have hnodup : ((db.latestRows table).map db.server).Nodup :=
    LatestRows.nodup_joinLatest_iff.2 hunique
  cases order with
  | desc =>
    rw [scoreRankOnce_iff_tiles hunique fun _ => Iff.rfl, Paging.tiles_iff_of_nodup hsize hnodup,
      Mysql.RankTie, not_exists]
  | asc =>
    rw [scoreRankOnce_iff_tiles hunique fun _ => Iff.rfl, Paging.tiles_iff_of_nodup hsize hnodup,
      Mysql.RankTie, not_exists]

end OneEach

/-- **One summary for each server.**  For every content of `server_performance`, every order and
page size of the ranking, and all orders that MySQL may choose among equal scores: the latest
scores have one record for each server, with its greatest timestamp, and their number is reported,
and all pages of the ranking together do too, if and only if no server has two rows with its
greatest timestamp, and no equal scores of latest rows are spread over a page boundary. -/
theorem one_summary_each_iff [CxxFloat F] (db : Mysql F) (table : SqlTable F) (order : SortOrder)
    (pageSize : Int32) :
    LatestScoreOnce db table ∧ ScoreRankOnce db table order pageSize ↔
      LatestUnique db.server SqlRow.timestamp table.rows ∧
        ¬ db.RankTie order (normalizePageSize pageSize).toInt.toNat (db.latestRows table) := by
  constructor
  · rintro ⟨hlatest, hrank⟩
    have hunique := latestScoreOnce_iff.1 hlatest
    exact ⟨hunique, (scoreRankOnce_iff hunique).1 hrank⟩
  · rintro ⟨hunique, htie⟩
    exact ⟨latestScoreOnce_iff.2 hunique, (scoreRankOnce_iff hunique).2 htie⟩

/-- Two reports of the host `web`, processed within one second. -/
def twoWithinOneSecond : List (Job ℚ) :=
  [⟨{ name := "web" }, 0, .connected⟩, ⟨{ name := "web" }, 1, .connected⟩]

/-- Two reports within one second leave two rows with the greatest timestamp, and the server is
listed twice. -/
theorem one_server_listed_twice :
    ¬ ∀ (table : SqlTable ℚ) (order : SortOrder) (pageSize : Int32),
      LatestScoreOnce exactMysql table ∧ ScoreRankOnce exactMysql table order pageSize := by
  intro hclaim
  let table := tablesOf (runOutputs (processData earlyEnv 0) {} twoWithinOneSecond).2
    (by decide +kernel) "server_performance"
  have hunique := latestScoreOnce_iff.1 (hclaim table .desc 1).1
  revert hunique
  decide +kernel

end MonitorSystem
