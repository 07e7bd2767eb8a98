import MonitorSystem.Library.UnorderedMap
import MonitorSystem.Manager.LiveStores
import MonitorSystem.Manager.Score

/-!
# The table of the live scores

`host_scores_`, with its three users: `ProcessData` writes an entry under `mtx_`, `ProcessLoop`
erases what is older than a minute while it iterates, and `GetBestHost` iterates for the highest
score.  Here the table of a `Store` is an `UnorderedMap`, since both loops run over it.

The search of `GetBestHost` starts with the score `-1`; it finds a host in every nonempty table
because no report scores below `0` (`calcScore_mem_Icc`).
-/

namespace MonitorSystem

namespace HostScores

/-- `host_scores_`. -/
abbrev Table := UnorderedMap String (HostScore ℚ)

/-- `age` in `ProcessLoop`, in whole seconds. -/
def age (now : ℤ) (data : HostScore ℚ) : ℤ := (now - data.timestamp).tdiv 1000000000

/-- The pass of `ProcessLoop` that starts at `now`. -/
def cleanup (now : ℤ) (hostScores : Table) : Table :=
  hostScores.eraseIf fun e => decide (60 < age now e.2)

/-- The same pass over the entries of a `Store`. -/
def cleanupEntries (now : ℤ) (hostScores : String → Option (HostScore ℚ)) :
    String → Option (HostScore ℚ) :=
  fun host => (hostScores host).filter fun data => ¬ 60 < age now data

/-- `GetBestHost`. -/
def getBestHost (hostScores : Table) : String := hostScores.best (·.score) ("", -1)

/-- The sections under `mtx_`, in any order.  The time of a report is read before the mutex is
taken, so that the entries need not be written in the order of their times. -/
inductive Step : Table → Table → Prop
  | process (job : Job ℚ) {m m' : Table} (hid : serverIdentifier job.info ≠ "")
      (hwrite : m.Assigned (serverIdentifier job.info)
        ⟨job.info, calcScore job.info, job.now⟩ m') : Step m m'
  | cleanup (now : ℤ) (m : Table) : Step m (cleanup now m)
  | getBestHost (m : Table) : Step m m

/-- The tables of all runs. -/
def Reachable (m : Table) : Prop := Relation.ReflTransGen Step UnorderedMap.empty m

/-- Whatever `ProcessData` does to the table of a store is a step here. -/
theorem exists_step_processData {m : Table} {store : Store ℚ} (hm : m.Lists store.hostScores)
    (env : Env) (thread : ℕ) (job : Job ℚ) :
    ∃ m', Relation.ReflGen Step m m' ∧
      m'.Lists (processData env thread store job).1.hostScores := by
  by_cases hid : serverIdentifier job.info = ""
  · refine ⟨m, .refl, ?_⟩
    rw [processData, if_pos hid]
    exact hm
  · obtain ⟨m', hwrite⟩ :=
      m.exists_assigned (serverIdentifier job.info) ⟨job.info, calcScore job.info, job.now⟩
    refine ⟨m', .single (.process job hid hwrite), ?_⟩
    rw [LiveStores.hostScores_processData env thread store hid]
    exact hm.assigned hwrite

/-! ### The invariant -/

/-- An entry stands under the identifier of its report, with the score of its report. -/
structure Sound (host : String) (data : HostScore ℚ) : Prop where
  host_eq : host = serverIdentifier data.info
  host_ne : host ≠ ""
  score_eq : data.score = calcScore data.info

theorem Sound.score_mem_Icc {host : String} {data : HostScore ℚ} (h : Sound host data) :
    data.score ∈ Set.Icc (0 : ℚ) 100 := by
  rw [h.score_eq]
  exact calcScore_mem_Icc data.info

theorem mem_cleanup {now : ℤ} {m : Table} {e : String × HostScore ℚ} :
    e ∈ (cleanup now m).entries ↔ e ∈ m.entries ∧ ¬ 60 < age now e.2 := by
  rw [cleanup, UnorderedMap.mem_eraseIf, decide_eq_false_iff_not]

theorem lists_cleanup {now : ℤ} {m : Table} {hostScores : String → Option (HostScore ℚ)}
    (hm : m.Lists hostScores) : (cleanup now m).Lists (cleanupEntries now hostScores) := by
  intro host data
  rw [mem_cleanup, hm, cleanupEntries, Option.filter_eq_some_iff, decide_eq_true_iff]

theorem sound_step {m m' : Table} (hm : ∀ e ∈ m.entries, Sound e.1 e.2) (h : Step m m') :
    ∀ e ∈ m'.entries, Sound e.1 e.2 := by
  rintro ⟨host, data⟩ he
  cases h with
  | process job hid hwrite =>
    rcases (hwrite host data).1 he with ⟨rfl, rfl⟩ | ⟨-, hold⟩
    · exact ⟨rfl, hid, rfl⟩
    · exact hm _ hold
  | cleanup now => exact hm _ (mem_cleanup.1 he).1
  | getBestHost => exact hm _ he

theorem Reachable.sound {m : Table} (h : Reachable m) : ∀ e ∈ m.entries, Sound e.1 e.2 := by
  induction h with
  | refl => exact fun e he => absurd he List.not_mem_nil
  | tail _ hstep ih => exact sound_step ih hstep

/-! ### The best host -/

theorem getBestHost_spec {m : Table} (hm : ∀ e ∈ m.entries, Sound e.1 e.2) (hne : m.entries ≠ []) :
    ∃ data, (getBestHost m, data) ∈ m.entries ∧ ∀ e ∈ m.entries, e.2.score ≤ data.score := by
  refine UnorderedMap.best_spec (·.score) (fun e he => ?_) hne
  have hscore := (hm e he).score_mem_Icc.1
  show (-1 : ℚ) < e.2.score
  linarith

theorem getBestHost_eq_empty_iff {m : Table} (hm : ∀ e ∈ m.entries, Sound e.1 e.2) :
    getBestHost m = "" ↔ m.entries = [] := by
  refine ⟨fun hempty => ?_, fun hnil => UnorderedMap.best_of_nil _ hnil⟩
  by_contra hne
  obtain ⟨data, hmem, -⟩ := getBestHost_spec hm hne
  exact (hm _ hmem).host_ne hempty

/-- **The table of the live scores.**  In every run of writes, cleanup passes and queries, each
entry stands under the non-empty identifier of its report, with the score of its report, which lies
in `[0, 100]`; a cleanup pass removes the entries older than 60 whole seconds and no others; and
`GetBestHost` returns the empty string for the empty table and otherwise a host with a maximal
score. -/
theorem host_scores_reachable {m : Table} (h : Reachable m) :
    (∀ host data, (host, data) ∈ m.entries →
      host = serverIdentifier data.info ∧ host ≠ "" ∧ data.score = calcScore data.info ∧
        0 ≤ data.score ∧ data.score ≤ 100) ∧
    (∀ now host data, (host, data) ∈ (cleanup now m).entries ↔
      (host, data) ∈ m.entries ∧ ¬ 60 < age now data) ∧
    (getBestHost m = "" ↔ m.entries = []) ∧
    (m.entries ≠ [] → ∃ data, (getBestHost m, data) ∈ m.entries ∧
      ∀ other data', (other, data') ∈ m.entries → data'.score ≤ data.score) := by
  have hsound := h.sound
  refine ⟨fun host data he => ?_, fun now host data => mem_cleanup,
    getBestHost_eq_empty_iff hsound, fun hne => ?_⟩
  · have hentry : Sound host data := hsound _ he
    exact ⟨hentry.host_eq, hentry.host_ne, hentry.score_eq, hentry.score_mem_Icc⟩
  · obtain ⟨data, hmem, hmax⟩ := getBestHost_spec hsound hne
    exact ⟨data, hmem, fun other data' he => hmax _ he⟩

/-- A report that carries a name only. -/
def named (name : String) : MonitorInfo ℚ := { name := name }

/-- The entry that a report of `name` leaves at `now`. -/
def entryAt (name : String) (now : ℤ) : String × HostScore ℚ :=
  (name, ⟨named name, calcScore (named name), now⟩)

/-- A report of `web`, one of `db` half a minute later, and a cleanup pass when the first is 61
seconds old. -/
theorem reachable_db : Reachable ⟨[entryAt "db" 30000000000], List.nodup_singleton _⟩ := by
  have hnodup : ["web", "db"].Nodup := by decide
  have hweb : Step UnorderedMap.empty ⟨[entryAt "web" 0], List.nodup_singleton _⟩ := by
    refine .process ⟨named "web", 0, .connected⟩ (by decide) fun j w => ?_
    simp [entryAt, UnorderedMap.empty, show serverIdentifier (named "web") = "web" by decide]
  have hdb : Step ⟨[entryAt "web" 0], List.nodup_singleton _⟩
      ⟨[entryAt "web" 0, entryAt "db" 30000000000], hnodup⟩ := by
    refine .process ⟨named "db", 30000000000, .connected⟩ (by decide) fun j w => ?_
    simp only [entryAt, List.mem_cons, Prod.mk.injEq, List.not_mem_nil, or_false,
      show serverIdentifier (named "db") = "db" by decide]
    constructor
    · rintro (⟨rfl, rfl⟩ | h)
      · exact .inr ⟨by decide, rfl, rfl⟩
      · exact .inl h
    · rintro (h | ⟨-, h⟩)
      · exact .inr h
      · exact .inl h
  exact .tail (.tail (.tail .refl hweb) hdb) (.cleanup 61000000000 _)

theorem getBestHost_db :
    getBestHost ⟨[entryAt "db" 30000000000], List.nodup_singleton _⟩ = "db" := by
  obtain ⟨-, -, -, hbest⟩ := host_scores_reachable reachable_db
  obtain ⟨data, hmem, -⟩ := hbest (List.cons_ne_nil _ _)
  simpa [entryAt] using congrArg Prod.fst (List.mem_singleton.1 hmem)

end HostScores

end MonitorSystem
