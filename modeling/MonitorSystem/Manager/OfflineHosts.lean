import MonitorSystem.Manager.HostScores

/-!
# Offline hosts

A host counts as offline when no report of it has been processed for 60 seconds.  `ProcessLoop`
erases the old entries of `host_scores_` after each sleep of 60 seconds, and `GetBestHost` does not
look at their age, so that between two passes it can return a host that has gone offline.

`best_host_fresh_iff` says when it does; `best_host_within` bounds for how long.  Times are in
nanoseconds.
-/

namespace MonitorSystem

namespace OfflineHosts

open HostScores

/-- A minute. -/
def minute : ℤ := 60000000000

/-! ### Timed runs -/

/-- The table, the time of the last event, the time of the next pass of `ProcessLoop`, and, as
history, the reports that have been processed, each as its host and its time. -/
structure State where
  hostScores : Table := UnorderedMap.empty
  now : ℤ
  nextPass : ℤ
  processed : Set (String × ℤ) := ∅

/-- `Start` at `t₀`: `ProcessLoop` sleeps before its first pass. -/
def init (t₀ : ℤ) : State where
  now := t₀
  nextPass := t₀ + minute

/-- What happens next: a report is processed, before the next pass, or that pass is made.  Reports
without an identifier change nothing and are left out. -/
inductive Step (s : State) : State → Prop
  | process (job : Job ℚ) {m : Table} (hid : serverIdentifier job.info ≠ "")
      (hnow : s.now ≤ job.now) (hpass : job.now ≤ s.nextPass)
      (hwrite : s.hostScores.Assigned (serverIdentifier job.info)
        ⟨job.info, calcScore job.info, job.now⟩ m) :
      Step s
        { s with
          hostScores := m
          now := job.now
          processed := insert (serverIdentifier job.info, job.now) s.processed }
  | pass :
      Step s
        { s with
          hostScores := cleanup s.nextPass s.hostScores
          now := s.nextPass
          nextPass := s.nextPass + minute }

/-- The states of all runs that begin at `t₀`. -/
def Reachable (t₀ : ℤ) (s : State) : Prop := Relation.ReflTransGen Step (init t₀) s

/-- A report of the host has been processed within the last 60 seconds. -/
def Fresh (s : State) (now : ℤ) (host : String) : Prop :=
  ∃ t, (host, t) ∈ s.processed ∧ now - t ≤ minute

/-- The entry is older than 60 seconds. -/
def Stale (now : ℤ) (data : HostScore ℚ) : Prop := minute < now - data.timestamp

/-- Every stale entry is outdone by one that is not: by a higher score, or by an equal one earlier
in the table. -/
def Outdone (now : ℤ) (m : Table) : Prop :=
  ∀ before e after, m.entries = before ++ e :: after → Stale now e.2 →
    (∃ other ∈ before, ¬ Stale now other.2 ∧ e.2.score ≤ other.2.score) ∨
      ∃ other ∈ after, ¬ Stale now other.2 ∧ e.2.score < other.2.score

/-! ### The invariant -/

/-- An entry carries the time of the last report of its host, and is at most 60 whole seconds older
than the last pass. -/
structure Timely (s : State) : Prop where
  reachable : HostScores.Reachable s.hostScores
  now_ge : s.nextPass - minute ≤ s.now
  now_le : s.now ≤ s.nextPass
  last : ∀ host data, (host, data) ∈ s.hostScores.entries →
    (host, data.timestamp) ∈ s.processed ∧ ∀ t, (host, t) ∈ s.processed → t ≤ data.timestamp
  past : ∀ host t, (host, t) ∈ s.processed → t ≤ s.now
  recent : ∀ e ∈ s.hostScores.entries, s.nextPass - e.2.timestamp < minute + 61000000000

theorem timely_init (t₀ : ℤ) : Timely (init t₀) where
  reachable := .refl
  now_ge := by simp [init]
  now_le := by simp [init, minute]
  last _ _ he := absurd he List.not_mem_nil
  past _ _ ht := absurd ht (Set.notMem_empty _)
  recent _ he := absurd he List.not_mem_nil

/-- An age that is at most 60 whole seconds is less than 61 seconds. -/
theorem lt_of_age_le {now : ℤ} {data : HostScore ℚ} (h : ¬ 60 < age now data) :
    now - data.timestamp < 61000000000 := by
  rcases le_or_gt 0 (now - data.timestamp) with hpos | hneg
  · rw [age, Int.tdiv_eq_ediv_of_nonneg hpos] at h
    omega
  · omega

theorem timely_step {s s' : State} (hs : Timely s) (h : Step s s') : Timely s' := by
  obtain ⟨hreach, hge, hle, hlast, hpast, hrecent⟩ := hs
  cases h with
  | process job hid hnow hpass hwrite =>
    refine ⟨hreach.tail (.process job hid hwrite), hge.trans hnow, hpass, ?_, ?_, ?_⟩
    · intro host data he
      rcases (hwrite host data).1 he with ⟨rfl, rfl⟩ | ⟨hne, hold⟩
      · refine ⟨Set.mem_insert _ _, fun t ht => ?_⟩
        rcases Set.mem_insert_iff.1 ht with heq | ht
        · exact (Prod.ext_iff.1 heq).2.le
        · exact (hpast _ t ht).trans hnow
      · refine ⟨Set.mem_insert_of_mem _ (hlast host data hold).1, fun t ht => ?_⟩
        rcases Set.mem_insert_iff.1 ht with heq | ht
        · exact absurd (Prod.ext_iff.1 heq).1 hne
        · exact (hlast host data hold).2 t ht
    · intro host t ht
      rcases Set.mem_insert_iff.1 ht with heq | ht
      · exact (Prod.ext_iff.1 heq).2.le
      · exact (hpast host t ht).trans hnow
    · rintro ⟨host, data⟩ he
      rcases (hwrite host data).1 he with ⟨-, rfl⟩ | ⟨-, hold⟩
      · unfold minute at *
        show s.nextPass - job.now < _
        omega
      · exact hrecent _ hold
  | pass =>
    refine ⟨hreach.tail (.cleanup _ _), by simp, by simp [minute], ?_, ?_, ?_⟩
    · exact fun host data he => hlast host data (mem_cleanup.1 he).1
    · exact fun host t ht => (hpast host t ht).trans hle
    · intro e he
      have hage := lt_of_age_le (mem_cleanup.1 he).2
      show s.nextPass + minute - _ < _
      omega

theorem Reachable.timely {t₀ : ℤ} {s : State} (h : Reachable t₀ s) : Timely s := by
  induction h with
  | refl => exact timely_init t₀
  | tail _ hstep ih => exact timely_step ih hstep

/-! ### The host that is returned -/

/-- An entry is stale exactly when its host is offline. -/
theorem Timely.fresh_iff {s : State} (hs : Timely s) {now : ℤ} {host : String}
    {data : HostScore ℚ} (he : (host, data) ∈ s.hostScores.entries) :
    Fresh s now host ↔ ¬ Stale now data := by
  obtain ⟨hmem, hmax⟩ := hs.last host data he
  rw [Stale, not_lt]
  constructor
  · rintro ⟨t, ht, hage⟩
    have := hmax t ht
    omega
  · exact fun hage => ⟨data.timestamp, hmem, hage⟩

/-- The search ends with the first entry that has the highest score. -/
theorem getBestHost_first {m : Table} (hm : ∀ e ∈ m.entries, Sound e.1 e.2)
    (hne : m.entries ≠ []) : ∃ before e after, m.entries = before ++ e :: after ∧
      getBestHost m = e.1 ∧ (∀ a ∈ before, a.2.score < e.2.score) ∧
      ∀ a ∈ after, a.2.score ≤ e.2.score := by
  refine UnorderedMap.best_first (·.score) (fun e he => ?_) hne
  have hscore := (hm e he).score_mem_Icc.1
  show (-1 : ℚ) < e.2.score
  linarith

/-- The first entry with the highest score is fresh if and only if every stale one is outdone. -/
theorem outdone_iff {now : ℤ} {m : Table} {before after : List (String × HostScore ℚ)}
    {best : String × HostScore ℚ} (hm : m.entries = before ++ best :: after)
    (hbefore : ∀ a ∈ before, a.2.score < best.2.score)
    (hafter : ∀ a ∈ after, a.2.score ≤ best.2.score) :
    ¬ Stale now best.2 ↔ Outdone now m := by
  constructor
  · intro hfresh before' e after' hsplit hstale
    rw [hm, List.append_eq_append_iff] at hsplit
    obtain ⟨between, rfl, htail⟩ | ⟨between, rfl, htail⟩ := hsplit
    · cases between with
      | nil =>
        cases htail
        exact absurd hstale hfresh
      | cons _ between =>
        -- the best entry stands before the stale one
        obtain ⟨rfl, rfl⟩ := List.cons.inj htail
        exact .inl ⟨best, by simp, hfresh, hafter e (by simp)⟩
    · cases between with
      | nil =>
        cases htail
        exact absurd hstale hfresh
      | cons _ between =>
        obtain ⟨rfl, rfl⟩ := List.cons.inj htail
        exact .inr ⟨best, by simp, hfresh, hbefore e (by simp)⟩
  · intro houtdone hstale
    rcases houtdone before best after hm hstale with ⟨a, ha, -, hle⟩ | ⟨a, ha, -, hlt⟩
    · exact absurd hle (not_le.2 (hbefore a ha))
    · exact absurd hlt (not_lt.2 (hafter a ha))

/-- **Offline hosts.**  In every run and at every time of a call: the host that `GetBestHost`
returns, if any, has had a report within the last 60 seconds if and only if every entry older than
that is outdone by one that is not. -/
theorem best_host_fresh_iff {t₀ : ℤ} {s : State} (h : Reachable t₀ s) (now : ℤ) :
    (getBestHost s.hostScores ≠ "" → Fresh s now (getBestHost s.hostScores)) ↔
      Outdone now s.hostScores := by
  have hs := h.timely
  have hsound := hs.reachable.sound
  by_cases hnil : s.hostScores.entries = []
  · have hempty := (getBestHost_eq_empty_iff hsound).2 hnil
    refine iff_of_true (fun hne => absurd hempty hne) fun before e after hsplit _ => ?_
    rw [hnil] at hsplit
    simp at hsplit
  · obtain ⟨before, best, after, hm, hbest, hbefore, hafter⟩ := getBestHost_first hsound hnil
    have hmem : best ∈ s.hostScores.entries := by
      rw [hm]
      simp
    have hne : best.1 ≠ "" := (hsound best hmem).host_ne
    rw [hbest, hs.fresh_iff hmem, ← outdone_iff hm hbefore hafter]
    exact ⟨fun hfresh => hfresh hne, fun hfresh _ => hfresh⟩

/-- No host is returned whose last report is 121 seconds old. -/
theorem best_host_within {t₀ now : ℤ} {s : State} (h : Reachable t₀ s) (hpass : now ≤ s.nextPass)
    (hne : getBestHost s.hostScores ≠ "") :
    ∃ t, (getBestHost s.hostScores, t) ∈ s.processed ∧ now - t < 121000000000 := by
  have hs := h.timely
  have hsound := hs.reachable.sound
  have hentries : s.hostScores.entries ≠ [] :=
    fun hnil => hne ((getBestHost_eq_empty_iff hsound).2 hnil)
  obtain ⟨data, hmem, -⟩ := getBestHost_spec hsound hentries
  refine ⟨data.timestamp, (hs.last _ data hmem).1, ?_⟩
  have hrecent := hs.recent _ hmem
  unfold minute at hrecent
  dsimp only at hrecent
  omega

/-! ### A host that goes offline -/

/-- A report of `web` at the start. -/
def reported : State :=
  { init 0 with
    hostScores := ⟨[entryAt "web" 0], List.nodup_singleton _⟩
    processed := {(serverIdentifier (named "web"), 0)} }

/-- The pass a minute later. -/
def keptOnce : State :=
  { reported with
    hostScores := cleanup minute reported.hostScores
    now := minute
    nextPass := minute + minute }

theorem reachable_keptOnce : Reachable 0 keptOnce := by
  have hid : serverIdentifier (named "web") = "web" := by decide
  have hreport : Step (init 0) reported := by
    have hwrite : UnorderedMap.Assigned (init 0).hostScores (serverIdentifier (named "web"))
        ⟨named "web", calcScore (named "web"), 0⟩ reported.hostScores := by
      intro host data
      simp [hid, init, reported, entryAt, UnorderedMap.empty]
    have hstep := Step.process ⟨named "web", 0, .connected⟩ (by rw [hid]; decide) le_rfl
      (by decide) hwrite
    simpa [reported, init] using hstep
  have hpass : Step reported keptOnce := by
    have hnext : reported.nextPass = minute := by decide
    have hstep := Step.pass (s := reported)
    rwa [hnext] at hstep
  exact (Relation.ReflTransGen.single hreport).tail hpass

theorem getBestHost_keptOnce : getBestHost keptOnce.hostScores = "web" := by
  have hkept : entryAt "web" 0 ∈ keptOnce.hostScores.entries :=
    mem_cleanup.2 ⟨List.mem_singleton_self _, by decide⟩
  obtain ⟨data, hmem, -⟩ := getBestHost_spec reachable_keptOnce.timely.reachable.sound
    (List.ne_nil_of_mem hkept)
  have hentry := (mem_cleanup.1 hmem).1
  exact congrArg Prod.fst (List.mem_singleton.1 hentry)

theorem best_host_fresh_keptOnce :
    (getBestHost keptOnce.hostScores ≠ "" →
      Fresh keptOnce 100000000000 (getBestHost keptOnce.hostScores)) ↔
      Outdone 100000000000 keptOnce.hostScores :=
  best_host_fresh_iff reachable_keptOnce 100000000000

/-- A host is returned 100 seconds after its last report. -/
theorem offline_host_returned :
    ¬ ∀ (t₀ now : ℤ) (s : State), Reachable t₀ s → s.now ≤ now → now ≤ s.nextPass →
      getBestHost s.hostScores ≠ "" → Fresh s now (getBestHost s.hostScores) := by
  intro hclaim
  have hfresh := hclaim 0 100000000000 keptOnce reachable_keptOnce (by decide) (by decide)
    (by rw [getBestHost_keptOnce]; decide)
  obtain ⟨t, ht, hage⟩ := hfresh
  have hzero : t = 0 := (Prod.ext_iff.1 (Set.mem_singleton_iff.1 ht)).2
  rw [hzero] at hage
  exact absurd hage (by decide)

end OfflineHosts

end MonitorSystem
