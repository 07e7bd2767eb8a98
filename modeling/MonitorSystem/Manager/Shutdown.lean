import MonitorSystem.Manager.Ingest

/-!
# `Stop` and the backlog

`SafeQueue::Pop` keeps delivering after the queue has been stopped and reports failure only once
it is empty, so that a stopped queue could be drained.  `Stop`, however, first stores false in
`running_`, and a consumer evaluates `while (running_)` between any two calls of `Pop`.

From the moment of that store the fate of every queued report is settled: the front report of a
consumer that is already inside `Pop` is delivered (`Saved`), every other one stays in its queue
for ever (`Doomed`).  `stop_drains_iff` is the exact condition for a shutdown that drops nothing.
-/

namespace MonitorSystem

namespace Pipeline

open Transition Function

variable {F : Type} {cfg : Config F}

/-- The report of call `c` has been handed to `ProcessData`. -/
def Handed (s : State) (c : ℕ) : Prop := ∃ i, c ∈ s.handled i ∨ (s.consumer i).current = some c

/-- Consumer `i` is inside `Pop` and the report of call `c` is at the front of its queue. -/
def Grasped (s : State) (i c : ℕ) : Prop :=
  s.consumer i = .popping ∧ (s.queue i).queue.head? = some c

/-! ### `Stop` joins the consumers -/

/-- Every consumer has been joined. -/
def AllJoined (cfg : Config F) (s : State) : Prop := ∀ i < cfg.threadCount, s.consumer i = .joined

/-- `Stop` has stored false in `running_`: either it has joined every consumer since, or it is
still in one of its two loops. -/
def Halting (cfg : Config F) (s : State) : Prop :=
  AllJoined cfg s ∨ s.running = false ∧ s.stopReturned = false ∧
    ((∃ k, s.owner = .stopping k) ∨ ∃ k, s.owner = .joining k ∧ ∀ i < k, s.consumer i = .joined)

/-- A joined consumer stays so. -/
theorem joined_step {s s' : State} {e : Event} {i : ℕ} (hwf : WF cfg s)
    (hi : s.consumer i = .joined) (h : step cfg s e = some s') : s'.consumer i = .joined := by
  have hupd : ∀ {j pc}, s.consumer j ≠ .joined → update s.consumer j pc i = .joined :=
    fun hj => holds_update (Q := (· = ConsumerPc.joined)) (fun hj' => absurd hj' hj) hi
  cases move_of_step h with
  | spawn _ _ => exact hupd (by rw [(hwf.unborn _).2 le_rfl]; nofun)
  | join _ _ hj | enter hj _ | leave hj _ | popValue hj _ | popStopped hj _ _ | done hj =>
    exact hupd (by rw [hj]; nofun)
  | _ => exact hi

/-- `Stop` goes through its two loops and leaves them only when all consumers are joined. -/
theorem halting_step {s s' : State} {e : Event} (hwf : WF cfg s) (hs : Halting cfg s)
    (h : step cfg s e = some s') : Halting cfg s' := by
  rcases hs with hall | ⟨hr, hret, howner⟩
  · exact .inl fun i hi => joined_step hwf (hall i hi) h
  have hkeep : ∀ i, s.consumer i = .joined → s'.consumer i = .joined :=
    fun i hi => joined_step hwf hi h
  -- a step of another thread leaves `Stop` where it is
  have hother : s'.running = s.running → s'.stopReturned = s.stopReturned →
      s'.owner = s.owner → Halting cfg s' := by
    intro hr' hret' howner'
    refine .inr ⟨hr' ▸ hr, hret' ▸ hret, ?_⟩
    rw [howner']
    exact howner.imp_right fun ⟨k, hk, hj⟩ => ⟨k, hk, fun i hi => hkeep i (hj i hi)⟩
  cases move_of_step h with
  | spawn ho _ | constructed ho _ | setRunning ho | spawnCleaner ho _ | stopCall ho
  | clearRunning ho _ | stopEarly ho _ | joinCleaner ho _ | joinCleanerSkip ho _
  | terminate ho _ => simp [ho] at howner
  | stopQueue _ _ => exact .inr ⟨hr, hret, .inl ⟨_, rfl⟩⟩
  | queuesStopped _ _ => exact .inr ⟨hr, hret, .inr ⟨0, rfl, fun i hi => absurd hi i.not_lt_zero⟩⟩
  | @join k ho _ hc =>
    refine .inr ⟨hr, hret, .inr ⟨k + 1, rfl, fun i hi => ?_⟩⟩
    by_cases hik : i = k
    · subst hik
      exact update_self ..
    · have hj : ∀ i < k, s.consumer i = .joined := by simpa [ho] using howner
      exact hkeep i (hj i (by omega))
  | @joinSkip k ho _ hc =>
    refine .inr ⟨hr, hret, .inr ⟨k + 1, rfl, fun i hi => ?_⟩⟩
    have hj : ∀ i < k, s.consumer i = .joined := by simpa [ho] using howner
    by_cases hik : i = k
    · rw [hik]
      exact hc
    · exact hj i (by omega)
  | @allJoined k ho hk =>
    have hj : ∀ i < k, s.consumer i = .joined := by simpa [ho] using howner
    have hsize := hwf.size_eq (by rw [ho]; nofun)
    exact .inl fun i hi => hj i (by omega)
  | _ => exact hother rfl rfl rfl

/-! ### The fate of a queued report -/

/-- The report of call `c` has been handed to `ProcessData` or is about to be. -/
def Saved (s : State) (c : ℕ) : Prop := Handed s c ∨ ∃ i, Grasped s i c

/-- The report of call `c` is queued and its consumer is not about to take it. -/
def Doomed (s : State) (c : ℕ) : Prop := ∃ i, c ∈ (s.queue i).queue ∧ ¬ Grasped s i c

/-- A report in hand stays in hand while the steps change consumers that hold none. -/
theorem current_of_update {s : State} {i j c : ℕ} {pc : ConsumerPc}
    (hj : (s.consumer j).current = none) (hi : (s.consumer i).current = some c) :
    (update s.consumer j pc i).current = some c :=
  holds_update (Q := (ConsumerPc.current · = some c)) (fun hj' => by simp [hj] at hj') hi

/-- A report that has been handed over stays so. -/
theorem handed_step {s s' : State} {e : Event} {c : ℕ} (hwf : WF cfg s) (hs : Handed s c)
    (h : step cfg s e = some s') : Handed s' c := by
  obtain ⟨i, hi⟩ := hs
  have hupd : ∀ {j pc}, (s.consumer j).current = none →
      c ∈ s.handled i ∨ (update s.consumer j pc i).current = some c :=
    fun hj => hi.imp_right (current_of_update hj)
  cases move_of_step h with
  | spawn _ _ => exact ⟨i, hupd (by rw [(hwf.unborn _).2 le_rfl]; rfl)⟩
  | join _ _ hj | enter hj _ | leave hj _ | popValue hj _ | popStopped hj _ _ =>
    exact ⟨i, hupd (by rw [hj]; rfl)⟩
  | @done j d hj =>
    refine ⟨i, ?_⟩
    show c ∈ update s.handled j _ i ∨ _
    by_cases hij : i = j
    · subst hij
      rw [update_self, List.mem_append]
      refine .inl (hi.imp_right fun hcur => ?_)
      rw [hj] at hcur
      exact List.mem_singleton.2 (Option.some.inj hcur).symm
    · rw [update_of_ne hij]
      exact hi.imp_right fun hcur => (congrArg _ (update_of_ne hij ..)).trans hcur
  | _ => exact ⟨i, hi⟩

/-- A consumer inside `Pop` keeps its front report or takes it. -/
theorem grasped_step {s s' : State} {e : Event} {i c : ℕ} (hwf : WF cfg s) (hs : Grasped s i c)
    (h : step cfg s e = some s') : Grasped s' i c ∨ (s'.consumer i).current = some c := by
  obtain ⟨hpop, hhead⟩ := hs
  have hupd : ∀ {j pc}, s.consumer j ≠ .popping → update s.consumer j pc i = .popping :=
    fun hj => holds_update (Q := (· = ConsumerPc.popping)) (fun hj' => absurd hj' hj) hpop
  cases move_of_step h with
  | spawn _ _ => exact .inl ⟨hupd (by rw [(hwf.unborn _).2 le_rfl]; nofun), hhead⟩
  | join _ _ hj | enter hj _ | leave hj _ | done hj =>
    exact .inl ⟨hupd (by rw [hj]; nofun), hhead⟩
  | @popValue j d rest hj hq =>
    by_cases hij : i = j
    · subst hij
      rw [hq] at hhead
      cases hhead
      exact .inr (by simp [ConsumerPc.current])
    · refine .inl ⟨?_, ?_⟩
      · exact (update_of_ne hij ..).trans hpop
      · show (update s.queue j _ i).queue.head? = some c
        rwa [update_of_ne hij]
  | @popStopped j hj hq _ =>
    have hij : i ≠ j := by
      rintro rfl
      rw [hq] at hhead
      cases hhead
    exact .inl ⟨(update_of_ne hij ..).trans hpop, hhead⟩
  | stopQueue _ _ => exact .inl ⟨hpop, by rwa [queue_update_stopped]⟩
  | @push d j _ _ =>
    refine .inl ⟨hpop, ?_⟩
    show (update s.queue j _ i).queue.head? = some c
    by_cases hij : i = j
    · subst hij
      rw [update_self, SafeQueue.queue_push, List.head?_append, hhead]
      rfl
    · rwa [update_of_ne hij]
  | _ => exact .inl ⟨hpop, hhead⟩

theorem saved_step {s s' : State} {e : Event} {c : ℕ} (hwf : WF cfg s) (hs : Saved s c)
    (h : step cfg s e = some s') : Saved s' c := by
  rcases hs with hh | ⟨i, hg⟩
  · exact .inl (handed_step hwf hh h)
  · rcases grasped_step hwf hg h with hg' | hcur
    · exact .inr ⟨i, hg'⟩
    · exact .inl ⟨i, .inr hcur⟩

/-- Once `running_` is false no consumer enters `Pop`, and a report that nobody is about to take
stays in its queue. -/
theorem doomed_step {s s' : State} {e : Event} {c : ℕ} (hwf : WF cfg s) (hhalt : Halting cfg s)
    (hs : Doomed s c) (h : step cfg s e = some s') : Doomed s' c := by
  obtain ⟨i, hmem, hng⟩ := hs
  -- the consumer of a queue that is left as it is has not entered `Pop`
  have hupd : ∀ {j pc}, update s.consumer j pc i = .popping → pc ≠ .popping →
      s.consumer i = .popping :=
    fun hp hpc => holds_of_update (Q := (· = ConsumerPc.popping)) (fun hp' => absurd hp' hpc) hp
  -- nor has a queue changed when another one is pushed to or popped
  have hother : ∀ {j q}, i ≠ j → c ∈ (update s.queue j q i).queue ∧
      ((update s.queue j q i).queue.head? = some c → (s.queue i).queue.head? = some c) := by
    intro j q hij
    rw [update_of_ne hij]
    exact ⟨hmem, id⟩
  cases move_of_step h with
  | @enter j hj hr =>
    rcases hhalt with hall | ⟨hr', -, -⟩
    · rw [hall j (hwf.lt_of_born (by rw [hj]; nofun))] at hj
      cases hj
    · rw [hr] at hr'
      cases hr'
  | spawn _ _ | join _ _ _ | leave _ _ | popStopped _ _ _ | done _ =>
    exact ⟨i, hmem, fun hg => hng ⟨hupd hg.1 nofun, hg.2⟩⟩
  | @popValue j d rest hj hq =>
    by_cases hij : i = j
    · subst hij
      have hcd : c ≠ d := by
        rintro rfl
        exact hng ⟨hj, by rw [hq]; rfl⟩
      rw [hq] at hmem
      refine ⟨i, ?_, fun hg => absurd hg.1 (by simp)⟩
      show c ∈ (update s.queue i _ i).queue
      rw [update_self]
      exact (List.mem_cons.1 hmem).resolve_left hcd
    · obtain ⟨hmem', hhead⟩ := hother hij
      exact ⟨i, hmem', fun hg => hng ⟨hupd hg.1 nofun, hhead hg.2⟩⟩
  | stopQueue _ _ =>
    refine ⟨i, by rwa [queue_update_stopped], fun hg => hng ⟨hg.1, ?_⟩⟩
    have hhead := hg.2
    rwa [queue_update_stopped] at hhead
  | @push d j _ _ =>
    by_cases hij : i = j
    · subst hij
      refine ⟨i, ?_, fun hg => hng ⟨hg.1, ?_⟩⟩
      · show c ∈ (update s.queue i _ i).queue
        rw [update_self]
        exact List.mem_append_left _ hmem
      · have hhead : (update s.queue i _ i).queue.head? = some c := hg.2
        rw [update_self, SafeQueue.queue_push] at hhead
        cases hq : (s.queue i).queue with
        | nil =>
          rw [hq] at hmem
          cases hmem
        | cons a rest =>
          rw [hq] at hhead
          exact hhead
    · obtain ⟨hmem', hhead⟩ := hother hij
      exact ⟨i, hmem', fun hg => hng ⟨hg.1, hhead hg.2⟩⟩
  | _ => exact ⟨i, hmem, hng⟩

/-- A report that is queued has not been handed over. -/
theorem not_handed_of_queued {s : State} {i c : ℕ} (ha : Accounts cfg s)
    (hmem : c ∈ (s.queue i).queue) : ¬ Handed s c := by
  rintro ⟨j, hj⟩
  have hin : ∀ {k}, c ∈ (laneOf s k).contents → cfg.route c = some k := fun h => ha.routed _ c h
  have hi : c ∈ (laneOf s i).contents := FifoLane.mem_contents.2 (.inr (.inr hmem))
  have hcj : c ∈ (laneOf s j).contents :=
    FifoLane.mem_contents.2 (hj.imp_right Or.inl)
  obtain rfl : i = j := Option.some.inj ((hin hi).symm.trans (hin hcj))
  have hnodup := lane_nodup ha i
  rw [FifoLane.contents, List.nodup_append] at hnodup
  refine hnodup.2.2 c ?_ c hmem rfl
  rcases hj with hdone | hcur
  · exact List.mem_append_left _ hdone
  · exact List.mem_append_right _ (Option.mem_toList.2 hcur)

/-! ### Before `Stop` stores false -/

/-- `Stop` has not been called, or has not yet stored false in `running_`. -/
structure Serving (s : State) : Prop where
  running : s.running = true
  stopReturned : s.stopReturned = false
  owner : s.owner = .idle ∨ s.owner = .starting ∨ s.owner = .stopTest ∧ s.stopCalled = true

theorem serving_live (cfg : Config F) : Serving (live cfg) := ⟨rfl, rfl, .inl rfl⟩

/-- Only the store of `Stop` ends the service. -/
theorem serving_step {s s' : State} {e : Event} (hs : Serving s) (he : e ≠ .clearRunning)
    (h : step cfg s e = some s') : Serving s' := by
  obtain ⟨hr, hret, howner⟩ := hs
  cases move_of_step h with
  | spawn ho _ | constructed ho _ | stopQueue ho _ | queuesStopped ho _ | join ho _ _
  | joinSkip ho _ _ | allJoined ho _ | joinCleaner ho _ | joinCleanerSkip ho _ =>
    simp [ho] at howner
  | setRunning _ => exact ⟨rfl, hret, .inr (.inl rfl)⟩
  | spawnCleaner _ _ => exact ⟨hr, hret, .inl rfl⟩
  | stopCall _ => exact ⟨hr, hret, .inr (.inr ⟨rfl, rfl⟩)⟩
  | clearRunning _ _ | stopEarly _ _ => exact absurd rfl he
  | _ => exact ⟨hr, hret, howner⟩

/-- Without a call of `Stop` there is no store of `Stop`. -/
theorem not_stopCalled_step {s s' : State} {e : Event} (hs : s.stopCalled = false ∧ Serving s)
    (he : e ≠ .stopCall) (h : step cfg s e = some s') :
    s'.stopCalled = false ∧ Serving s' := by
  obtain ⟨hstop, hserving⟩ := hs
  have hne : e ≠ .clearRunning := by
    rintro rfl
    have howner := hserving.owner
    cases move_of_step h with
    | clearRunning ho _ | stopEarly ho _ => simp [ho, hstop] at howner
  refine ⟨?_, serving_step hserving hne h⟩
  cases move_of_step h with
  | stopCall _ => exact absurd rfl he
  | _ => exact hstop

/-! ### The two ends of `Stop` -/

/-- When `Stop` stores false in `running_`, the fate of every report is settled. -/
theorem settled {s t s' : State} {es : List Event} {c : ℕ} (hwf : WF cfg s) (ha : Accounts cfg s)
    (hs : Serving s) (ht : step cfg s .clearRunning = some t) (hrun : run (step cfg) t es = some s')
    (hret : s'.stopReturned = true) :
    (Saved s c → Handed s' c) ∧ (Doomed s c → ¬ Handed s' c) := by
  have hstore : Halting cfg t ∧ t.queue = s.queue ∧ t.consumer = s.consumer := by
    cases move_of_step ht with
    | clearRunning _ _ => exact ⟨.inr ⟨rfl, hs.stopReturned, .inl ⟨0, rfl⟩⟩, rfl, rfl⟩
    | stopEarly _ hr => exact absurd hs.running (by simp [hr])
  obtain ⟨hhalt, hqueue, hconsumer⟩ := hstore
  have hwft := wf_step hwf ht
  have hend : WF cfg s' ∧ Halting cfg s' :=
    run_invariant (I := fun u => WF cfg u ∧ Halting cfg u)
      (fun _ _ _ hu hstep => ⟨wf_step hu.1 hstep, halting_step hu.1 hu.2 hstep⟩) hrun ⟨hwft, hhalt⟩
  constructor
  · intro hsaved
    have hsaved' : Saved s' c :=
      (run_invariant (I := fun u => WF cfg u ∧ Saved u c)
        (fun _ _ _ hu hstep => ⟨wf_step hu.1 hstep, saved_step hu.1 hu.2 hstep⟩) hrun
        ⟨hwft, saved_step hwf hsaved ht⟩).2
    rcases hsaved' with hh | ⟨i, hpop, -⟩
    · exact hh
    · -- nobody is inside `Pop` when every consumer has been joined
      have hall : AllJoined cfg s' := hend.2.resolve_right (by simp [hret])
      rw [hall i (hend.1.lt_of_born (by rw [hpop]; nofun))] at hpop
      cases hpop
  · intro hdoomed
    have hdoomed' : Doomed t c := by
      rw [Doomed, hqueue]
      simp only [Grasped, hqueue, hconsumer]
      exact hdoomed
    have hdoom : Doomed s' c :=
      (run_invariant (I := fun u => (WF cfg u ∧ Halting cfg u) ∧ Doomed u c)
        (fun _ _ _ hu hstep => ⟨⟨wf_step hu.1.1 hstep, halting_step hu.1.1 hu.1.2 hstep⟩,
          doomed_step hu.1.1 hu.1.2 hu.2 hstep⟩) hrun ⟨⟨hwft, hhalt⟩, hdoomed'⟩).2
    obtain ⟨i, hmem, -⟩ := hdoom
    exact not_handed_of_queued (accounts_run hrun hwft (accounts_step hwf ha ht)) hmem

/-- **What `Stop` drains.**  Every run from the live manager that returns from `Stop` passes two
moments: `s₁`, when `Stop` is called, and `s₂`, when it is about to store false in `running_`.
Every report whose `OnDataReceived` had returned in `s₁` is handed to `ProcessData` by the end if
and only if each of them that is still queued in `s₂` is the front of its queue, with the consumer
of that queue already inside `Pop`. -/
theorem stop_drains_iff (cfg : Config F) {es : List Event} {s₃ : State}
    (hrun : run (step cfg) (live cfg) es = some s₃) (hret : s₃.stopReturned = true) :
    ∃ es₁ s₁ es₂ s₂ es₃, es = es₁ ++ .stopCall :: es₂ ++ .clearRunning :: es₃ ∧
      .stopCall ∉ es₁ ∧ .clearRunning ∉ es₂ ∧
      run (step cfg) (live cfg) es₁ = some s₁ ∧
      run (step cfg) s₁ (.stopCall :: es₂) = some s₂ ∧
      ((∀ c, s₁.call c = .returned → Handed s₃ c) ↔
        ∀ i, ∀ c ∈ (s₂.queue i).queue, s₁.call c = .returned → Grasped s₂ i c) := by
  have hserving : ∀ {t : State} {fs : List Event}, .stopCall ∉ fs →
      run (step cfg) (live cfg) fs = some t → t.stopCalled = false ∧ Serving t := by
    intro t fs hfs ht
    exact run_invariant_along (fun _ _ _ => not_stopCalled_step) ht
      (along_of_forall (fun e he => ne_of_mem_of_not_mem he hfs) _) ⟨rfl, serving_live cfg⟩
  have hstop : Event.stopCall ∈ es := by
    by_contra hno
    have := (hserving hno hrun).2.stopReturned
    rw [hret] at this
    cases this
  obtain ⟨es₁, s₁, rest, rfl, hfirst, hrun₁, hrest⟩ := exists_first hrun hstop
  obtain ⟨u, hu, hrest⟩ := run_cons_eq_some.1 hrest
  have hu' : Serving u := serving_step (hserving hfirst hrun₁).2 (e := .stopCall) nofun hu
  have hclear : Event.clearRunning ∈ rest := by
    by_contra hno
    have := (run_invariant_along (fun _ _ _ => serving_step) hrest
      (along_of_forall (fun e he => ne_of_mem_of_not_mem he hno) _) hu').stopReturned
    rw [hret] at this
    cases this
  obtain ⟨es₂, s₂, es₃, rfl, hfirst', hrun₂, hrest⟩ := exists_first hrest hclear
  have hrun₁₂ : run (step cfg) s₁ (.stopCall :: es₂) = some s₂ :=
    run_cons_eq_some.2 ⟨u, hu, hrun₂⟩
  refine ⟨es₁, s₁, es₂, s₂, es₃, by simp, hfirst, hfirst', hrun₁, hrun₁₂, ?_⟩
  have hwf₁ := wf_run hrun₁ (wf_live cfg)
  have ha₁ := accounts_run hrun₁ (wf_live cfg) (accounts_live cfg)
  have hwf₂ := wf_run hrun₁₂ hwf₁
  have ha₂ := accounts_run hrun₁₂ hwf₁ ha₁
  have hs₂ : Serving s₂ := run_invariant_along (fun _ _ _ => serving_step) hrun₂
    (along_of_forall (fun e he => ne_of_mem_of_not_mem he hfirst') _) hu'
  obtain ⟨t, ht, hrest⟩ := run_cons_eq_some.1 hrest
  constructor
  · intro hall i c hmem hc
    by_contra hng
    exact (settled hwf₂ ha₂ hs₂ ht hrest hret).2 ⟨i, hmem, hng⟩ (hall c hc)
  · intro hfront c hc
    -- a report pushed before the call is handed over or queued at the store
    obtain ⟨i, hi⟩ := exists_lane_of_pushed ha₁ ((ha₁.pushed_iff c).2 (.inr hc))
    have hmem := (lane_prefix_run hrun₁₂ hwf₁ i).subset hi
    refine (settled hwf₂ ha₂ hs₂ ht hrest hret).1 ?_
    rcases FifoLane.mem_contents.1 hmem with hdone | hcur | hwait
    · exact .inl ⟨i, .inl hdone⟩
    · exact .inl ⟨i, .inr hcur⟩
    · exact .inr ⟨i, hfront i c hwait hc⟩

/-- Four threads and reports that `SetMonitorInfo` accepts, all routed to queue 0. -/
def sameQueue : Config ℚ := ⟨fun _ => 0, 4, fun _ => { name := "host" }⟩

/-- Calls 0 and 1 push one report each and return. -/
def twoQueued : List Event := [.begin 0, .push 0, .ret 0, .begin 1, .push 1, .ret 1]

/-- After the call of `Stop`: the consumer of queue 0 takes one report and leaves its loop, the
others find their queues empty. -/
def stopOnce : List Event :=
  [.clearRunning, .pop 0, .done 0, .test 0,
    .stopQueue, .stopQueue, .stopQueue, .stopQueue, .stopQueue,
    .pop 1, .test 1, .pop 2, .test 2, .pop 3, .test 3,
    .join, .join, .join, .join, .join, .cleanerTurn, .joinCleaner]

theorem twoQueued_stopOnce : ∃ s, run (step sameQueue) (live sameQueue)
    (twoQueued ++ .stopCall :: stopOnce) = some s ∧
      (s.stopReturned = true ∧ (s.queue 0).queue = [1]) := by
  have h : (run (step sameQueue) (live sameQueue) (twoQueued ++ .stopCall :: stopOnce)).map
      (fun s => (s.stopReturned, (s.queue 0).queue)) = some (true, [1]) := by decide +kernel
  obtain ⟨s, hs, heq⟩ := Option.map_eq_some_iff.1 h
  exact ⟨s, hs, Prod.ext_iff.1 heq⟩

theorem stop_drains_twoQueued : ∃ s₃, s₃.stopReturned = true ∧
    ∃ es₁ s₁ es₂ s₂, run (step sameQueue) (live sameQueue) es₁ = some s₁ ∧
      run (step sameQueue) s₁ (.stopCall :: es₂) = some s₂ ∧
      ((∀ c, s₁.call c = .returned → Handed s₃ c) ↔
        ∀ i, ∀ c ∈ (s₂.queue i).queue, s₁.call c = .returned → Grasped s₂ i c) := by
  obtain ⟨s₃, hrun, hret, -⟩ := twoQueued_stopOnce
  obtain ⟨es₁, s₁, es₂, s₂, -, -, -, -, h₁, h₂, hiff⟩ := stop_drains_iff sameQueue hrun hret
  exact ⟨s₃, hret, es₁, s₁, es₂, s₂, h₁, h₂, hiff⟩

/-- Of two queued reports `Stop` delivers one and drops the other. -/
theorem report_dropped_at_stop :
    ¬ ∀ (cfg : Config ℚ) (es₁ es₂ : List Event) (s₁ s₂ : State),
      run (step cfg) (live cfg) es₁ = some s₁ → s₁.stopCalled = false →
      run (step cfg) s₁ (.stopCall :: es₂) = some s₂ → s₂.stopReturned = true →
      ∀ c, s₁.call c = .returned → Handed s₂ c := by
  intro hclaim
  obtain ⟨s₂, hrun, hret, hqueue⟩ := twoQueued_stopOnce
  obtain ⟨s₁, h₁, h₂⟩ := run_append_eq_some.1 hrun
  have hbefore : (run (step sameQueue) (live sameQueue) twoQueued).map
      (fun s => (s.stopCalled, s.call 1)) = some (false, .returned) := by decide +kernel
  rw [h₁, Option.map_some, Option.some.injEq, Prod.ext_iff] at hbefore
  have ha := accounts_run hrun (wf_live sameQueue) (accounts_live sameQueue)
  have hmem : 1 ∈ (s₂.queue 0).queue := by simp [hqueue]
  exact not_handed_of_queued ha hmem
    (hclaim sameQueue twoQueued stopOnce s₁ s₂ h₁ hbefore.1 h₂ hret 1 hbefore.2)

end Pipeline

end MonitorSystem
