import MonitorSystem.Manager.Progress
import MonitorSystem.Manager.Shutdown
import MonitorSystem.System.Fleet

/-!
# An acknowledged report is processed

`System/Fleet.lean` says where the reports of a worker are once their calls have succeeded; here
it is shown that they do not stay in their queue.  The run of the whole system projects to a run of
the manager's threads (`pipe_run`), in which nobody calls `Stop`, and the rank of
`Manager/Progress.lean` bounds the steps that the one consumer of the worker still takes.  As in
`System/Fleet.lean` the manager serves: every consumer is alive, and nobody calls `Stop`.
-/

namespace MonitorSystem

namespace Fleet

open Transition (run run_invariant run_invariant_along run_project along_of_forall
  reached_of_rank_le)

variable {cfg : Config} {s s' : State}

/-- The step of a thread of the manager that an event is. -/
def pipeEvent : Event → Option Pipeline.Event
  | .manager (.call c) => some (.begin c)
  | .manager (.push c) => some (.push c)
  | .manager (.ret c) => some (.ret c)
  | .manager (.test i) => some (.test i)
  | .manager (.pop i) => some (.pop i)
  | .manager (.process i _ _) => some (.done i)
  | .manager (.store _ _) | .cleanup _ | .push _ | .answered _ | .failed _ => none

/-- The consumer whose step an event is. -/
def Event.consumer (e : Event) : Option ℕ := (pipeEvent e).bind Pipeline.Event.consumer

theorem pipe_step (s : State) (e : Event) (s' : State) (h : step cfg s e = some s') :
    (pipeEvent e).elim (s'.manager.pipe = s.manager.pipe) fun f =>
      Pipeline.step cfg.pipeline s.manager.pipe f = some s'.manager.pipe := by
  cases move_of_step h with
  | push _ | cleanup _ | answered _ _ | failed => rfl
  | @manager e m _ hstep =>
    cases e with
    | store c now =>
      simp only [LiveStores.step] at hstep
      split_ifs at hstep
      cases hstep
      rfl
    | call c =>
      simp only [LiveStores.step] at hstep
      split_ifs at hstep
      obtain ⟨pipe, hpipe, rfl⟩ := Option.map_eq_some_iff.1 hstep
      exact hpipe
    | push c | ret c | test i | pop i =>
      obtain ⟨pipe, hpipe, rfl⟩ := Option.map_eq_some_iff.1 hstep
      exact hpipe
    | process i now connection =>
      simp only [LiveStores.step] at hstep
      split at hstep
      next =>
        obtain ⟨pipe, hpipe, rfl⟩ := Option.map_eq_some_iff.1 hstep
        exact hpipe
      next => cases hstep

/-- The threads of the manager in a run of the system. -/
theorem pipe_run {es : List Event} (h : run (step cfg) s es = some s') :
    run (Pipeline.step cfg.pipeline) s.manager.pipe (es.filterMap pipeEvent) =
      some s'.manager.pipe :=
  run_project (fun s : State => s.manager.pipe) pipeEvent pipe_step h

/-- Nobody calls `Stop`. -/
theorem forall_ne_clearRunning (es : List Event) :
    ∀ f ∈ es.filterMap pipeEvent, f ≠ .clearRunning := by
  rintro f hf rfl
  obtain ⟨e, -, he⟩ := List.mem_filterMap.1 hf
  cases e with
  | manager e => cases e <;> cases he
  | push _ | cleanup _ | answered _ | failed _ => cases he

/-- The manager serves, its owner does nothing, and no consumer has returned. -/
structure Ready (s : Pipeline.State) : Prop where
  running : s.running = true
  owner : s.owner = .idle
  terminated : s.terminated = false
  notDead : ∀ i, (s.consumer i).dead = false

/-- No step of the system is one of the owner. -/
theorem ready_step {cfg : Pipeline.Config ℚ} (s : Pipeline.State) (f : Pipeline.Event)
    (s' : Pipeline.State) (hs : Ready s) (hf : ∃ e, pipeEvent e = some f)
    (h : Pipeline.step cfg s f = some s') : Ready s' := by
  have hdead := Pipeline.not_dead_step hs.notDead (fun _ _ => hs.running) h
  obtain ⟨e, he⟩ := hf
  cases Pipeline.move_of_step h with
  | begin _ _ | push _ _ | pushNowhere _ | ret _ | enter _ _ | leave _ _ | popValue _ _
  | popStopped _ _ _ | done _ => exact ⟨hs.running, hs.owner, hs.terminated, hdead⟩
  | _ =>
    cases e with
    | manager e => cases e <;> cases he
    | push _ | cleanup _ | answered _ | failed _ => cases he

theorem ready_run {es : List Event} (h : run (step cfg) (start cfg) es = some s) :
    Ready s.manager.pipe := by
  refine run_invariant_along ready_step (pipe_run h) (along_of_forall (fun f hf => ?_) _)
    ⟨rfl, rfl, rfl, fun i => ?_⟩
  · obtain ⟨e, -, he⟩ := List.mem_filterMap.1 hf
    exact ⟨e, he⟩
  · show (if i < cfg.pipeline.threadCount then Pipeline.ConsumerPc.popping else .unborn).dead =
      false
    split_ifs <;> rfl

/-! ### The consumer of a worker -/

/-- A step of a consumer of the pipeline is one of the system. -/
theorem exists_step_of_pipe {f : Pipeline.Event} {i : ℕ} (hf : f.consumer = some i)
    (h : (Pipeline.step cfg.pipeline s.manager.pipe f).isSome) :
    ∃ e, Event.consumer e = some i ∧ (step cfg s e).isSome := by
  obtain ⟨pipe, hpipe⟩ := Option.isSome_iff_exists.1 h
  cases f with
  | test j =>
    exact ⟨.manager (.test j), hf, by simp [step, Sent, LiveStores.step, hpipe]⟩
  | pop j =>
    exact ⟨.manager (.pop j), hf, by simp [step, Sent, LiveStores.step, hpipe]⟩
  | done j =>
    refine ⟨.manager (.process j 0 .initFailed), hf, ?_⟩
    cases Pipeline.move_of_step hpipe with
    | done hj => simp [step, Sent, LiveStores.step, hj, hpipe]
  | _ => cases hf

theorem countP_pipe (es : List Event) (i : ℕ) :
    (es.filterMap pipeEvent).countP (·.consumer == some i) =
      es.countP (·.consumer == some i) := by
  rw [List.countP_filterMap]
  refine List.countP_congr fun e _ => ?_
  cases he : pipeEvent e <;> simp [Event.consumer, he]

/-- The consumer of a worker is alive, and an acknowledged report is processed or awaits it. -/
theorem awaited_of_succeeded (hs : Inv cfg s) (hready : Ready s.manager.pipe) {w k : ℕ}
    (hk : k ∈ s.clients.succeeded w) :
    Nat.pair w k ∈ s.manager.pipe.handled (cfg.lane w) ∨
      Pipeline.Awaited cfg.pipeline (cfg.lane w) (Nat.pair w k) s.manager.pipe := by
  have hborn : s.manager.pipe.consumer (cfg.lane w) ≠ .unborn := by
    rw [Ne, hs.wf.unborn, hs.wf.size_eq (by rw [hready.owner]; nofun), not_le]
    exact Nat.mod_lt _ cfg.pipeline.threadCount_pos
  have halive := (Pipeline.alive_iff_not_dead hborn).2 (hready.notDead _)
  rcases FifoLane.mem_contents.1 (hs.mem_lane hk) with hdone | hcurrent | hqueue
  · exact .inl hdone
  · exact .inr ⟨hs.wf, hready.running, halive, .inl hcurrent⟩
  · exact .inr ⟨hs.wf, hready.running, halive, .inr hqueue⟩

/-- **An acknowledged report is processed.**  In every reachable state of the workers and a manager
that serves, all its consumers alive and `Stop` not called, a report whose call has succeeded has
been processed, or the one consumer of its worker can move; and it has been processed once that
consumer has taken three steps for each report in its queue and one more, whatever the network, the
workers and the other threads do meanwhile. -/
theorem acknowledged_processed_within (cfg : Config) {es₀ : List Event} {s : State}
    (hrun₀ : run (step cfg) (start cfg) es₀ = some s) {w k : ℕ} (hk : k ∈ s.clients.succeeded w) :
    (Nat.pair w k ∈ s.manager.pipe.handled (cfg.lane w) ∨
      ∃ e, Event.consumer e = some (cfg.lane w) ∧ (step cfg s e).isSome) ∧
    ∀ es s', run (step cfg) s es = some s' →
      3 * (s.manager.pipe.queue (cfg.lane w)).queue.length + 1 ≤
        es.countP (·.consumer == some (cfg.lane w)) →
      Nat.pair w k ∈ s'.manager.pipe.handled (cfg.lane w) := by
  have hready := ready_run hrun₀
  rcases awaited_of_succeeded (inv_run hrun₀) hready hk with hdone | hawaited
  · refine ⟨.inl hdone, fun es s' hrun _ => ?_⟩
    exact run_invariant (fun _ _ _ => Pipeline.handled_step) (pipe_run hrun) hdone
  · obtain ⟨f, hf, hstep⟩ := Pipeline.exists_consumer_step hawaited hready.terminated
    refine ⟨.inr (exists_step_of_pipe hf hstep), fun es s' hrun hcount => ?_⟩
    refine reached_of_rank_le (I := Pipeline.Awaited cfg.pipeline (cfg.lane w) (Nat.pair w k))
      (P := fun _ f => f ≠ .clearRunning) (Pipeline.stepsUntilHandled (cfg.lane w) (Nat.pair w k))
      (·.consumer == some (cfg.lane w)) (fun t _ => Pipeline.stepsUntilHandled_pos _ _ t)
      (fun _ _ _ => Pipeline.awaited_step) (fun _ _ _ ht _ => Pipeline.handled_step ht)
      (pipe_run hrun) (along_of_forall (forall_ne_clearRunning es) _) hawaited ?_
    rw [countP_pipe]
    exact hawaited.stepsUntilHandled_le_length.trans hcount

theorem acknowledged_processed_oneWaiting :
    ∃ s, run (step twoHosts) (start twoHosts) oneWaiting = some s ∧
      ∃ e, Event.consumer e = some 0 ∧ (step twoHosts s e).isSome := by
  obtain ⟨s, hrun, hacknowledged, hhandled⟩ := run_oneWaiting
  have hk : 0 ∈ s.clients.succeeded 0 := by
    rw [hacknowledged]
    exact List.mem_singleton_self 0
  refine ⟨s, hrun, ((acknowledged_processed_within twoHosts hrun hk).1).resolve_left ?_⟩
  show _ ∉ s.manager.pipe.handled 0
  rw [hhandled]
  exact List.not_mem_nil

end Fleet

end MonitorSystem
