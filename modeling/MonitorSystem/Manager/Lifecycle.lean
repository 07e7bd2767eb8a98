import MonitorSystem.Manager.Pipeline

/-!
# Construction, `Start` and the consumers

`WF` collects what holds of every reachable state about the constructor's loop: the queues built
so far, the consumers created with them, and that no call begins before the loop is over.

The consumers are created by the constructor, while `running_` is still false, and each of them
loops on `while (running_)`.  `consumers_alive_iff` says what follows: between `Start` and `Stop`
every consumer is alive exactly when no consumer has evaluated its loop test before `Start`
stored `true`.
-/

namespace MonitorSystem

namespace Pipeline

open Transition Function

variable {F : Type} {cfg : Config F}

/-- The shape of every reachable state. -/
structure WF (cfg : Config F) (s : State) : Prop where
  size_le : s.queuesSize ≤ cfg.threadCount
  size_eq : s.owner ≠ .constructing → s.queuesSize = cfg.threadCount
  unborn : ∀ i, s.consumer i = .unborn ↔ s.queuesSize ≤ i
  started : s.startReturned = true → s.owner ≠ .constructing
  begun : ∀ c, s.call c ≠ .pending → s.owner ≠ .constructing

theorem wf_init (cfg : Config F) : WF cfg init where
  size_le := Nat.zero_le _
  size_eq h := absurd rfl h
  unborn i := by simp [init]
  started h := by simp [init] at h
  begun c h := absurd rfl h

theorem wf_live (cfg : Config F) : WF cfg (live cfg) where
  size_le := le_rfl
  size_eq _ := rfl
  unborn i := by
    show (if i < cfg.threadCount then ConsumerPc.popping else .unborn) = .unborn ↔ _
    split_ifs with h
    · simpa [live] using h
    · simpa [live] using h
  started _ := by simp [live]
  begun c h := absurd rfl h

/-- The consumers that exist are numbered below the thread count. -/
theorem WF.lt_of_born {s : State} {i : ℕ} (hwf : WF cfg s) (hi : s.consumer i ≠ .unborn) :
    i < cfg.threadCount := by
  by_contra hge
  exact hi ((hwf.unborn i).2 (hwf.size_le.trans (Nat.le_of_not_lt hge)))

/-- A consumer that exists already may move anywhere but back before its creation. -/
theorem unborn_update {s : State} {i : ℕ} {pc : ConsumerPc}
    (h : ∀ j, s.consumer j = .unborn ↔ s.queuesSize ≤ j) (hi : s.consumer i ≠ .unborn)
    (hpc : pc ≠ .unborn) (j : ℕ) :
    update s.consumer i pc j = .unborn ↔ s.queuesSize ≤ j := by
  by_cases hj : j = i
  · subst hj
    rw [update_self]
    exact ⟨fun he => absurd he hpc, fun hle => absurd ((h j).2 hle) hi⟩
  · rw [update_of_ne hj]
    exact h j

theorem unborn_spawn {s : State} (h : ∀ j, s.consumer j = .unborn ↔ s.queuesSize ≤ j) (j : ℕ) :
    update s.consumer s.queuesSize .loopTest j = .unborn ↔ s.queuesSize + 1 ≤ j := by
  by_cases hj : j = s.queuesSize
  · subst hj
    simp
  · rw [update_of_ne hj, h j]
    omega

/-- Every step keeps the shape. -/
theorem wf_step {s s' : State} {e : Event} (hwf : WF cfg s) (h : step cfg s e = some s') :
    WF cfg s' := by
  obtain ⟨hle, heq, hun, hst, hbe⟩ := hwf
  have hne : ∀ {i pc}, s.consumer i = pc → pc ≠ .unborn → s.consumer i ≠ .unborn := by
    intro i pc hi hpc
    rw [hi]
    exact hpc
  cases move_of_step h with
  | spawn ho hlt => exact ⟨hlt, fun hc => absurd ho hc, unborn_spawn hun, hst, hbe⟩
  | constructed ho hsize => exact ⟨hle, fun _ => hsize, hun, nofun, nofun⟩
  | setRunning ho => exact ⟨hle, fun _ => heq (by simp [ho]), hun, nofun, nofun⟩
  | spawnCleaner ho _ => exact ⟨hle, fun _ => heq (by simp [ho]), hun, nofun, nofun⟩
  | terminate ho _ => exact ⟨hle, heq, hun, hst, hbe⟩
  | stopCall ho => exact ⟨hle, fun _ => heq (by simp [ho]), hun, nofun, nofun⟩
  | clearRunning ho _ => exact ⟨hle, fun _ => heq (by simp [ho]), hun, nofun, nofun⟩
  | stopEarly ho _ => exact ⟨hle, fun _ => heq (by simp [ho]), hun, nofun, nofun⟩
  | stopQueue ho _ => exact ⟨hle, fun _ => heq (by simp [ho]), hun, nofun, nofun⟩
  | queuesStopped ho _ => exact ⟨hle, fun _ => heq (by simp [ho]), hun, nofun, nofun⟩
  | join ho _ hc =>
    exact ⟨hle, fun _ => heq (by simp [ho]), unborn_update hun (hne hc nofun) nofun, nofun, nofun⟩
  | joinSkip ho _ _ => exact ⟨hle, fun _ => heq (by simp [ho]), hun, nofun, nofun⟩
  | allJoined ho _ => exact ⟨hle, fun _ => heq (by simp [ho]), hun, nofun, nofun⟩
  | joinCleaner ho _ => exact ⟨hle, fun _ => heq (by simp [ho]), hun, nofun, nofun⟩
  | joinCleanerSkip ho _ => exact ⟨hle, fun _ => heq (by simp [ho]), hun, nofun, nofun⟩
  | cleanerPass _ _ => exact ⟨hle, heq, hun, hst, hbe⟩
  | cleanerExit _ _ => exact ⟨hle, heq, hun, hst, hbe⟩
  | begin _ ho => exact ⟨hle, heq, hun, hst, fun _ _ => ho⟩
  | push hc _ | pushNowhere hc _ | ret hc =>
    exact ⟨hle, heq, hun, hst, fun _ _ => hbe _ (by rw [hc]; nofun)⟩
  | enter hi _ | leave hi _ | popValue hi _ | popStopped hi _ _ | done hi =>
    exact ⟨hle, heq, unborn_update hun (hne hi nofun) nofun, hst, hbe⟩

theorem wf_run {s s' : State} {es : List Event} (h : run (step cfg) s es = some s')
    (hs : WF cfg s) : WF cfg s' :=
  run_invariant (fun _ _ _ => wf_step) h hs

/-! ### A good start -/

/-- In the constructor's loop after `k` turns, with no consumer scheduled yet. -/
def spawned (k : ℕ) : State where
  queuesSize := k
  consumer i := if i < k then .loopTest else .unborn

theorem run_spawn (cfg : Config F) {k : ℕ} (hk : k ≤ cfg.threadCount) :
    run (step cfg) init (List.replicate k .spawn) = some (spawned k) := by
  induction k with
  | zero => simp [spawned, init]
  | succ k ih =>
    have hconsumer : update (spawned k).consumer k .loopTest = (spawned (k + 1)).consumer := by
      funext i
      by_cases hi : i = k
      · subst hi
        simp [spawned]
      · rw [update_of_ne hi]
        simp only [spawned]
        exact if_congr (by omega) rfl rfl
    have hlast : step cfg (spawned k) .spawn = some (spawned (k + 1)) := by
      show (if _ ∧ _ then _ else none) = _
      rw [if_pos ⟨rfl, hk⟩]
      exact congrArg (fun f => some { spawned (k + 1) with consumer := f }) hconsumer
    rw [List.replicate_succ', run_append, ih (by omega)]
    exact run_cons_eq_some.2 ⟨_, hlast, rfl⟩

/-- `Start` has returned, and the first `k` consumers have made their first loop test. -/
def starting (cfg : Config F) (k : ℕ) : State :=
  { live cfg with
    consumer := fun i =>
      if i < k then .popping else if i < cfg.threadCount then .loopTest else .unborn }

theorem run_firstTests (cfg : Config F) {k : ℕ} (hk : k ≤ cfg.threadCount) :
    run (step cfg) (starting cfg 0) ((List.range k).map .test) = some (starting cfg k) := by
  induction k with
  | zero => rfl
  | succ k ih =>
    have hconsumer : update (starting cfg k).consumer k .popping =
        (starting cfg (k + 1)).consumer := by
      funext i
      by_cases hi : i = k
      · subst hi
        simp [starting]
      · rw [update_of_ne hi]
        simp only [starting]
        exact if_congr (by omega) rfl rfl
    have htest : (starting cfg k).consumer k = .loopTest := by
      simp [starting, Nat.lt_of_succ_le hk]
    have hlast : step cfg (starting cfg k) (.test k) = some (starting cfg (k + 1)) := by
      show (if _ then _ else none) = _
      rw [if_pos htest]
      exact congrArg (fun f => some { starting cfg (k + 1) with consumer := f }) hconsumer
    rw [List.range_succ, List.map_append, run_append, ih (by omega)]
    exact run_cons_eq_some.2 ⟨_, hlast, rfl⟩

/-- The live manager is reached when no consumer is scheduled before `Start` has returned. -/
theorem live_reachable (cfg : Config F) : ∃ es, run (step cfg) init es = some (live cfg) := by
  have hstart : run (step cfg) (spawned cfg.threadCount)
      [.constructed, .setRunning, .spawnCleaner] = some (starting cfg 0) := by
    have hconsumer : (spawned cfg.threadCount).consumer = (starting cfg 0).consumer := by
      funext i
      simp [spawned, starting]
    have hbuilt : step cfg (spawned cfg.threadCount) .constructed =
        some { spawned cfg.threadCount with owner := .idle } := by
      simp [step, move, spawned]
    rw [run_cons, hbuilt]
    exact congrArg (fun f => some { starting cfg 0 with consumer := f }) hconsumer
  have hconsumer : (starting cfg cfg.threadCount).consumer = (live cfg).consumer := by
    funext i
    simp only [starting, live]
    split_ifs <;> rfl
  have hlive : starting cfg cfg.threadCount = live cfg :=
    congrArg (fun f => { live cfg with consumer := f }) hconsumer
  have hall := run_append_eq_some.2 ⟨_, hstart, run_firstTests cfg le_rfl⟩
  exact ⟨_, hlive ▸ run_append_eq_some.2 ⟨_, run_spawn cfg le_rfl, hall⟩⟩

/-! ### Consumers before `Start` -/

/-- `ConsumeMessage` is running. -/
def ConsumerPc.alive : ConsumerPc → Bool
  | .loopTest | .popping | .processing _ => true
  | .unborn | .returned | .joined => false

/-- `ConsumeMessage` has returned. -/
def ConsumerPc.dead : ConsumerPc → Bool
  | .returned | .joined => true
  | .unborn | .loopTest | .popping | .processing _ => false

/-- The step is not a loop test that reads `running_` as false. -/
def Timely (s : State) (e : Event) : Prop := ∀ i, e = .test i → s.running = true

/-- Only a loop test that reads false ends a consumer. -/
theorem not_dead_step {s s' : State} {e : Event} (hs : ∀ i, (s.consumer i).dead = false)
    (ht : Timely s e) (h : step cfg s e = some s') : ∀ i, (s'.consumer i).dead = false := by
  have hupd : ∀ {i pc}, ConsumerPc.dead pc = false →
      ∀ j, (update s.consumer i pc j).dead = false :=
    fun hpc j => holds_update (Q := (ConsumerPc.dead · = false)) (fun _ => hpc) (hs j)
  cases move_of_step h with
  | leave hi hr => exact absurd (ht _ rfl) (by simp [hr])
  | @join i _ _ hc =>
    have hdead := hs i
    rw [hc] at hdead
    cases hdead
  | spawn _ _ | enter _ _ | popValue _ _ | popStopped _ _ _ | done _ => exact hupd rfl
  | _ => exact hs

/-- A consumer that has returned stays so. -/
theorem dead_step {s s' : State} {e : Event} {i : ℕ} (hwf : WF cfg s)
    (hi : (s.consumer i).dead = true) (h : step cfg s e = some s') :
    (s'.consumer i).dead = true := by
  have hupd : ∀ {j pc}, (s.consumer j).dead = false ∨ ConsumerPc.dead pc = true →
      (update s.consumer j pc i).dead = true :=
    fun hj => holds_update (Q := (ConsumerPc.dead · = true))
      (fun hdead => hj.resolve_left (by simp [hdead])) hi
  cases move_of_step h with
  | spawn _ _ => exact hupd (.inl (by rw [(hwf.unborn _).2 le_rfl]; rfl))
  | join _ _ hc => exact hupd (.inr rfl)
  | leave _ _ => exact hupd (.inr rfl)
  | enter hj _ | popValue hj _ | popStopped hj _ _ | done hj =>
    exact hupd (.inl (by rw [hj]; rfl))
  | _ => exact hi

/-- A loop test before `Start` ends its consumer. -/
theorem dead_of_not_timely {s s' : State} {e : Event} (hwf : WF cfg s) (ht : ¬ Timely s e)
    (h : step cfg s e = some s') : ∃ i < cfg.threadCount, (s'.consumer i).dead = true := by
  simp only [Timely, not_forall] at ht
  obtain ⟨i, rfl, hr⟩ := ht
  cases move_of_step h with
  | enter _ hr' => exact absurd hr' hr
  | leave hi _ =>
    exact ⟨i, hwf.lt_of_born (by rw [hi]; nofun), by simp [ConsumerPc.dead]⟩

/-- Whether a consumer that exists is alive or dead. -/
theorem alive_iff_not_dead {pc : ConsumerPc} (h : pc ≠ .unborn) :
    pc.alive = true ↔ pc.dead = false := by
  cases pc <;> simp_all [ConsumerPc.alive, ConsumerPc.dead]

/-- **Consumers and `Start`.**  Take any run from the construction of the manager, for any thread
count and any scheduling, to a state in which `Start` has returned.  Every consumer is alive there
if and only if no consumer evaluated `while (running_)` while the flag was false, which before a
call of `Stop` means before `Start` stored `true`. -/
theorem consumers_alive_iff (cfg : Config F) {es : List Event} {s : State}
    (hrun : run (step cfg) init es = some s) (hstart : s.startReturned = true) :
    (∀ i < cfg.threadCount, (s.consumer i).alive = true) ↔
      Along (step cfg) Timely init es := by
  have hwf := wf_run hrun (wf_init cfg)
  have hsize := hwf.size_eq (hwf.started hstart)
  have hborn : ∀ i < cfg.threadCount, s.consumer i ≠ .unborn := by
    intro i hi hun
    have := (hwf.unborn i).1 hun
    omega
  constructor
  · intro halive
    by_contra hal
    obtain ⟨i, hi, hdead⟩ := run_bad
      (I := WF cfg) (B := fun s => ∃ i < cfg.threadCount, (s.consumer i).dead = true)
      (fun _ _ _ => wf_step) (fun _ _ _ => dead_of_not_timely)
      (fun _ _ _ hu ⟨i, hi, hd⟩ hstep => ⟨i, hi, dead_step hu hd hstep⟩) hrun (wf_init cfg) hal
    rw [(alive_iff_not_dead (hborn i hi)).1 (halive i hi)] at hdead
    cases hdead
  · intro hal i hi
    have hnd := run_invariant_along (I := fun s => ∀ i, (s.consumer i).dead = false)
      (fun _ _ _ hs ht hstep => not_dead_step hs ht hstep) hrun hal (fun _ => rfl)
    exact (alive_iff_not_dead (hborn i hi)).2 (hnd i)

/-- Four threads, as `main` uses, with any hash and any reports. -/
def fourThreads : Config ℚ := ⟨fun _ => 0, 4, fun _ => {}⟩

/-- A scheduling in which no consumer runs before `Start`. -/
def startFirst : List Event :=
  [.spawn, .spawn, .spawn, .spawn, .constructed, .setRunning, .spawnCleaner,
    .test 0, .test 1, .test 2, .test 3]

/-- A scheduling in which consumer 0 runs as soon as it is created. -/
def consumerFirst : List Event :=
  [.spawn, .test 0, .spawn, .spawn, .spawn, .constructed, .setRunning, .spawnCleaner]

theorem consumers_alive_startFirst :
    ∃ s, run (step fourThreads) init startFirst = some s ∧
      ((∀ i < fourThreads.threadCount, (s.consumer i).alive = true) ↔
        Along (step fourThreads) Timely init startFirst) :=
  ⟨_, rfl, consumers_alive_iff fourThreads rfl rfl⟩

/-- A consumer scheduled before `Start` is gone, and its queue has no consumer. -/
theorem consumer_lost_before_start :
    ¬ ∀ (cfg : Config ℚ) (es : List Event) (s : State), run (step cfg) init es = some s →
      s.startReturned = true → s.stopCalled = false →
      ∀ i < cfg.threadCount, (s.consumer i).alive = true := by
  intro hclaim
  have halive := hclaim fourThreads consumerFirst _ rfl rfl rfl 0 (by decide)
  exact absurd halive (by decide)

end Pipeline

end MonitorSystem
