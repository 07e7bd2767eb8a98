import MonitorSystem.Library.Ranking
import MonitorSystem.Library.Tally
import MonitorSystem.Manager.Ingest

/-!
# Progress of the manager

What the threads of `HostManager` are certain to reach, counted in their own steps and whatever
the other threads do meanwhile.

* A report in queue `i` is processed after a bounded number of steps of consumer `i`, as long as
  `Stop` does not store false in `running_` (`report_processed_within`).
* `Stop`, once it has stored false, returns after a bounded number of steps of the manager's own
  threads, and until it does one of them can always move (`stop_returns`); calls of
  `OnDataReceived` do not hold it up.
-/

namespace MonitorSystem

namespace Pipeline

open Transition Function

variable {F : Type} {cfg : Config F}

/-! ### A queued report -/

/-- The consumer whose step the event is. -/
def Event.consumer : Event → Option ℕ
  | .test i => some i
  | .pop i => some i
  | .done i => some i
  | _ => none

/-- How many steps a consumer takes until it has completed its next `Pop`. -/
def ConsumerPc.untilPop : ConsumerPc → ℕ
  | .popping => 1
  | .loopTest => 2
  | .processing _ => 3
  | .unborn | .returned | .joined => 0

/-- How many steps consumer `i` takes until it has processed the report of call `c`: three for each
report in front of it. -/
def stepsUntilHandled (i c : ℕ) (s : State) : ℕ :=
  if (s.consumer i).current = some c then 1
  else (s.consumer i).untilPop + 3 * (s.queue i).queue.idxOf c + 1

/-- Consumer `i` is alive, and has the report of call `c` in hand or in its queue. -/
structure Awaited (cfg : Config F) (i c : ℕ) (s : State) : Prop where
  wf : WF cfg s
  running : s.running = true
  alive : (s.consumer i).alive = true
  waits : (s.consumer i).current = some c ∨ c ∈ (s.queue i).queue

/-- A step that leaves lane `i` alone keeps the bound. -/
theorem awaited_of_same {s s' : State} {i c : ℕ} (hs : Awaited cfg i c s) (hwf : WF cfg s')
    (hr : s'.running = true) (hc : s'.consumer i = s.consumer i)
    (hq : (s'.queue i).queue = (s.queue i).queue) :
    Awaited cfg i c s' ∧ stepsUntilHandled i c s' = stepsUntilHandled i c s := by
  refine ⟨⟨hwf, hr, hc ▸ hs.alive, ?_⟩, ?_⟩
  · rw [hc, hq]
    exact hs.waits
  · unfold stepsUntilHandled
    rw [hc, hq]

/-- A push appends behind the report. -/
theorem stepsUntilHandled_push {s s' : State} {i j c d : ℕ} (hs : Awaited cfg i c s)
    (hwf : WF cfg s') (hr : s'.running = true) (hc : s'.consumer = s.consumer)
    (hq : s'.queue = update s.queue j ((s.queue j).push d)) :
    Awaited cfg i c s' ∧ stepsUntilHandled i c s' = stepsUntilHandled i c s := by
  by_cases hij : i = j
  · subst hij
    have hqueue : (s'.queue i).queue = (s.queue i).queue ++ [d] := by
      rw [hq, update_self, SafeQueue.queue_push]
    refine ⟨⟨hwf, hr, hc ▸ hs.alive, ?_⟩, ?_⟩
    · rw [hc, hqueue]
      exact hs.waits.imp_right (List.mem_append_left _)
    · unfold stepsUntilHandled
      rw [hc, hqueue]
      split_ifs with hcur
      · rfl
      · rw [List.idxOf_append_of_mem (hs.waits.resolve_left hcur)]
  · exact awaited_of_same hs hwf hr (congrFun hc i) (by rw [hq, update_of_ne hij])

/-- Consumer `i` takes a report: the one awaited, or one in front of it. -/
theorem stepsUntilHandled_pop {s : State} {i c d : ℕ} {rest : List ℕ} (hs : Awaited cfg i c s)
    (hi : s.consumer i = .popping) (hq : (s.queue i).queue = d :: rest) :
    (d = c ∨ c ∈ rest) ∧
      (if d = c then 1 else 3 + 3 * rest.idxOf c + 1) + 1 ≤ stepsUntilHandled i c s := by
  have hcur : (s.consumer i).current = none := by rw [hi]; rfl
  have hmem : c ∈ (s.queue i).queue := hs.waits.resolve_left (by rw [hcur]; nofun)
  have huntil : (s.consumer i).untilPop = 1 := by rw [hi]; rfl
  unfold stepsUntilHandled
  rw [hcur, if_neg (Option.some_ne_none c).symm, huntil]
  rw [hq] at hmem ⊢
  by_cases hd : d = c
  · rw [if_pos hd]
    exact ⟨.inl hd, by omega⟩
  · rw [if_neg hd, List.idxOf_cons_ne _ hd]
    exact ⟨.inr ((List.mem_cons.1 hmem).resolve_left (Ne.symm hd)), by omega⟩

theorem consumer_ne {e : Event} {i j : ℕ} (he : e.consumer = some j) (hij : i ≠ j) :
    (e.consumer == some i) = false := by
  simpa [he] using Ne.symm hij

/-- Every step brings the report nearer or leaves it where it is. -/
theorem awaited_step {s s' : State} {e : Event} {i c : ℕ} (hs : Awaited cfg i c s)
    (he : e ≠ .clearRunning) (h : step cfg s e = some s') :
    c ∈ s'.handled i ∨ Awaited cfg i c s' ∧
      stepsUntilHandled i c s' + (e.consumer == some i).toNat ≤ stepsUntilHandled i c s := by
  have hwf' := wf_step hs.wf h
  -- a step of another thread that leaves lane `i` alone
  have hother : s'.running = true → s'.consumer i = s.consumer i →
      (s'.queue i).queue = (s.queue i).queue → (e.consumer == some i) = false →
      c ∈ s'.handled i ∨ Awaited cfg i c s' ∧
        stepsUntilHandled i c s' + (e.consumer == some i).toNat ≤ stepsUntilHandled i c s := by
    intro hr hc hq he'
    obtain ⟨hs', heq⟩ := awaited_of_same hs hwf' hr hc hq
    rw [he', heq]
    exact .inr ⟨hs', le_rfl⟩
  have hne : ∀ {j pc}, s.consumer j = pc → pc.alive = false → i ≠ j := by
    rintro j pc hj hdead rfl
    have halive := hs.alive
    rw [hj, hdead] at halive
    cases halive
  cases move_of_step h with
  | spawn _ _ =>
    exact hother hs.running (update_of_ne (hne ((hs.wf.unborn _).2 le_rfl) rfl) ..) rfl rfl
  | join _ _ hc => exact hother hs.running (update_of_ne (hne hc rfl) ..) rfl rfl
  | clearRunning _ _ | stopEarly _ _ => exact absurd rfl he
  | setRunning _ => exact hother rfl rfl rfl rfl
  | stopQueue _ _ => exact hother hs.running rfl (queue_update_stopped i) rfl
  | push _ _ =>
    obtain ⟨hs', heq⟩ := stepsUntilHandled_push hs hwf' hs.running rfl rfl
    exact .inr ⟨hs', heq.le⟩
  | @leave j _ hr => exact absurd hs.running (by simp [hr])
  | @enter j hj _ =>
    by_cases hij : i = j
    · subst hij
      have hcur : (s.consumer i).current = none := by rw [hj]; rfl
      have hmem := hs.waits.resolve_left (by rw [hcur]; nofun)
      refine .inr ⟨⟨hwf', hs.running, by simp [ConsumerPc.alive], .inr hmem⟩, ?_⟩
      simp [stepsUntilHandled, hj, ConsumerPc.current, ConsumerPc.untilPop, Event.consumer]
    · exact hother hs.running (update_of_ne hij ..) rfl (consumer_ne rfl hij)
  | @popValue j d rest hj hq =>
    by_cases hij : i = j
    · subst hij
      obtain ⟨hwaits, hle⟩ := stepsUntilHandled_pop hs hj hq
      refine .inr ⟨⟨hwf', hs.running, by simp [ConsumerPc.alive], ?_⟩, ?_⟩
      · simpa [ConsumerPc.current] using hwaits
      · simpa [stepsUntilHandled, ConsumerPc.current, ConsumerPc.untilPop, Event.consumer] using hle
    · exact hother hs.running (update_of_ne hij ..) (by simp [update_of_ne hij])
        (consumer_ne rfl hij)
  | @popStopped j hj hq _ =>
    have hij : i ≠ j := by
      rintro rfl
      have hwaits := hs.waits
      rw [hj, hq] at hwaits
      simp [ConsumerPc.current] at hwaits
    exact hother hs.running (update_of_ne hij ..) rfl (consumer_ne rfl hij)
  | @done j d hj =>
    by_cases hij : i = j
    · subst hij
      by_cases hd : d = c
      · exact .inl (by simp [hd])
      · have hmem : c ∈ (s.queue i).queue :=
          hs.waits.resolve_left (by simp [hj, ConsumerPc.current, hd])
        refine .inr ⟨⟨hwf', hs.running, by simp [ConsumerPc.alive], .inr hmem⟩, ?_⟩
        simp [stepsUntilHandled, hj, ConsumerPc.current, ConsumerPc.untilPop, Event.consumer, hd]
    · exact hother hs.running (update_of_ne hij ..) rfl (consumer_ne rfl hij)
  | _ => exact hother hs.running rfl rfl rfl

/-- A report processed stays in the history of its consumer. -/
theorem handled_step {s s' : State} {e : Event} {i c : ℕ} (hs : c ∈ s.handled i)
    (h : step cfg s e = some s') : c ∈ s'.handled i := by
  cases move_of_step h with
  | @done j d _ =>
    show c ∈ update s.handled j _ i
    by_cases hij : i = j
    · subst hij
      rw [update_self]
      exact List.mem_append_left _ hs
    · rwa [update_of_ne hij]
  | _ => exact hs

theorem stepsUntilHandled_pos (i c : ℕ) (s : State) : 0 < stepsUntilHandled i c s := by
  unfold stepsUntilHandled
  split_ifs <;> omega

theorem ConsumerPc.untilPop_le (pc : ConsumerPc) : pc.untilPop ≤ 3 := by
  cases pc <;> simp [ConsumerPc.untilPop]

theorem stepsUntilHandled_le (i c : ℕ) (s : State) :
    stepsUntilHandled i c s ≤ 3 * (s.queue i).queue.idxOf c + 4 := by
  have huntil := (s.consumer i).untilPop_le
  unfold stepsUntilHandled
  split_ifs <;> omega

theorem Awaited.stepsUntilHandled_le_length {s : State} {i c : ℕ} (hs : Awaited cfg i c s) :
    stepsUntilHandled i c s ≤ 3 * (s.queue i).queue.length + 1 := by
  have huntil := (s.consumer i).untilPop_le
  unfold stepsUntilHandled
  split_ifs with hcur
  · omega
  · have hlt : (s.queue i).queue.idxOf c < (s.queue i).queue.length :=
      List.idxOf_lt_length_iff.2 (hs.waits.resolve_left hcur)
    omega

/-- A consumer with a report to process is never blocked. -/
theorem exists_consumer_step {s : State} {i c : ℕ} (hs : Awaited cfg i c s)
    (hlive : s.terminated = false) : ∃ e, e.consumer = some i ∧ (step cfg s e).isSome := by
  have halive := hs.alive
  have hwaits := hs.waits
  cases hi : s.consumer i with
  | loopTest => exact ⟨.test i, rfl, by simp [step, move, hlive, hi]⟩
  | processing d => exact ⟨.done i, rfl, by simp [step, move, hlive, hi]⟩
  | popping =>
    rw [hi] at hwaits
    have hmem : c ∈ (s.queue i).queue := hwaits.resolve_left fun heq => by cases heq
    obtain ⟨d, rest, hq⟩ := List.exists_cons_of_ne_nil (List.ne_nil_of_mem hmem)
    have hpop := SafeQueue.pop_eq_some_some.2 ⟨rest, hq, rfl⟩
    exact ⟨.pop i, rfl, by simp [step, move, hlive, hi, hpop]⟩
  | unborn | returned | joined =>
    rw [hi] at halive
    cases halive

/-- **No report waits for ever.**  In every reachable state in which `running_` is true and consumer
`i` is alive, whatever the number of threads, the hash function and the reports: if a report is in
queue `i` behind `p` others, consumer `i` can move, unless the process has been terminated, and in
every continuation in which `Stop` does not store false the report has been processed once
consumer `i` has taken `3 * p + 4` steps, however many steps the other threads took. -/
theorem report_processed_within (cfg : Config F) {es₀ : List Event} {s : State}
    (hs : run (step cfg) init es₀ = some s) (hr : s.running = true) {i c : ℕ}
    (halive : (s.consumer i).alive = true) (hc : c ∈ (s.queue i).queue) :
    (s.terminated = false → ∃ e, e.consumer = some i ∧ (step cfg s e).isSome) ∧
      ∀ es s', run (step cfg) s es = some s' → .clearRunning ∉ es →
        3 * (s.queue i).queue.idxOf c + 4 ≤ es.countP (·.consumer == some i) →
        c ∈ s'.handled i := by
  have hawaited : Awaited cfg i c s := ⟨wf_run hs (wf_init cfg), hr, halive, .inr hc⟩
  refine ⟨exists_consumer_step hawaited, fun es s' hrun hstop hcount => ?_⟩
  refine reached_of_rank_le (I := Awaited cfg i c) (P := fun _ e => e ≠ .clearRunning)
    (stepsUntilHandled i c) (·.consumer == some i) (fun t _ => stepsUntilHandled_pos i c t)
    (fun _ _ _ => awaited_step) (fun _ _ _ ht _ => handled_step ht) hrun
    (along_of_forall (fun e he => ne_of_mem_of_not_mem he hstop) _) hawaited ?_
  exact (stepsUntilHandled_le i c s).trans hcount

/-- Two reports in queue 0, with its consumer inside `Pop`. -/
def twoWaiting : List Event := startFirst ++ [.begin 0, .push 0, .begin 1, .push 1]

theorem report_processed_twoWaiting : ∃ s, run (step fourThreads) init twoWaiting = some s ∧
    ∀ s', run (step fourThreads) s [.pop 0, .done 0, .test 0, .pop 0] = some s' →
      0 ∈ s'.handled 0 := by
  have h : (run (step fourThreads) init twoWaiting).map
      (fun s => (s.running, s.consumer 0, (s.queue 0).queue)) =
        some (true, .popping, [0, 1]) := by decide +kernel
  obtain ⟨s, hs, heq⟩ := Option.map_eq_some_iff.1 h
  simp only [Prod.mk.injEq] at heq
  obtain ⟨hr, hconsumer, hqueue⟩ := heq
  refine ⟨s, hs, fun s' hrun => ?_⟩
  refine (report_processed_within fourThreads hs hr ?_ ?_).2 _ s' hrun (by simp) ?_
  · rw [hconsumer]
    rfl
  · rw [hqueue]
    exact List.mem_cons_self
  · rw [hqueue]
    decide

/-! ### `Stop` -/

/-- A step of a call of `OnDataReceived`; every other step is one of the manager's own. -/
def Event.isCall : Event → Bool
  | .begin _ => true
  | .push _ => true
  | .ret _ => true
  | _ => false

/-- The owner is inside `Stop` and has stored false. -/
def OwnerPc.inStop : OwnerPc → Bool
  | .stopping _ => true
  | .joining _ => true
  | .joiningCleaner => true
  | _ => false

/-- How many of the `n` queues `Stop` has certainly stopped. -/
def OwnerPc.queuesStopped (n : ℕ) : OwnerPc → ℕ
  | .stopping k => k
  | .joining _ => n
  | .joiningCleaner => n
  | _ => 0

/-- The two loops of `Stop` stay within the queues, and leave the queues behind them stopped. -/
structure StopOk (cfg : Config F) (s : State) : Prop where
  wf : WF cfg s
  running : s.owner.inStop = true → s.running = false
  stopped : ∀ i < s.owner.queuesStopped cfg.threadCount, (s.queue i).stop = true
  stopping_le : ∀ k, s.owner = .stopping k → k ≤ cfg.threadCount
  joining_le : ∀ k, s.owner = .joining k → k ≤ cfg.threadCount
  terminated : s.terminated = true → s.owner = .starting

theorem stopOk_init (cfg : Config F) : StopOk cfg init where
  wf := wf_init cfg
  running := nofun
  stopped i hi := absurd hi i.not_lt_zero
  stopping_le := nofun
  joining_le := nofun
  terminated := nofun

theorem StopOk.at_stopping {s : State} {k : ℕ} (hs : StopOk cfg s) (ho : s.owner = .stopping k) :
    s.queuesSize = cfg.threadCount ∧ s.running = false ∧ ∀ i < k, (s.queue i).stop = true := by
  have hstopped := hs.stopped
  rw [ho] at hstopped
  exact ⟨hs.wf.size_eq (by rw [ho]; nofun), hs.running (by rw [ho]; rfl), hstopped⟩

theorem StopOk.at_joining {s : State} {k : ℕ} (hs : StopOk cfg s) (ho : s.owner = .joining k) :
    s.queuesSize = cfg.threadCount ∧ s.running = false ∧
      ∀ i < cfg.threadCount, (s.queue i).stop = true := by
  have hstopped := hs.stopped
  rw [ho] at hstopped
  exact ⟨hs.wf.size_eq (by rw [ho]; nofun), hs.running (by rw [ho]; rfl), hstopped⟩

/-- A step that leaves the owner where it is keeps the flags of the queues. -/
theorem stopOk_of_same {s s' : State} (hs : StopOk cfg s) (hwf : WF cfg s')
    (ho : s'.owner = s.owner) (hr : s'.running = s.running) (ht : s'.terminated = s.terminated)
    (hq : ∀ i, (s.queue i).stop = true → (s'.queue i).stop = true) : StopOk cfg s' where
  wf := hwf
  running h := hr.trans (hs.running (ho ▸ h))
  stopped i hi := hq i (hs.stopped i (ho ▸ hi))
  stopping_le k hk := hs.stopping_le k (ho ▸ hk)
  joining_le k hk := hs.joining_le k (ho ▸ hk)
  terminated h := ho.trans (hs.terminated (ht ▸ h))

theorem stopOk_step {s s' : State} {e : Event} (hs : StopOk cfg s) (h : step cfg s e = some s') :
    StopOk cfg s' := by
  have hwf' := wf_step hs.wf h
  have hlive : s.terminated = false := by
    by_contra hdead
    simp [step, hdead] at h
  have hnever {p : Prop} (hdead : s.terminated = true) : p := by simp [hlive] at hdead
  -- the owner moves outside the loops of `Stop`
  have houtside : s'.owner.inStop = false → s'.terminated = false → StopOk cfg s' := by
    intro ho ht
    refine ⟨hwf', fun hin => absurd (ho.symm.trans hin) Bool.false_ne_true, fun i hi => ?_,
      fun k hk => ?_, fun k hk => ?_, fun hdead => absurd (ht.symm.trans hdead) Bool.false_ne_true⟩
    · have hzero : s'.owner.queuesStopped cfg.threadCount = 0 := by
        cases hcase : s'.owner <;> simp_all [OwnerPc.inStop, OwnerPc.queuesStopped]
      omega
    · simp [hk, OwnerPc.inStop] at ho
    · simp [hk, OwnerPc.inStop] at ho
  cases move_of_step h with
  | spawn _ _ | cleanerPass _ _ | cleanerExit _ _ | begin _ _ | pushNowhere _ _ | ret _
  | enter _ _ | leave _ _ | popStopped _ _ _ | done _ =>
    exact stopOk_of_same hs hwf' rfl rfl rfl fun _ => id
  | push _ _ | popValue _ _ =>
    exact stopOk_of_same hs hwf' rfl rfl rfl fun i hi =>
      holds_update (Q := (SafeQueue.stop · = true)) id hi
  | constructed _ _ | setRunning _ | spawnCleaner _ _ | stopCall _ | stopEarly _ _
  | joinCleaner _ _ | joinCleanerSkip _ _ => exact houtside rfl hlive
  | terminate ho _ =>
    refine ⟨hwf', fun hin => ?_, fun i hi => ?_, fun k hk => ?_, fun k hk => ?_, fun _ => ho⟩
    · simp [ho, OwnerPc.inStop] at hin
    · simp [ho, OwnerPc.queuesStopped] at hi
    · simp [ho] at hk
    · simp [ho] at hk
  | clearRunning _ _ =>
    exact ⟨hwf', fun _ => rfl, fun i hi => absurd hi i.not_lt_zero,
      fun k hk => by cases hk; exact Nat.zero_le _, fun k hk => (by cases hk), hnever⟩
  | @stopQueue k ho hk =>
    obtain ⟨hsize, hr, hstopped⟩ := hs.at_stopping ho
    refine ⟨hwf', fun _ => hr, fun i hi => ?_, fun j hj => ?_, fun j hj => (by cases hj), hnever⟩
    · show (update s.queue k _ i).stop = true
      by_cases hik : i = k
      · subst hik
        rw [update_self]
        rfl
      · rw [update_of_ne hik]
        have hlt : i < k + 1 := hi
        exact hstopped i (by omega)
    · cases hj
      omega
  | @queuesStopped k ho hk =>
    obtain ⟨hsize, hr, hstopped⟩ := hs.at_stopping ho
    have hall : ∀ i < cfg.threadCount, (s.queue i).stop = true :=
      fun i hi => hstopped i (by omega)
    exact ⟨hwf', fun _ => hr, hall, fun j hj => (by cases hj),
      fun j hj => by cases hj; exact Nat.zero_le _, hnever⟩
  | @join k ho hk _ | @joinSkip k ho hk _ =>
    obtain ⟨hsize, hr, hstopped⟩ := hs.at_joining ho
    exact ⟨hwf', fun _ => hr, hstopped, fun j hj => (by cases hj),
      fun j hj => by cases hj; omega, hnever⟩
  | allJoined ho _ =>
    obtain ⟨-, hr, hstopped⟩ := hs.at_joining ho
    exact ⟨hwf', fun _ => hr, hstopped, fun j hj => (by cases hj), fun j hj => (by cases hj),
      hnever⟩

theorem stopOk_run {s s' : State} {es : List Event} (h : run (step cfg) s es = some s')
    (hs : StopOk cfg s) : StopOk cfg s' :=
  run_invariant (fun _ _ _ => stopOk_step) h hs

/-! ### How long `Stop` takes -/

/-- The steps that the owner still takes in `Stop`. -/
def OwnerPc.stepsLeft (n : ℕ) : OwnerPc → ℕ
  | .stopping k => 2 * n + 3 - k
  | .joining k => n + 2 - k
  | .joiningCleaner => 1
  | _ => 0

/-- The steps that a consumer still takes when `running_` is false. -/
def ConsumerPc.stepsLeft : ConsumerPc → ℕ
  | .popping => 3
  | .processing _ => 2
  | .loopTest => 1
  | _ => 0

/-- The steps that the cleaner still takes when `running_` is false. -/
def CleanerPc.stepsLeft : CleanerPc → ℕ
  | .looping => 1
  | _ => 0

/-- The steps that the manager's threads still take in `Stop`. -/
def stopStepsLeft (n : ℕ) (s : State) : ℕ :=
  s.owner.stepsLeft n +
    Tally.tally (fun _ => ConsumerPc.stepsLeft) (fun i : Fin n => s.consumer i) +
    s.cleaner.stepsLeft

theorem tally_consumer_update {n i : ℕ} (hi : i < n) (consumer : ℕ → ConsumerPc)
    (pc : ConsumerPc) :
    Tally.tally (fun _ => ConsumerPc.stepsLeft) (fun j : Fin n => update consumer i pc j) +
        (consumer i).stepsLeft =
      Tally.tally (fun _ => ConsumerPc.stepsLeft) (fun j : Fin n => consumer j) +
        pc.stepsLeft := by
  have hcomp := update_comp_eq_of_injective consumer Fin.val_injective (⟨i, hi⟩ : Fin n) pc
  have htally := Tally.tally_update (fun _ : Fin n => ConsumerPc.stepsLeft)
    (fun j => consumer j) ⟨i, hi⟩ pc
  exact (congrArg (fun f => Tally.tally _ f + _) hcomp).trans htally

/-- Every own step of the manager shortens `Stop`, and no call lengthens it. -/
theorem stopStepsLeft_step {s s' : State} {e : Event} (hs : StopOk cfg s)
    (hin : s.owner.inStop = true) (h : step cfg s e = some s') :
    stopStepsLeft cfg.threadCount s' + (!e.isCall).toNat ≤ stopStepsLeft cfg.threadCount s := by
  have hr := hs.running hin
  -- a consumer moves on
  have hconsumer : ∀ {i pc pc'}, s.consumer i = pc → pc ≠ .unborn →
      pc'.stepsLeft + 1 ≤ pc.stepsLeft → s'.owner = s.owner → s'.cleaner = s.cleaner →
      s'.consumer = update s.consumer i pc' →
      stopStepsLeft cfg.threadCount s' + 1 ≤ stopStepsLeft cfg.threadCount s := by
    intro i pc pc' hi hborn hlt ho hc hupd
    have htally := tally_consumer_update (hs.wf.lt_of_born (i := i) (by rwa [hi])) s.consumer pc'
    rw [hi] at htally
    unfold stopStepsLeft
    rw [ho, hc, hupd]
    omega
  cases move_of_step h with
  | spawn ho _ | constructed ho _ | setRunning ho | spawnCleaner ho _ | terminate ho _
  | stopCall ho | clearRunning ho _ | stopEarly ho _ => simp [ho, OwnerPc.inStop] at hin
  | begin _ _ | push _ _ | pushNowhere _ _ | ret _ => exact le_rfl
  | cleanerPass _ hr' | enter _ hr' => simp [hr'] at hr
  | leave hi _ => exact hconsumer hi nofun le_rfl rfl rfl rfl
  | popValue hi _ => exact hconsumer hi nofun le_rfl rfl rfl rfl
  | popStopped hi _ _ => exact hconsumer hi nofun (by decide) rfl rfl rfl
  | done hi => exact hconsumer hi nofun le_rfl rfl rfl rfl
  | cleanerExit hc _ =>
    simp only [stopStepsLeft, hc, CleanerPc.stepsLeft, Event.isCall, Bool.not_false,
      Bool.toNat_true]
    omega
  | @stopQueue k ho hk =>
    have hle := hs.stopping_le k ho
    simp only [stopStepsLeft, ho, OwnerPc.stepsLeft, Event.isCall, Bool.not_false, Bool.toNat_true]
    omega
  | @queuesStopped k ho hk =>
    obtain ⟨hsize, -⟩ := hs.at_stopping ho
    have hle := hs.stopping_le k ho
    simp only [stopStepsLeft, ho, OwnerPc.stepsLeft, Event.isCall, Bool.not_false, Bool.toNat_true]
    omega
  | @join k ho hk hc =>
    obtain ⟨hsize, -⟩ := hs.at_joining ho
    have htally := tally_consumer_update (show k < cfg.threadCount by omega) s.consumer .joined
    rw [hc] at htally
    simp only [stopStepsLeft, ho, OwnerPc.stepsLeft, ConsumerPc.stepsLeft, Event.isCall,
      Bool.not_false, Bool.toNat_true] at htally ⊢
    omega
  | @joinSkip k ho hk hc =>
    obtain ⟨hsize, -⟩ := hs.at_joining ho
    simp only [stopStepsLeft, ho, OwnerPc.stepsLeft, Event.isCall, Bool.not_false, Bool.toNat_true]
    omega
  | @allJoined k ho hk =>
    have hle := hs.joining_le k ho
    simp only [stopStepsLeft, ho, OwnerPc.stepsLeft, Event.isCall, Bool.not_false, Bool.toNat_true]
    omega
  | joinCleaner ho hc =>
    simp only [stopStepsLeft, ho, hc, OwnerPc.stepsLeft, CleanerPc.stepsLeft, Event.isCall,
      Bool.not_false, Bool.toNat_true]
    omega
  | joinCleanerSkip ho _ =>
    simp only [stopStepsLeft, ho, OwnerPc.stepsLeft, Event.isCall, Bool.not_false, Bool.toNat_true]
    omega

theorem stopStepsLeft_le (n : ℕ) (s : State) : stopStepsLeft n s ≤ 5 * n + 4 := by
  have hconsumers : Tally.tally (fun _ => ConsumerPc.stepsLeft) (fun i : Fin n => s.consumer i) ≤
      n * 3 := by
    refine (Finset.sum_le_card_nsmul Finset.univ _ 3 fun i _ => ?_).trans_eq (by simp)
    show (s.consumer i).stepsLeft ≤ 3
    cases s.consumer i <;> simp [ConsumerPc.stepsLeft]
  have howner : s.owner.stepsLeft n ≤ 2 * n + 3 := by
    cases s.owner <;> simp only [OwnerPc.stepsLeft] <;> omega
  have hcleaner : s.cleaner.stepsLeft ≤ 1 := by cases s.cleaner <;> decide
  unfold stopStepsLeft
  omega

/-- A thread that `Stop` waits for can always move. -/
theorem exists_stop_step {s : State} (hs : StopOk cfg s) (hin : s.owner.inStop = true) :
    ∃ e, e.isCall = false ∧ (step cfg s e).isSome := by
  have hlive : s.terminated = false := by
    by_contra hdead
    rw [hs.terminated (by simpa using hdead)] at hin
    cases hin
  cases ho : s.owner with
  | constructing | idle | starting | stopTest =>
    rw [ho] at hin
    cases hin
  | stopping k =>
    refine ⟨.stopQueue, rfl, ?_⟩
    by_cases hk : k < s.queuesSize <;> simp [step, move, hlive, ho, hk]
  | joiningCleaner =>
    cases hc : s.cleaner with
    | looping =>
      refine ⟨.cleanerTurn, rfl, ?_⟩
      simp [step, move, hlive, hc, hs.running hin]
    | absent | returned | joined => exact ⟨.joinCleaner, rfl, by simp [step, move, hlive, ho, hc]⟩
  | joining k =>
    obtain ⟨hsize, hr, hstopped⟩ := hs.at_joining ho
    by_cases hk : k < s.queuesSize
    · cases hi : s.consumer k with
      | unborn => exact absurd ((hs.wf.unborn k).1 hi) (by omega)
      | loopTest => exact ⟨.test k, rfl, by simp [step, move, hlive, hi]⟩
      | processing c => exact ⟨.done k, rfl, by simp [step, move, hlive, hi]⟩
      | returned | joined => exact ⟨.join, rfl, by simp [step, move, hlive, ho, hk, hi]⟩
      | popping =>
        refine ⟨.pop k, rfl, ?_⟩
        cases hpop : (s.queue k).pop with
        | none =>
          have hstop := (SafeQueue.pop_eq_none.1 hpop).2
          simp [hstopped k (by omega)] at hstop
        | some r =>
          obtain ⟨value, q⟩ := r
          cases value <;> simp [step, move, hlive, hi, hpop]
    · exact ⟨.join, rfl, by simp [step, move, hlive, ho, hk]⟩

/-- **`Stop` returns.**  In every reachable state in which a call of `Stop` has stored false in
`running_` and has not returned, for any number `n` of threads, any backlog and any calls of
`OnDataReceived` under way: one of the manager's own threads can move, and in every continuation
during which `Stop` does not return they take at most `5 * n + 4` steps, however many reports are
pushed meanwhile. -/
theorem stop_returns (cfg : Config F) {es₀ : List Event} {s : State}
    (hs : run (step cfg) init es₀ = some s) (hin : s.owner.inStop = true) :
    (∃ e, e.isCall = false ∧ (step cfg s e).isSome) ∧
      ∀ es s', run (step cfg) s es = some s' →
        Along (step cfg) (fun t _ => t.owner.inStop = true) s es →
        es.countP (!·.isCall) ≤ 5 * cfg.threadCount + 4 := by
  have hok := stopOk_run hs (stopOk_init cfg)
  refine ⟨exists_stop_step hok hin, fun es s' hrun hwithin => ?_⟩
  have hcount := rank_add_count_le (I := StopOk cfg) (stopStepsLeft cfg.threadCount)
    (!·.isCall) (fun _ _ _ ht hin' hstep =>
      ⟨stopOk_step ht hstep, stopStepsLeft_step ht hin' hstep⟩) hrun hwithin hok
  have hle := stopStepsLeft_le cfg.threadCount s
  omega

/-- `Stop` has just stored false, with two reports queued. -/
def stopCalled : List Event := twoWaiting ++ [.stopCall, .clearRunning]

theorem stop_returns_twoWaiting : ∃ s, run (step fourThreads) init stopCalled = some s ∧
    ∃ e, e.isCall = false ∧ (step fourThreads s e).isSome := by
  have h : (run (step fourThreads) init stopCalled).map (·.owner) = some (.stopping 0) := by
    decide +kernel
  obtain ⟨s, hs, howner⟩ := Option.map_eq_some_iff.1 h
  exact ⟨s, hs, (stop_returns fourThreads hs (by rw [howner]; rfl)).1⟩

end Pipeline

end MonitorSystem
