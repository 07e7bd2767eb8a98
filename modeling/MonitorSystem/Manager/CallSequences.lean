import MonitorSystem.Manager.Shutdown

/-!
# Sequences of `Start` and `Stop`

The thread that owns the manager calls `Start` and `Stop` as it likes and then destroys the
manager, whose destructor calls `Stop` once more before the thread objects are destroyed.  An
object that is still joinable then, or when `Start` replaces `thread_`, ends the process.

`Stop` returns early when `running_` is false, whatever threads there are, and `Start` creates the
cleaner only; `safe_iff` says which sequences of calls this is good for.
-/

namespace MonitorSystem

namespace Pipeline

open Transition Function

variable {F : Type} {cfg : Config F}

/-- A call of the owner. -/
inductive Call
  | start
  | stop
  deriving DecidableEq

/-- The call that an event begins. -/
def callOf : Event → Option Call
  | .setRunning => some .start
  | .stopCall => some .stop
  | _ => none

/-- `joinable()` of a worker thread. -/
def ConsumerPc.joinable : ConsumerPc → Bool
  | .loopTest | .popping | .processing _ | .returned => true
  | .unborn | .joined => false

/-- Some run with these calls leads from `s` to `t`. -/
def Reaches (cfg : Config F) (s : State) (cs : List Call) (t : State) : Prop :=
  ∃ es, run (step cfg) s es = some t ∧ es.filterMap callOf = cs

theorem Reaches.refl (cfg : Config F) (s : State) : Reaches cfg s [] s := ⟨[], rfl, rfl⟩

theorem Reaches.trans {s t u : State} {cs ds : List Call} (h₁ : Reaches cfg s cs t)
    (h₂ : Reaches cfg t ds u) : Reaches cfg s (cs ++ ds) u := by
  obtain ⟨es, hes, rfl⟩ := h₁
  obtain ⟨fs, hfs, rfl⟩ := h₂
  exact ⟨es ++ fs, run_append_eq_some.2 ⟨t, hes, hfs⟩, List.filterMap_append⟩

theorem Reaches.step {s t : State} {e : Event} (h : step cfg s e = some t) :
    Reaches cfg s (callOf e).toList t := by
  refine ⟨[e], run_cons_eq_some.2 ⟨t, h, rfl⟩, ?_⟩
  cases hcall : callOf e <;> simp [hcall]

/-- A run ends in its start or with a last step. -/
theorem Reaches.induction {I : List Call → State → Prop} {s t : State} {cs : List Call}
    (hstart : I [] s)
    (hstep : ∀ cs t e u, Reaches cfg s cs t → I cs t → Pipeline.step cfg t e = some u →
      I (cs ++ (callOf e).toList) u)
    (h : Reaches cfg s cs t) : I cs t := by
  obtain ⟨es, hes, rfl⟩ := h
  induction es using List.reverseRecOn generalizing t with
  | nil =>
    cases hes
    exact hstart
  | append_singleton es e ih =>
    obtain ⟨u, hu, hlast⟩ := run_append_eq_some.1 hes
    obtain ⟨t', ht', hnil⟩ := run_cons_eq_some.1 hlast
    cases hnil
    have hcalls : (es ++ [e]).filterMap callOf = es.filterMap callOf ++ (callOf e).toList := by
      rw [List.filterMap_append]
      cases hcall : callOf e <;> simp [hcall]
    rw [hcalls]
    exact hstep _ u e _ ⟨es, hu, rfl⟩ (ih hu) ht'

/-- The manager survives the calls `σ` and its destruction after them: `thread_` is never replaced
while it is joinable, no thread is joinable when `Stop` has returned in the destructor, and a
`Start` after a `Stop` finds every consumer alive. -/
structure Safe (cfg : Config F) (σ : List Call) : Prop where
  replaced : ∀ cs s, Reaches cfg init cs s → cs <+: σ ++ [.stop] → s.terminated = false
  destroyed : ∀ s, Reaches cfg init (σ ++ [.stop]) s → s.owner = .idle →
    (∀ i < cfg.threadCount, (s.consumer i).joinable = false) ∧ s.cleaner.joinable = false
  restarted : ∀ cs s s', Reaches cfg init cs s → step cfg s .spawnCleaner = some s' →
    cs <+: σ → .stop ∈ cs → ∀ i < cfg.threadCount, (s'.consumer i).alive = true

/-! ### One `Start`, then `Stop` -/

/-- One `Start` and then calls of `Stop`, or a beginning of that. -/
def Orderly : List Call → Prop
  | [] => True
  | c :: cs => c = .start ∧ ∀ d ∈ cs, d = .stop

theorem Orderly.of_append {cs ds : List Call} (h : Orderly (cs ++ ds)) : Orderly cs := by
  cases cs with
  | nil => trivial
  | cons c cs => exact ⟨h.1, fun d hd => h.2 d (List.mem_append_left _ hd)⟩

theorem Orderly.of_isPrefix {cs σ : List Call} (h : cs <+: σ) (hσ : Orderly σ) : Orderly cs := by
  obtain ⟨ds, rfl⟩ := h
  exact hσ.of_append

theorem orderly_replicate (k : ℕ) : Orderly (.start :: List.replicate k .stop) :=
  ⟨rfl, fun _ => List.eq_of_mem_replicate⟩

/-- `Stop` has stored false in `running_`. -/
def Closing (cfg : Config F) (s : State) : Prop :=
  (∃ i, s.owner = .stopping i) ∨ (∃ i, s.owner = .joining i ∧ ∀ j < i, s.consumer j = .joined) ∨
    AllJoined cfg s ∧ (s.owner = .joiningCleaner ∨
      (s.owner = .idle ∨ s.owner = .stopTest) ∧ s.cleaner.joinable = false)

/-- Where the manager is after a beginning of an orderly sequence of calls. -/
def Phase (cfg : Config F) (s : State) : List Call → Prop
  | [] => s.running = false ∧ s.cleaner = .absent ∧ (s.owner = .constructing ∨ s.owner = .idle)
  | [_] => s.running = true ∧
      (s.owner = .starting ∧ s.cleaner = .absent ∨ s.owner = .idle ∧ s.cleaner = .looping)
  | _ :: _ :: _ => s.running = true ∧ s.owner = .stopTest ∨ s.running = false ∧ Closing cfg s

theorem phase_nil_step {s s' : State} {e : Event} (hs : Phase cfg s [])
    (hcs : Orderly (callOf e).toList) (h : step cfg s e = some s') :
    Phase cfg s' (callOf e).toList ∧ s'.terminated = s.terminated := by
  obtain ⟨hr, hc, howner⟩ := hs
  cases move_of_step h with
  | spawn ho _ => exact ⟨⟨hr, hc, .inl ho⟩, rfl⟩
  | constructed _ _ => exact ⟨⟨hr, hc, .inr rfl⟩, rfl⟩
  | setRunning _ => exact ⟨⟨rfl, .inl ⟨rfl, hc⟩⟩, rfl⟩
  | stopCall _ => exact absurd hcs.1 nofun
  | spawnCleaner ho _ | terminate ho _ | clearRunning ho _ | stopEarly ho _ | stopQueue ho _
  | queuesStopped ho _ | join ho _ _ | joinSkip ho _ _ | allJoined ho _ | joinCleaner ho _
  | joinCleanerSkip ho _ => simp [ho] at howner
  | cleanerExit hl _ => simp [hc] at hl
  | _ => exact ⟨⟨hr, hc, howner⟩, rfl⟩

theorem phase_start_step {s s' : State} {e : Event} {c : Call} (hs : Phase cfg s [c])
    (hcs : Orderly (c :: (callOf e).toList)) (h : step cfg s e = some s') :
    Phase cfg s' (c :: (callOf e).toList) ∧ s'.terminated = s.terminated := by
  obtain ⟨hr, howner⟩ := hs
  cases move_of_step h with
  | setRunning _ => exact absurd (hcs.2 _ (List.mem_singleton_self _)) nofun
  | spawnCleaner _ _ => exact ⟨⟨hr, .inr ⟨rfl, rfl⟩⟩, rfl⟩
  | terminate ho hj =>
    -- the cleaner is absent until the only `Start` creates it
    obtain ⟨-, hc⟩ := howner.resolve_right (by simp [ho])
    rw [hc] at hj
    cases hj
  | stopCall _ => exact ⟨.inl ⟨hr, rfl⟩, rfl⟩
  | spawn ho _ | constructed ho _ | clearRunning ho _ | stopEarly ho _ | stopQueue ho _
  | queuesStopped ho _ | join ho _ _ | joinSkip ho _ _ | allJoined ho _ | joinCleaner ho _
  | joinCleanerSkip ho _ => simp [ho] at howner
  | cleanerExit _ hr' => simp [hr] at hr'
  | _ => exact ⟨⟨hr, howner⟩, rfl⟩

/-- A step of another thread leaves `Stop` where it is. -/
theorem Closing.of_eq {s s' : State} (hs : Closing cfg s)
    (hkeep : ∀ i, s.consumer i = .joined → s'.consumer i = .joined) (howner : s'.owner = s.owner)
    (hcleaner : s.cleaner.joinable = false → s'.cleaner.joinable = false) : Closing cfg s' := by
  unfold Closing AllJoined
  rw [howner]
  refine hs.imp_right (Or.imp ?_ ?_)
  · exact fun ⟨i, hi, hj⟩ => ⟨i, hi, fun j hji => hkeep j (hj j hji)⟩
  · exact fun ⟨hall, ho⟩ => ⟨fun i hi => hkeep i (hall i hi), ho.imp_right fun ⟨hidle, hc⟩ =>
      ⟨hidle, hcleaner hc⟩⟩

theorem closing_step {s s' : State} {e : Event} (hwf : WF cfg s) (hr : s.running = false)
    (hs : Closing cfg s) (he : callOf e ≠ some .start) (h : step cfg s e = some s') :
    s'.running = false ∧ Closing cfg s' ∧ s'.terminated = s.terminated := by
  have hkeep : ∀ i, s.consumer i = .joined → s'.consumer i = .joined :=
    fun i hi => joined_step hwf hi h
  have hother : s'.owner = s.owner → s'.cleaner = s.cleaner → Closing cfg s' :=
    fun howner hcleaner => hs.of_eq hkeep howner (by rw [hcleaner]; exact id)
  cases move_of_step h with
  | setRunning _ => exact absurd rfl he
  | spawn ho _ | constructed ho _ | spawnCleaner ho _ | terminate ho _ => simp [Closing, ho] at hs
  | clearRunning _ hr' => simp [hr] at hr'
  | stopCall ho =>
    have hjoined : AllJoined cfg s ∧ s.cleaner.joinable = false := by
      simpa [Closing, ho] using hs
    exact ⟨hr, .inr (.inr ⟨hjoined.1, .inr ⟨.inr rfl, hjoined.2⟩⟩), rfl⟩
  | stopEarly ho _ =>
    have hjoined : AllJoined cfg s ∧ s.cleaner.joinable = false := by
      simpa [Closing, ho] using hs
    exact ⟨hr, .inr (.inr ⟨hjoined.1, .inr ⟨.inl rfl, hjoined.2⟩⟩), rfl⟩
  | stopQueue _ _ => exact ⟨hr, .inl ⟨_, rfl⟩, rfl⟩
  | queuesStopped _ _ => exact ⟨hr, .inr (.inl ⟨0, rfl, fun i hi => absurd hi i.not_lt_zero⟩), rfl⟩
  | @join k ho _ hc =>
    have hj : ∀ i < k, s.consumer i = .joined := by simpa [Closing, ho] using hs
    refine ⟨hr, .inr (.inl ⟨k + 1, rfl, fun i hi => ?_⟩), rfl⟩
    by_cases hik : i = k
    · subst hik
      exact update_self ..
    · exact hkeep i (hj i (by omega))
  | @joinSkip k ho _ hc =>
    have hj : ∀ i < k, s.consumer i = .joined := by simpa [Closing, ho] using hs
    refine ⟨hr, .inr (.inl ⟨k + 1, rfl, fun i hi => ?_⟩), rfl⟩
    by_cases hik : i = k
    · rw [hik]
      exact hc
    · exact hj i (by omega)
  | @allJoined k ho hk =>
    have hj : ∀ i < k, s.consumer i = .joined := by simpa [Closing, ho] using hs
    have hsize := hwf.size_eq (by rw [ho]; nofun)
    exact ⟨hr, .inr (.inr ⟨fun i hi => hj i (by omega), .inl rfl⟩), rfl⟩
  | joinCleaner ho _ =>
    have hall : AllJoined cfg s := by simpa [Closing, ho] using hs
    exact ⟨hr, .inr (.inr ⟨hall, .inr ⟨.inl rfl, rfl⟩⟩), rfl⟩
  | joinCleanerSkip ho hc =>
    have hall : AllJoined cfg s := by simpa [Closing, ho] using hs
    exact ⟨hr, .inr (.inr ⟨hall, .inr ⟨.inl rfl, hc⟩⟩), rfl⟩
  | cleanerPass _ hr' => simp [hr] at hr'
  | cleanerExit hl _ => exact ⟨hr, hs.of_eq hkeep rfl (by simp [hl, CleanerPc.joinable]), rfl⟩
  | _ => exact ⟨hr, hother rfl rfl, rfl⟩

theorem phase_stop_step {s s' : State} {e : Event} {c d : Call} {cs : List Call}
    (hwf : WF cfg s) (hs : Phase cfg s (c :: d :: cs)) (he : callOf e ≠ some .start)
    (h : step cfg s e = some s') :
    (s'.running = true ∧ s'.owner = .stopTest ∨ s'.running = false ∧ Closing cfg s') ∧
      s'.terminated = s.terminated := by
  rcases hs with ⟨hr, howner⟩ | ⟨hr, hclosing⟩
  · cases move_of_step h with
    | clearRunning _ _ => exact ⟨.inr ⟨rfl, .inl ⟨0, rfl⟩⟩, rfl⟩
    | setRunning _ => exact absurd rfl he
    | stopEarly _ hr' | cleanerExit _ hr' => simp [hr] at hr'
    | spawn ho _ | constructed ho _ | spawnCleaner ho _ | terminate ho _ | stopCall ho
    | stopQueue ho _ | queuesStopped ho _ | join ho _ _ | joinSkip ho _ _ | allJoined ho _
    | joinCleaner ho _ | joinCleanerSkip ho _ => simp [ho] at howner
    | _ => exact ⟨.inl ⟨hr, howner⟩, rfl⟩
  · obtain ⟨hr', hclosing', hterm⟩ := closing_step hwf hr hclosing he h
    exact ⟨.inr ⟨hr', hclosing'⟩, hterm⟩

/-- Where an orderly sequence of calls leads. -/
theorem phase_of_reaches {s : State} {cs : List Call} (h : Reaches cfg init cs s)
    (hcs : Orderly cs) : Phase cfg s cs ∧ s.terminated = false := by
  refine h.induction (I := fun cs s => Orderly cs → Phase cfg s cs ∧ s.terminated = false)
    (fun _ => ⟨⟨rfl, rfl, .inl rfl⟩, rfl⟩) (fun cs t e u ht hI hstep hcs => ?_) hcs
  obtain ⟨hphase, hterm⟩ := hI hcs.of_append
  have hwf : WF cfg t := by
    obtain ⟨es, hes, -⟩ := ht
    exact wf_run hes (wf_init cfg)
  match cs, hphase, hcs with
  | [], hphase, hcs =>
    obtain ⟨hphase', hterm'⟩ := phase_nil_step hphase hcs hstep
    exact ⟨hphase', hterm'.trans hterm⟩
  | [c], hphase, hcs =>
    obtain ⟨hphase', hterm'⟩ := phase_start_step hphase hcs hstep
    exact ⟨hphase', hterm'.trans hterm⟩
  | c :: d :: cs, hphase, hcs =>
    have he : callOf e ≠ some .start := by
      intro hstart
      have hmem : Call.start ∈ d :: cs ++ (callOf e).toList := by simp [hstart]
      exact absurd (hcs.2 _ hmem) nofun
    obtain ⟨hphase', hterm'⟩ := phase_stop_step hwf hphase he hstep
    exact ⟨hphase', hterm'.trans hterm⟩

/-- An orderly sequence of calls is safe. -/
theorem safe_orderly (cfg : Config F) (k : ℕ) : Safe cfg (.start :: List.replicate k .stop) where
  replaced cs s h hcs := by
    rw [List.cons_append, ← List.replicate_succ'] at hcs
    exact (phase_of_reaches h (Orderly.of_isPrefix hcs (orderly_replicate _))).2
  destroyed s h howner := by
    rw [List.cons_append, ← List.replicate_succ'] at h
    obtain ⟨hphase, -⟩ := phase_of_reaches h (orderly_replicate _)
    rw [List.replicate_succ] at hphase
    rcases hphase with ⟨-, ho⟩ | ⟨-, hclosing⟩
    · simp [howner] at ho
    · have hjoined : AllJoined cfg s ∧ s.cleaner.joinable = false := by
        simpa [Closing, howner] using hclosing
      refine ⟨fun i hi => ?_, hjoined.2⟩
      rw [hjoined.1 i hi]
      rfl
  restarted cs s s' h hstep hcs hstop := by
    have horderly := Orderly.of_isPrefix hcs (orderly_replicate k)
    obtain ⟨hphase, -⟩ := phase_of_reaches h horderly
    have howner : s.owner = .starting := by
      cases move_of_step hstep with
      | spawnCleaner ho _ | terminate ho _ => exact ho
    match cs, hphase, horderly with
    | [c], _, horderly =>
      obtain rfl := horderly.1
      simp at hstop
    | _ :: _ :: _, hphase, _ => simp [Phase, Closing, howner] at hphase

/-! ### Other sequences -/

/-- Nothing is going on: the owner is outside `Start` and `Stop`, and there is no cleaner. -/
structure Quiet (s : State) : Prop where
  owner : s.owner = .idle
  running : s.running = false
  cleaner : s.cleaner.joinable = false
  terminated : s.terminated = false

/-- The constructor has returned and every consumer has left its loop before `Start`. -/
def deserted (cfg : Config F) (k : ℕ) : State where
  queuesSize := cfg.threadCount
  owner := .idle
  consumer i := if i < k then .returned else if i < cfg.threadCount then .loopTest else .unborn

theorem quiet_deserted (cfg : Config F) (k : ℕ) : Quiet (deserted cfg k) := ⟨rfl, rfl, rfl, rfl⟩

theorem reaches_deserted (cfg : Config F) {k : ℕ} (hk : k ≤ cfg.threadCount) :
    Reaches cfg init [] (deserted cfg k) := by
  induction k with
  | zero =>
    have hspawn : Reaches cfg init [] (spawned cfg.threadCount) := by
      refine ⟨_, run_spawn cfg le_rfl, ?_⟩
      rw [List.filterMap_replicate_of_none rfl]
    have hbuilt : step cfg (spawned cfg.threadCount) .constructed = some (deserted cfg 0) := by
      simp [step, move, spawned, deserted]
    exact hspawn.trans (Reaches.step hbuilt)
  | succ k ih =>
    have hconsumer : update (deserted cfg k).consumer k .returned =
        (deserted cfg (k + 1)).consumer := by
      funext i
      by_cases hi : i = k
      · subst hi
        simp [deserted]
      · rw [update_of_ne hi]
        simp only [deserted]
        exact if_congr (by omega) rfl rfl
    have htest : (deserted cfg k).consumer k = .loopTest := by
      simp [deserted, Nat.lt_of_succ_le hk]
    have hleave : step cfg (deserted cfg k) (.test k) = some (deserted cfg (k + 1)) := by
      show (if _ then _ else none) = _
      rw [if_pos htest]
      exact congrArg (fun f => some { deserted cfg (k + 1) with consumer := f }) hconsumer
    exact (ih (by omega)).trans (Reaches.step hleave)

/-- `Stop` returns early, and the threads stay as they are. -/
theorem Quiet.stop (cfg : Config F) {s : State} (hs : Quiet s) :
    ∃ t, Reaches cfg s [.stop] t ∧ Quiet t ∧ t.consumer = s.consumer := by
  have hcall : step cfg s .stopCall = some { s with owner := .stopTest, stopCalled := true } := by
    simp [step, move, hs.owner, hs.terminated]
  have hreturn : step cfg { s with owner := .stopTest, stopCalled := true } .clearRunning =
      some { s with owner := .idle, stopCalled := true, stopReturned := true } := by
    simp [step, move, hs.running, hs.terminated]
  exact ⟨_, (Reaches.step hcall).trans (Reaches.step hreturn),
    ⟨rfl, hs.running, hs.cleaner, hs.terminated⟩, rfl⟩

theorem Quiet.stops (cfg : Config F) {s : State} (hs : Quiet s) (k : ℕ) :
    ∃ t, Reaches cfg s (List.replicate k .stop) t ∧ Quiet t ∧ t.consumer = s.consumer := by
  induction k with
  | zero => exact ⟨s, .refl cfg s, hs, rfl⟩
  | succ k ih =>
    obtain ⟨t, ht, hquiet, hconsumer⟩ := ih
    obtain ⟨u, hu, hquiet', hconsumer'⟩ := hquiet.stop cfg
    rw [List.replicate_succ']
    exact ⟨u, ht.trans hu, hquiet', hconsumer'.trans hconsumer⟩

/-- After `Start`. -/
def State.started (s : State) : State :=
  { s with running := true, cleaner := .looping, owner := .idle, startReturned := true }

theorem Quiet.start (cfg : Config F) {s : State} (hs : Quiet s) :
    ∃ t, Reaches cfg s [.start] t ∧ step cfg t .spawnCleaner = some s.started := by
  have hcall : step cfg s .setRunning = some { s with running := true, owner := .starting } := by
    simp [step, move, hs.owner, hs.terminated]
  exact ⟨_, Reaches.step hcall, by simp [step, move, hs.cleaner, hs.terminated, State.started]⟩

/-- The first loop of `Stop` ends. -/
theorem exists_stopQueues (cfg : Config F) {s : State} {i : ℕ} (d : ℕ)
    (hterm : s.terminated = false) (ho : s.owner = .stopping i) (hd : s.queuesSize = i + d) :
    ∃ queue, Reaches cfg s [] { s with queue := queue, owner := .joining 0 } := by
  induction d generalizing s i with
  | zero =>
    have hi : ¬ i < s.queuesSize := by omega
    have hstep : step cfg s .stopQueue = some { s with owner := .joining 0 } := by
      simp [step, move, ho, hi, hterm]
    exact ⟨s.queue, Reaches.step hstep⟩
  | succ d ih =>
    have hi : i < s.queuesSize := by omega
    let t : State :=
      { s with queue := update s.queue i (s.queue i).stopped, owner := .stopping (i + 1) }
    have hstep : step cfg s .stopQueue = some t := by simp [t, step, move, ho, hi, hterm]
    have hsize : t.queuesSize = i + 1 + d := by
      show s.queuesSize = _
      omega
    obtain ⟨queue, hrest⟩ := ih (s := t) hterm rfl hsize
    exact ⟨queue, (Reaches.step hstep).trans hrest⟩

/-- The second loop of `Stop` ends when the consumers have returned. -/
theorem exists_joins (cfg : Config F) {s : State} {i : ℕ} (d : ℕ) (hterm : s.terminated = false)
    (ho : s.owner = .joining i) (hd : s.queuesSize = i + d)
    (hjoined : ∀ j < i, s.consumer j = .joined)
    (hreturned : ∀ j, i ≤ j → j < s.queuesSize → s.consumer j = .returned) :
    ∃ consumer, Reaches cfg s [] { s with consumer := consumer, owner := .joiningCleaner } ∧
      ∀ j < s.queuesSize, consumer j = .joined := by
  induction d generalizing s i with
  | zero =>
    have hi : ¬ i < s.queuesSize := by omega
    have hstep : step cfg s .join = some { s with owner := .joiningCleaner } := by
      simp [step, move, ho, hi, hterm]
    exact ⟨s.consumer, Reaches.step hstep, fun j hj => hjoined j (by omega)⟩
  | succ d ih =>
    have hi : i < s.queuesSize := by omega
    let t : State :=
      { s with consumer := update s.consumer i .joined, owner := .joining (i + 1) }
    have hstep : step cfg s .join = some t := by
      simp [t, step, move, ho, hi, hterm, hreturned i le_rfl hi]
    have hsize : t.queuesSize = i + 1 + d := by
      show s.queuesSize = _
      omega
    have hjoined' : ∀ j < i + 1, t.consumer j = .joined := by
      intro j hj
      by_cases hji : j = i
      · subst hji
        exact update_self ..
      · exact (update_of_ne hji ..).trans (hjoined j (by omega))
    have hreturned' : ∀ j, i + 1 ≤ j → j < t.queuesSize → t.consumer j = .returned :=
      fun j hj hjs => (update_of_ne (by omega) ..).trans (hreturned j (by omega) hjs)
    obtain ⟨consumer, hrest, hall⟩ := ih (s := t) hterm rfl hsize hjoined' hreturned'
    exact ⟨consumer, (Reaches.step hstep).trans hrest, hall⟩

/-- A `Stop` after `Start` joins the consumers that have returned. -/
theorem Quiet.startedStop (cfg : Config F) {s : State} (hs : Quiet s)
    (hreturned : ∀ j < s.queuesSize, s.consumer j = .returned) :
    ∃ t, Reaches cfg s.started [.stop] t ∧ Quiet t ∧
      ∀ j < s.queuesSize, t.consumer j = .joined := by
  have hcall : step cfg s.started .stopCall =
      some { s.started with owner := .stopTest, stopCalled := true } := by
    simp [step, move, State.started, hs.terminated]
  have hclear : step cfg { s.started with owner := .stopTest, stopCalled := true } .clearRunning =
      some { s.started with running := false, owner := .stopping 0, stopCalled := true } := by
    simp [step, move, State.started, hs.terminated]
  obtain ⟨queue, hqueues⟩ := exists_stopQueues cfg
    (s := { s.started with running := false, owner := .stopping 0, stopCalled := true })
    s.queuesSize hs.terminated rfl (Nat.zero_add _).symm
  obtain ⟨consumer, hjoins, hall⟩ := exists_joins cfg
    (s := { s.started with
      running := false, queue := queue, owner := .joining 0, stopCalled := true })
    s.queuesSize hs.terminated rfl (Nat.zero_add _).symm (fun j hj => absurd hj j.not_lt_zero)
    (fun j _ hj => hreturned j hj)
  have hexit : step cfg { s.started with
      running := false, queue := queue, consumer := consumer, owner := .joiningCleaner,
      stopCalled := true } .cleanerTurn = some { s.started with
      running := false, queue := queue, consumer := consumer, owner := .joiningCleaner,
      stopCalled := true, cleaner := .returned } := by
    simp [step, move, State.started, hs.terminated]
  have hjoin : step cfg { s.started with
      running := false, queue := queue, consumer := consumer, owner := .joiningCleaner,
      stopCalled := true, cleaner := .returned } .joinCleaner = some { s.started with
      running := false, queue := queue, consumer := consumer, owner := .idle,
      stopCalled := true, cleaner := .joined, stopReturned := true } := by
    simp [step, move, State.started, hs.terminated]
  exact ⟨_, ((((Reaches.step hcall).trans (Reaches.step hclear)).trans hqueues).trans hjoins).trans
    ((Reaches.step hexit).trans (Reaches.step hjoin)), ⟨rfl, rfl, rfl, hs.terminated⟩, hall⟩

/-- Consumers that have left their loops are not brought back by `Start`. -/
theorem not_safe_of_restart {σ cs : List Call} {s : State} (hreach : Reaches cfg init cs s)
    (hs : Quiet s) (hdead : (s.consumer 0).alive = false) (hcs : cs ++ [.start] <+: σ)
    (hstop : .stop ∈ cs) : ¬ Safe cfg σ := by
  intro hsafe
  obtain ⟨t, ht, hstep⟩ := hs.start cfg
  have halive := hsafe.restarted _ t _ (hreach.trans ht) hstep hcs
    (List.mem_append_left _ hstop) 0 cfg.threadCount_pos
  exact absurd (hdead.symm.trans halive) nofun

/-- Two calls of `Start` with no `Stop` between them replace a joinable thread. -/
theorem not_safe_of_start_start {rest : List Call} :
    ¬ Safe cfg (.start :: .start :: rest) := by
  intro hsafe
  have hquiet := quiet_deserted cfg cfg.threadCount
  obtain ⟨t, ht, hspawn⟩ := hquiet.start cfg
  have hcall : step cfg (deserted cfg cfg.threadCount).started .setRunning =
      some { (deserted cfg cfg.threadCount).started with owner := .starting } := by
    simp [step, move, State.started, deserted]
  have hreplace : step cfg { (deserted cfg cfg.threadCount).started with owner := .starting }
      .spawnCleaner = some { (deserted cfg cfg.threadCount).started with
        owner := .starting, terminated := true } := by
    simp [step, move, State.started, deserted, CleanerPc.joinable]
  have hreach := (((reaches_deserted cfg le_rfl).trans ht).trans (Reaches.step hspawn)).trans
    ((Reaches.step hcall).trans (Reaches.step hreplace))
  have hjoinable : true = false :=
    hsafe.replaced _ _ hreach ⟨rest ++ [.stop], by simp [callOf]⟩
  cases hjoinable

/-- A `Start` after a `Start` and a `Stop` finds no consumer. -/
theorem not_safe_of_start_stop_start {k : ℕ} {rest : List Call} :
    ¬ Safe cfg (.start :: List.replicate (k + 1) .stop ++ .start :: rest) := by
  have hquiet := quiet_deserted cfg cfg.threadCount
  obtain ⟨t, ht, hspawn⟩ := hquiet.start cfg
  obtain ⟨u, hu, hquiet', hjoined⟩ :=
    hquiet.startedStop cfg fun j (hj : j < cfg.threadCount) => if_pos hj
  obtain ⟨v, hv, hquiet'', hconsumer⟩ := hquiet'.stops cfg k
  have hreach := (((reaches_deserted cfg le_rfl).trans ht).trans (Reaches.step hspawn)).trans
    (hu.trans hv)
  refine not_safe_of_restart hreach hquiet'' ?_ ⟨rest, ?_⟩ (by simp)
  · rw [hconsumer, hjoined 0 cfg.threadCount_pos]
    rfl
  · simp [callOf, List.replicate_succ]

/-- A `Start` that comes after a `Stop` only may find that the consumers have returned. -/
theorem not_safe_of_stop_start {k : ℕ} {rest : List Call} :
    ¬ Safe cfg (List.replicate (k + 1) .stop ++ .start :: rest) := by
  obtain ⟨t, ht, hquiet, hconsumer⟩ :=
    (quiet_deserted cfg cfg.threadCount).stops cfg (k + 1)
  refine not_safe_of_restart ((reaches_deserted cfg le_rfl).trans ht) hquiet ?_ ⟨rest, ?_⟩
    (by simp [List.replicate_succ])
  · rw [hconsumer]
    simp [deserted, cfg.threadCount_pos, ConsumerPc.alive]
  · simp

/-- Without `Start` the destructor leaves the consumers joinable. -/
theorem not_safe_of_no_start {k : ℕ} : ¬ Safe cfg (List.replicate k .stop) := by
  intro hsafe
  obtain ⟨t, ht, hquiet, hconsumer⟩ :=
    (quiet_deserted cfg cfg.threadCount).stops cfg (k + 1)
  rw [List.replicate_succ'] at ht
  have hjoinable := (hsafe.destroyed t ((reaches_deserted cfg le_rfl).trans ht) hquiet.owner).1 0
    cfg.threadCount_pos
  rw [hconsumer] at hjoinable
  simp [deserted, cfg.threadCount_pos, ConsumerPc.joinable] at hjoinable

/-- A sequence of calls is all `Stop`, or some `Stop` before a `Start`. -/
theorem eq_stops_or (σ : List Call) :
    (∃ k, σ = List.replicate k .stop) ∨ ∃ k rest, σ = List.replicate k .stop ++ .start :: rest := by
  induction σ with
  | nil => exact .inl ⟨0, rfl⟩
  | cons c σ ih =>
    cases c with
    | start => exact .inr ⟨0, σ, rfl⟩
    | stop =>
      rcases ih with ⟨k, rfl⟩ | ⟨k, rest, rfl⟩
      · exact .inl ⟨k + 1, rfl⟩
      · exact .inr ⟨k + 1, rest, rfl⟩

/-- **The life cycle.**  For every thread count and every sequence of calls: in all runs no thread
object is destroyed or replaced while it is joinable, and every `Start` after a `Stop` finds all
consumers alive, if and only if the sequence is one `Start` followed by any number of `Stop`. -/
theorem safe_iff (cfg : Config F) (σ : List Call) :
    Safe cfg σ ↔ ∃ k, σ = .start :: List.replicate k .stop := by
  refine ⟨fun hsafe => ?_, fun ⟨k, hσ⟩ => hσ ▸ safe_orderly cfg k⟩
  rcases eq_stops_or σ with ⟨k, rfl⟩ | ⟨k, rest, rfl⟩
  · exact absurd hsafe not_safe_of_no_start
  cases k with
  | succ k => exact absurd hsafe not_safe_of_stop_start
  | zero =>
    rcases eq_stops_or rest with ⟨j, rfl⟩ | ⟨j, rest, rfl⟩
    · exact ⟨j, rfl⟩
    cases j with
    | zero => exact absurd hsafe not_safe_of_start_start
    | succ j => exact absurd hsafe not_safe_of_start_stop_start

/-- A manager that is destroyed without a `Start` ends the process. -/
theorem destroyed_without_start : ¬ ∀ (cfg : Config ℚ) (σ : List Call), Safe cfg σ := by
  intro hclaim
  exact not_safe_of_no_start (k := 0) (hclaim fourThreads [])

end Pipeline

end MonitorSystem
