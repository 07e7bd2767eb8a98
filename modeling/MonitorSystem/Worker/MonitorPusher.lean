import Mathlib.Tactic
import MonitorSystem.Library.Ranking

/-!
# `MonitorPusher`

The thread that pushes the reports of a worker, and the thread that owns the pusher and calls
`Start` and `Stop` (the destructor calls `Stop`), as one transition system with a clock in
milliseconds.

Each event is one atomic step of one thread: a read or write of the atomic flag `running_`, the
creation or the end of a thread, the beginning or the end of `PushOnce`, falling asleep or waking
up.  `sleep_for` blocks for a second at least; how much longer, and how long `PushOnce` takes, is up
to the clock, which may advance at any time.  The RPC of `PushOnce` has no deadline: it may also
never return.  An exception that leaves `PushOnce` leaves the
thread's function too and ends the process, as does a thread object that is replaced while it is
joinable.

`begun` is history: the moments at which each thread has begun `PushOnce`, latest first.
-/

namespace MonitorSystem

namespace MonitorPusher

open Function (update update_self update_of_ne)

/-- Where the owner is. -/
inductive OwnerPc
  /-- outside `Start` and `Stop` -/
  | idle
  /-- in `Start`, having read `running_` as false -/
  | starting
  /-- in `Start`, after `running_ = true` -/
  | spawning
  /-- in `Stop`, after `running_ = false` -/
  | joining
  deriving DecidableEq

/-- Where a thread that runs `PushLoop` is. -/
inductive ThreadPc
  /-- not created yet -/
  | unborn
  /-- about to evaluate `while (running_)` -/
  | loopTest
  /-- inside `PushOnce` -/
  | pushing
  /-- about to evaluate `i < interval_seconds_ && running_` -/
  | waitTest (i : ℕ)
  /-- in turn `i` of the inner loop, asleep until `wakeAt` at least -/
  | sleeping (i wakeAt : ℕ)
  /-- `PushLoop` has returned -/
  | returned
  /-- returned, and joined by `Stop` -/
  | joined
  deriving DecidableEq

/-- `PushLoop` is running. -/
def ThreadPc.alive : ThreadPc → Bool
  | .loopTest | .pushing | .waitTest _ | .sleeping _ _ => true
  | .unborn | .returned | .joined => false

/-- What has ended the process. -/
inductive End
  /-- `thread_` was replaced while it was joinable -/
  | replaced
  /-- an exception escaped from `PushLoop` -/
  | escaped
  deriving DecidableEq

/-- A state of the pusher; `thread_` is the last thread created, if any. -/
structure State where
  now : ℕ := 0
  running : Bool := false
  owner : OwnerPc := .idle
  created : ℕ := 0
  thread : ℕ → ThreadPc := fun _ => .unborn
  ended : Option End := none
  /-- when thread `t` has begun `PushOnce`, latest first -/
  begun : ℕ → List ℕ := fun _ => []

/-- One atomic step of one thread, or of the clock. -/
inductive Event
  /-- `ms` milliseconds pass -/
  | elapse (ms : ℕ)
  /-- call `Start`: `if (running_) return;` -/
  | startCall
  /-- `Start`: `running_ = true` -/
  | setRunning
  /-- `Start`: create the thread, assign it to `thread_` and return -/
  | spawn
  /-- call `Stop`: `running_ = false` -/
  | stopCall
  /-- `Stop`: join the thread, if it is joinable, and return -/
  | join
  /-- thread `t` evaluates `while (running_)`, and begins `PushOnce` if it is true -/
  | test (t : ℕ)
  /-- thread `t` returns from `PushOnce`, whatever the answer to the RPC; a run in which the call
  hangs has no such step -/
  | pushed (t : ℕ)
  /-- an exception leaves `PushOnce` in thread `t` -/
  | throw (t : ℕ)
  /-- thread `t` evaluates the condition of the inner loop, and falls asleep if it is true -/
  | wait (t : ℕ)
  /-- thread `t` wakes up -/
  | wake (t : ℕ)

/-- The effect of an event on a process that has not ended. -/
def move (interval : ℤ) (s : State) : Event → Option State
  | .elapse ms => some { s with now := s.now + ms }
  | .startCall =>
    if s.owner = .idle then
      if s.running then some s else some { s with owner := .starting }
    else none
  | .setRunning =>
    if s.owner = .starting then some { s with running := true, owner := .spawning } else none
  | .spawn =>
    if s.owner = .spawning then
      -- the new thread exists before the old object is destroyed by the assignment
      if 0 < s.created ∧ s.thread (s.created - 1) ≠ .joined then
        some { s with ended := some .replaced }
      else
        some { s with
          owner := .idle
          created := s.created + 1
          thread := update s.thread s.created .loopTest }
    else none
  | .stopCall =>
    if s.owner = .idle then some { s with running := false, owner := .joining } else none
  | .join =>
    if s.owner = .joining then
      if s.created = 0 ∨ s.thread (s.created - 1) = .joined then some { s with owner := .idle }
      else if s.thread (s.created - 1) = .returned then
        some { s with owner := .idle, thread := update s.thread (s.created - 1) .joined }
      else none
    else none
  | .test t =>
    if s.thread t = .loopTest then
      if s.running then
        some { s with
          thread := update s.thread t .pushing
          begun := update s.begun t (s.now :: s.begun t) }
      else some { s with thread := update s.thread t .returned }
    else none
  | .pushed t =>
    if s.thread t = .pushing then some { s with thread := update s.thread t (.waitTest 0) }
    else none
  | .throw t => if s.thread t = .pushing then some { s with ended := some .escaped } else none
  | .wait t =>
    match s.thread t with
    | .waitTest i =>
      if (i : ℤ) < interval ∧ s.running then
        some { s with thread := update s.thread t (.sleeping i (s.now + 1000)) }
      else some { s with thread := update s.thread t .loopTest }
    | _ => none
  | .wake t =>
    match s.thread t with
    | .sleeping i wakeAt =>
      if wakeAt ≤ s.now then some { s with thread := update s.thread t (.waitTest (i + 1)) }
      else none
    | _ => none

/-- One step; an ended process takes none. -/
def step (interval : ℤ) (s : State) (e : Event) : Option State :=
  if s.ended.isSome then none else move interval s e

/-- After the constructor. -/
def init : State := {}

/-- The branches of `move`, one constructor each. -/
inductive Move (interval : ℤ) (s : State) : Event → State → Prop
  | elapse (ms : ℕ) : Move interval s (.elapse ms) { s with now := s.now + ms }
  | startAgain (ho : s.owner = .idle) (hr : s.running = true) : Move interval s .startCall s
  | startCall (ho : s.owner = .idle) (hr : s.running = false) :
      Move interval s .startCall { s with owner := .starting }
  | setRunning (ho : s.owner = .starting) :
      Move interval s .setRunning { s with running := true, owner := .spawning }
  | replace (ho : s.owner = .spawning) (hc : 0 < s.created)
      (hj : s.thread (s.created - 1) ≠ .joined) :
      Move interval s .spawn { s with ended := some .replaced }
  | spawn (ho : s.owner = .spawning) (hj : 0 < s.created → s.thread (s.created - 1) = .joined) :
      Move interval s .spawn { s with
        owner := .idle
        created := s.created + 1
        thread := update s.thread s.created .loopTest }
  | stopCall (ho : s.owner = .idle) :
      Move interval s .stopCall { s with running := false, owner := .joining }
  | joinNothing (ho : s.owner = .joining)
      (hj : s.created = 0 ∨ s.thread (s.created - 1) = .joined) :
      Move interval s .join { s with owner := .idle }
  | join (ho : s.owner = .joining) (hc : 0 < s.created)
      (ht : s.thread (s.created - 1) = .returned) :
      Move interval s .join { s with
        owner := .idle, thread := update s.thread (s.created - 1) .joined }
  | enter {t : ℕ} (ht : s.thread t = .loopTest) (hr : s.running = true) :
      Move interval s (.test t) { s with
        thread := update s.thread t .pushing
        begun := update s.begun t (s.now :: s.begun t) }
  | leave {t : ℕ} (ht : s.thread t = .loopTest) (hr : s.running = false) :
      Move interval s (.test t) { s with thread := update s.thread t .returned }
  | pushed {t : ℕ} (ht : s.thread t = .pushing) :
      Move interval s (.pushed t) { s with thread := update s.thread t (.waitTest 0) }
  | throw {t : ℕ} (ht : s.thread t = .pushing) :
      Move interval s (.throw t) { s with ended := some .escaped }
  | sleep {t i : ℕ} (ht : s.thread t = .waitTest i) (hi : (i : ℤ) < interval)
      (hr : s.running = true) :
      Move interval s (.wait t) { s with
        thread := update s.thread t (.sleeping i (s.now + 1000)) }
  | waited {t i : ℕ} (ht : s.thread t = .waitTest i)
      (hi : interval ≤ i ∨ s.running = false) :
      Move interval s (.wait t) { s with thread := update s.thread t .loopTest }
  | wake {t i wakeAt : ℕ} (ht : s.thread t = .sleeping i wakeAt) (hw : wakeAt ≤ s.now) :
      Move interval s (.wake t) { s with thread := update s.thread t (.waitTest (i + 1)) }

/-- **Inversion.**  Whatever a step does is one of the moves. -/
theorem move_of_step {interval : ℤ} {s s' : State} {e : Event}
    (h : step interval s e = some s') : Move interval s e s' := by
  have h' : move interval s e = some s' := by
    unfold step at h
    split_ifs at h
    exact h
  clear h
  cases e with
  | elapse ms =>
    cases h'
    exact .elapse ms
  | startCall =>
    simp only [move] at h'
    split_ifs at h' with ho hr
    · cases h'
      exact .startAgain ho hr
    · cases h'
      exact .startCall ho (by simpa using hr)
  | setRunning =>
    simp only [move] at h'
    split_ifs at h' with ho
    cases h'
    exact .setRunning ho
  | spawn =>
    simp only [move] at h'
    split_ifs at h' with ho hj
    · cases h'
      exact .replace ho hj.1 hj.2
    · cases h'
      exact .spawn ho fun hc => by simpa [hc] using hj
  | stopCall =>
    simp only [move] at h'
    split_ifs at h' with ho
    cases h'
    exact .stopCall ho
  | join =>
    simp only [move] at h'
    split_ifs at h' with ho hj ht
    · cases h'
      exact .joinNothing ho hj
    · cases h'
      exact .join ho (Nat.pos_of_ne_zero fun hc => hj (.inl hc)) ht
  | test t =>
    simp only [move] at h'
    split_ifs at h' with ht hr
    · cases h'
      exact .enter ht hr
    · cases h'
      exact .leave ht (by simpa using hr)
  | pushed t =>
    simp only [move] at h'
    split_ifs at h' with ht
    cases h'
    exact .pushed ht
  | throw t =>
    simp only [move] at h'
    split_ifs at h' with ht
    cases h'
    exact .throw ht
  | wait t =>
    simp only [move] at h'
    split at h'
    next i ht =>
      split_ifs at h' with hi
      · cases h'
        exact .sleep ht hi.1 hi.2
      · cases h'
        refine .waited ht ?_
        rw [not_and_or, not_lt, Bool.not_eq_true] at hi
        exact hi
    next => cases h'
  | wake t =>
    simp only [move] at h'
    split at h'
    next i wakeAt ht =>
      split_ifs at h' with hw
      cases h'
      exact .wake ht hw
    next => cases h'

open Transition

variable {interval : ℤ}

theorem ended_eq_none_of_step {s s' : State} {e : Event} (h : step interval s e = some s') :
    s.ended = none := by
  by_contra hended
  simp [step, Option.isSome_iff_ne_none.2 hended] at h

/-! ### One thread at a time -/

/-- The thread object `thread_` is not joinable. -/
def State.Joined (s : State) : Prop := ∀ t, t + 1 = s.created → s.thread t = .joined

/-- The shape of every reachable state. -/
structure Inv (s : State) : Prop where
  earlier : ∀ t, t + 1 < s.created → s.thread t = .joined
  unborn : ∀ t, s.created ≤ t → s.thread t = .unborn
  born : ∀ t, t + 1 = s.created → s.thread t ≠ .unborn
  serving : s.owner = .idle → s.running = true →
    ∃ t, t + 1 = s.created ∧ (s.thread t).alive = true
  stopped : s.owner = .idle → s.running = false → s.Joined
  starting : s.owner = .starting → s.running = false ∧ s.Joined
  spawning : s.owner = .spawning → s.running = true ∧ s.Joined
  joining : s.owner = .joining → s.running = false
  ended : s.ended ≠ some .replaced

theorem inv_init : Inv init where
  earlier _ ht := absurd ht (Nat.not_lt_zero _)
  unborn _ _ := rfl
  born _ ht := absurd ht (Nat.succ_ne_zero _)
  serving _ h := nomatch h
  stopped _ _ _ ht := absurd ht (Nat.succ_ne_zero _)
  starting := nofun
  spawning := nofun
  joining := nofun
  ended := nofun

/-- Only the last thread is alive. -/
theorem Inv.last {s : State} {t : ℕ} (hs : Inv s) (ht : (s.thread t).alive = true) :
    t + 1 = s.created := by
  rcases Nat.lt_trichotomy (t + 1) s.created with hlt | heq | hgt
  · rw [hs.earlier t hlt] at ht
    cases ht
  · exact heq
  · rw [hs.unborn t (by omega)] at ht
    cases ht

theorem Inv.not_joined {s : State} {t : ℕ} (hs : Inv s) (ht : (s.thread t).alive = true) :
    ¬ s.Joined := fun hj => by
  rw [hj t (hs.last ht)] at ht
  cases ht

/-- A step of an alive thread, which stays alive as long as `running_` is true. -/
theorem inv_thread {s s' : State} {t : ℕ} {pc : ThreadPc} (hs : Inv s)
    (ht : (s.thread t).alive = true) (hthread : s'.thread = update s.thread t pc)
    (hpc : pc ≠ .unborn) (halive : s.running = true → pc.alive = true)
    (ho : s'.owner = s.owner) (hr : s'.running = s.running) (hc : s'.created = s.created)
    (hended : s'.ended = s.ended) : Inv s' := by
  have hlast := hs.last ht
  have hnot := hs.not_joined ht
  refine ⟨fun u hu => ?_, fun u hu => ?_, fun u hu => ?_, fun hi hrun => ⟨t, ?_, ?_⟩, ?_, ?_, ?_,
    ?_, ?_⟩
  · rw [hc] at hu
    rw [hthread, update_of_ne (by omega)]
    exact hs.earlier u hu
  · rw [hc] at hu
    rw [hthread, update_of_ne (by omega)]
    exact hs.unborn u hu
  · rw [hc] at hu
    obtain rfl : u = t := by omega
    rwa [hthread, update_self]
  · rw [hc]
    exact hlast
  · rw [hthread, update_self]
    exact halive (hr ▸ hrun)
  · rw [ho, hr]
    exact fun hi hrun => absurd (hs.stopped hi hrun) hnot
  · rw [ho]
    exact fun hi => absurd (hs.starting hi).2 hnot
  · rw [ho]
    exact fun hi => absurd (hs.spawning hi).2 hnot
  · rw [ho, hr]
    exact hs.joining
  · rw [hended]
    exact hs.ended

theorem inv_step {s s' : State} {e : Event} (hs : Inv s) (h : step interval s e = some s') :
    Inv s' := by
  have halive : ∀ {t pc}, s.thread t = pc → pc.alive = true → (s.thread t).alive = true :=
    fun ht hpc => by rw [ht]; exact hpc
  have hinv := hs
  obtain ⟨hearlier, hunborn, hborn, hserving, hstopped, hstarting, hspawning, hjoining, hended⟩ :=
    hs
  cases move_of_step h with
  | elapse _ | startAgain _ _ =>
    exact ⟨hearlier, hunborn, hborn, hserving, hstopped, hstarting, hspawning, hjoining, hended⟩
  | startCall ho hr =>
    exact ⟨hearlier, hunborn, hborn, nofun, nofun, fun _ => ⟨hr, hstopped ho hr⟩, nofun, nofun,
      hended⟩
  | setRunning ho =>
    exact ⟨hearlier, hunborn, hborn, nofun, nofun, nofun, fun _ => ⟨rfl, (hstarting ho).2⟩, nofun,
      hended⟩
  | replace ho hc hj => exact absurd ((hspawning ho).2 (s.created - 1) (by omega)) hj
  | spawn ho _ =>
    refine ⟨fun t ht => ?_, fun t ht => ?_, fun t ht => ?_, fun _ _ => ⟨s.created, rfl, ?_⟩,
      fun _ hr => ?_, nofun, nofun, nofun, hended⟩
    · have hlt : t + 1 < s.created + 1 := ht
      show update s.thread s.created _ t = _
      rw [update_of_ne (by omega)]
      rcases Nat.lt_or_ge (t + 1) s.created with hlt' | hge
      · exact hearlier t hlt'
      · exact (hspawning ho).2 t (by omega)
    · have hle : s.created + 1 ≤ t := ht
      show update s.thread s.created _ t = _
      rw [update_of_ne (by omega)]
      exact hunborn t (by omega)
    · obtain rfl : t = s.created := Nat.succ.inj ht
      show update s.thread s.created _ s.created ≠ _
      rw [update_self]
      exact nofun
    · show (update s.thread s.created _ s.created).alive = true
      rw [update_self]
      rfl
    · exact absurd ((hspawning ho).1.symm.trans hr) nofun
  | stopCall ho =>
    exact ⟨hearlier, hunborn, hborn, nofun, nofun, nofun, nofun, fun _ => rfl, hended⟩
  | joinNothing ho hj =>
    refine ⟨hearlier, hunborn, hborn, fun _ hr => absurd ((hjoining ho).symm.trans hr) nofun,
      fun _ _ t ht => ?_, nofun, nofun, nofun, hended⟩
    have hcreated : t + 1 = s.created := ht
    rcases hj with hzero | hj
    · omega
    · rwa [← hcreated] at hj
  | join ho hc ht =>
    refine ⟨fun t hlt => ?_, fun t hle => ?_, fun t heq => ?_,
      fun _ hr => absurd ((hjoining ho).symm.trans hr) nofun, fun _ _ t heq => ?_, nofun, nofun,
      nofun, hended⟩
    · have hlt' : t + 1 < s.created := hlt
      show update s.thread (s.created - 1) _ t = _
      rw [update_of_ne (by omega)]
      exact hearlier t hlt'
    · have hle' : s.created ≤ t := hle
      show update s.thread (s.created - 1) _ t = _
      rw [update_of_ne (by omega)]
      exact hunborn t hle'
    · obtain rfl : t = s.created - 1 := Nat.eq_sub_of_add_eq heq
      show update s.thread (s.created - 1) _ (s.created - 1) ≠ _
      rw [update_self]
      exact nofun
    · obtain rfl : t = s.created - 1 := Nat.eq_sub_of_add_eq heq
      exact update_self ..
  | throw ht => exact ⟨hearlier, hunborn, hborn, hserving, hstopped, hstarting, hspawning, hjoining,
      nofun⟩
  | enter ht _ => exact inv_thread hinv (halive ht rfl) rfl nofun (fun _ => rfl) rfl rfl rfl rfl
  | leave ht hr =>
    exact inv_thread hinv (halive ht rfl) rfl nofun
      (fun hr' => absurd (hr.symm.trans hr') nofun) rfl rfl rfl rfl
  | pushed ht | sleep ht _ _ | waited ht _ | wake ht _ =>
    exact inv_thread hinv (halive ht rfl) rfl nofun (fun _ => rfl) rfl rfl rfl rfl

theorem inv_run {s s' : State} {es : List Event} (h : run (step interval) s es = some s')
    (hs : Inv s) : Inv s' :=
  run_invariant (fun _ _ _ => inv_step) h hs

/-- **One push thread at a time.**  In every reachable state, whatever calls of `Start` and `Stop`
the owner has made and however its thread and the push threads were scheduled: no thread object has
been replaced while it was joinable, at most one thread runs `PushLoop`, one does when the last
call was a `Start`, and none is left when it was a `Stop` or there was none. -/
theorem pusher_safe (interval : ℤ) {es : List Event} {s : State}
    (h : run (step interval) init es = some s) :
    s.ended ≠ some .replaced ∧
      (∀ t t', (s.thread t).alive = true → (s.thread t').alive = true → t = t') ∧
      (s.owner = .idle → s.running = true → ∃ t, (s.thread t).alive = true) ∧
      (s.owner = .idle → s.running = false →
        ∀ t, s.thread t = .unborn ∨ s.thread t = .joined) := by
  have hs := inv_run h inv_init
  refine ⟨hs.ended, fun t t' ht ht' => ?_, fun ho hr => ?_, fun ho hr t => ?_⟩
  · have hlast := hs.last ht
    have hlast' := hs.last ht'
    omega
  · obtain ⟨t, -, ht⟩ := hs.serving ho hr
    exact ⟨t, ht⟩
  · rcases Nat.lt_trichotomy (t + 1) s.created with hlt | heq | hgt
    · exact .inr (hs.earlier t hlt)
    · exact .inr (hs.stopped ho hr t heq)
    · exact .inl (hs.unborn t (by omega))

/-- `Start`, and the first `PushOnce`, which ends at once. -/
def firstPush : List Event :=
  [.startCall, .setRunning, .spawn, .test 0, .pushed 0, .wait 0]

theorem pusher_safe_firstPush : ∃ s, run (step 10) init firstPush = some s ∧
    ∀ t t', (s.thread t).alive = true → (s.thread t').alive = true → t = t' := by
  obtain ⟨s, hs⟩ := Option.isSome_iff_exists.1
    (show (run (step 10) init firstPush).isSome = true from rfl)
  exact ⟨s, hs, (pusher_safe 10 hs).2.1⟩

/-! ### The moments at which a report is collected -/

/-- The moment at which thread `t` has last begun `PushOnce` lies at least `ms` milliseconds before
`time`. -/
def Since (s : State) (t : ℕ) (ms : ℤ) (time : ℕ) : Prop :=
  ∀ b ∈ (s.begun t).head?, (b : ℤ) + ms ≤ time

/-- How long ago the last `PushOnce` of thread `t` began, by where the thread is. -/
def Paced (interval : ℤ) (s : State) (t : ℕ) : ThreadPc → Prop
  | .pushing => Since s t 0 s.now
  | .waitTest i => Since s t (1000 * i) s.now
  | .sleeping i wakeAt => Since s t (1000 * (i + 1)) wakeAt ∧ wakeAt ≤ s.now + 1000
  | .loopTest => s.running = true → Since s t (1000 * interval) s.now
  | .unborn => s.begun t = []
  | .returned | .joined => True

/-- `later` is at least the interval after `earlier`. -/
def Spaced (interval : ℤ) (later earlier : ℕ) : Prop := (earlier : ℤ) + 1000 * interval ≤ later

/-- The pace of every thread. -/
structure Pace (interval : ℤ) (s : State) : Prop where
  paced : ∀ t, Paced interval s t (s.thread t)
  spaced : ∀ t, (s.begun t).IsChain (Spaced interval)

theorem Since.mono {s : State} {t : ℕ} {ms ms' : ℤ} {time time' : ℕ} (h : Since s t ms time)
    (hms : ms' - ms ≤ (time' : ℤ) - time) : Since s t ms' time' := fun b hb => by
  have hle := h b hb
  omega

theorem pace_init (interval : ℤ) : Pace interval init where
  paced _ := rfl
  spaced _ := List.isChain_nil

/-- A step of thread `t` that begins nothing. -/
theorem pace_thread {s s' : State} {t : ℕ} {pc : ThreadPc} (hs : Pace interval s)
    (hthread : s'.thread = update s.thread t pc) (hnow : s'.now = s.now)
    (hr : s'.running = s.running) (hbegun : s'.begun = s.begun)
    (hpc : Paced interval s t pc) : Pace interval s' := by
  have hsame : ∀ u pc', Paced interval s u pc' → Paced interval s' u pc' := by
    intro u pc' hu
    cases pc' <;> simp only [Paced, Since, hnow, hr, hbegun] at hu ⊢ <;> exact hu
  refine ⟨fun u => ?_, fun u => ?_⟩
  · rw [hthread]
    by_cases hu : u = t
    · subst hu
      rw [update_self]
      exact hsame _ _ hpc
    · rw [update_of_ne hu]
      exact hsame _ _ (hs.paced u)
  · rw [hbegun]
    exact hs.spaced u

/-- A step of the owner or of the clock. -/
theorem pace_owner {s s' : State} (hs : Pace interval s)
    (hthread : s'.thread = s.thread) (hnow : s.now ≤ s'.now)
    (hr : s'.running = true → s.running = true ∨ ∀ t, s.thread t ≠ .loopTest)
    (hbegun : s'.begun = s.begun) : Pace interval s' := by
  refine ⟨fun t => ?_, fun t => ?_⟩
  · have ht := hs.paced t
    have hsince : ∀ {ms time}, Since s t ms time → Since s' t ms time := by
      intro ms time
      simp only [Since, hbegun]
      exact id
    rw [hthread]
    cases hpc : s.thread t with
    | unborn =>
      rw [hpc] at ht
      exact (congrFun hbegun t).trans ht
    | loopTest =>
      rw [hpc] at ht
      intro hr'
      rcases hr hr' with hrun | hne
      · exact hsince ((ht hrun).mono (by omega))
      · exact absurd hpc (hne t)
    | pushing =>
      rw [hpc] at ht
      exact hsince (ht.mono (by omega))
    | waitTest i =>
      rw [hpc] at ht
      exact hsince (ht.mono (by omega))
    | sleeping i wakeAt =>
      rw [hpc] at ht
      exact ⟨hsince ht.1, ht.2.trans (by omega)⟩
    | returned | joined => trivial
  · rw [hbegun]
    exact hs.spaced t

theorem pace_step {s s' : State} {e : Event} (hinv : Inv s) (hs : Pace interval s)
    (h : step interval s e = some s') : Pace interval s' := by
  have hpaced : ∀ {t pc}, s.thread t = pc → Paced interval s t pc := by
    rintro t pc rfl
    exact hs.paced t
  cases move_of_step h with
  | elapse ms => exact pace_owner hs rfl (Nat.le_add_right _ _) .inl rfl
  | startAgain _ _ => exact hs
  | startCall _ _ | replace _ _ _ | joinNothing _ _ | throw _ =>
    exact pace_owner hs rfl le_rfl .inl rfl
  | stopCall _ => exact pace_owner hs rfl le_rfl nofun rfl
  | setRunning ho =>
    refine pace_owner hs rfl le_rfl (fun _ => .inr fun t ht => ?_) rfl
    exact hinv.not_joined (t := t) (by rw [ht]; rfl) (hinv.starting ho).2
  | spawn ho _ =>
    refine pace_thread (s := { s with owner := .idle, created := s.created + 1 })
      ⟨hs.paced, hs.spaced⟩ rfl rfl rfl rfl fun _ b hb => ?_
    have hnil : s.begun s.created = [] := hpaced (hinv.unborn _ le_rfl)
    simp [hnil] at hb
  | join _ _ _ => exact pace_thread hs rfl rfl rfl rfl trivial
  | leave _ _ => exact pace_thread hs rfl rfl rfl rfl trivial
  | pushed ht =>
    refine pace_thread hs rfl rfl rfl rfl ?_
    exact (hpaced ht).mono (by omega)
  | sleep ht _ _ =>
    refine pace_thread hs rfl rfl rfl rfl ⟨?_, le_rfl⟩
    exact (hpaced ht).mono (by push_cast; omega)
  | waited ht hi =>
    refine pace_thread hs rfl rfl rfl rfl fun hr => ?_
    have hle := hi.resolve_right (by simp [hr])
    exact (hpaced ht).mono (by omega)
  | wake ht hw =>
    refine pace_thread hs rfl rfl rfl rfl ?_
    exact (hpaced ht).1.mono (by push_cast; omega)
  | @enter t ht hr =>
    refine ⟨fun u => ?_, fun u => ?_⟩
    · show Paced interval _ u (update s.thread t .pushing u)
      by_cases hu : u = t
      · subst hu
        rw [update_self]
        intro b hb
        simp at hb
        simp [hb]
      · rw [update_of_ne hu]
        have hpace := hs.paced u
        cases hpc : s.thread u <;> rw [hpc] at hpace <;>
          simp only [Paced, Since, update_of_ne hu] at hpace ⊢ <;> exact hpace
    · show (update s.begun t (s.now :: s.begun t) u).IsChain _
      by_cases hu : u = t
      · subst hu
        rw [update_self, List.isChain_cons]
        exact ⟨hpaced ht hr, hs.spaced u⟩
      · rw [update_of_ne hu]
        exact hs.spaced u

theorem pace_run {s s' : State} {es : List Event} (h : run (step interval) s es = some s')
    (hinv : Inv s) (hs : Pace interval s) : Pace interval s' :=
  (run_invariant (I := fun u => Inv u ∧ Pace interval u)
    (fun _ _ _ hu hstep => ⟨inv_step hu.1 hstep, pace_step hu.1 hu.2 hstep⟩) h ⟨hinv, hs⟩).2

/-- **The interval is kept.**  In every run, whatever calls of `Start` and `Stop` are made in it and
however long `PushOnce` takes, two reports that a thread collects one after the other are at least
`interval_seconds_` seconds apart. -/
theorem pushes_spaced (interval : ℤ) {es : List Event} {s : State}
    (h : run (step interval) init es = some s) (t : ℕ) :
    (s.begun t).IsChain (Spaced interval) :=
  (pace_run h inv_init (pace_init interval)).spaced t

/-- Two reports, with an interval of one second. -/
def twoPushes : List Event :=
  firstPush ++ [.elapse 1000, .wake 0, .wait 0, .test 0]

theorem pushes_spaced_twoPushes : ∃ s, run (step 1) init twoPushes = some s ∧
    s.begun 0 = [1000, 0] ∧ (s.begun 0).IsChain (Spaced 1) := by
  have h : (run (step 1) init twoPushes).map (·.begun 0) = some [1000, 0] := by decide
  obtain ⟨s, hs, hbegun⟩ := Option.map_eq_some_iff.1 h
  exact ⟨s, hs, hbegun, pushes_spaced 1 hs 0⟩

/-! ### `Stop` -/

/-- The steps that a push thread still takes when `running_` is false. -/
def ThreadPc.stepsLeft : ThreadPc → ℕ
  | .pushing => 3
  | .sleeping _ _ => 3
  | .waitTest _ => 2
  | .loopTest => 1
  | .unborn | .returned | .joined => 0

/-- The steps that `Stop` and the thread that it waits for still take. -/
def stopStepsLeft (s : State) : ℕ :=
  if s.owner = .joining ∧ s.ended = none then (s.thread (s.created - 1)).stepsLeft + 1 else 0

/-- Any event but the passing of time. -/
def Event.isStep : Event → Bool
  | .elapse _ => false
  | _ => true

/-- A step that a thread takes without an answer from elsewhere: time does not pass in it, and no
`PushOnce` ends. -/
def Event.isOwn : Event → Bool
  | .elapse _ | .pushed _ | .throw _ => false
  | _ => true

/-- Every step but the passing of time shortens `Stop`, and nothing is collected. -/
theorem stopStepsLeft_step {s s' : State} {e : Event} (hs : Inv s) (ho : s.owner = .joining)
    (h : step interval s e = some s') :
    stopStepsLeft s' + e.isStep.toNat ≤ stopStepsLeft s ∧ s'.begun = s.begun := by
  have hr := hs.joining ho
  have hended := ended_eq_none_of_step h
  have hnow : stopStepsLeft s = (s.thread (s.created - 1)).stepsLeft + 1 := if_pos ⟨ho, hended⟩
  -- the thread moves on
  have hthread : ∀ {t pc pc'}, s.thread t = pc → pc.alive = true → s'.owner = s.owner →
      s'.ended = s.ended → s'.created = s.created → s'.thread = update s.thread t pc' →
      pc'.stepsLeft + 1 ≤ pc.stepsLeft → stopStepsLeft s' + 1 ≤ stopStepsLeft s := by
    intro t pc pc' ht halive howner hend hcreated hupd hlt
    have hlast := hs.last (t := t) (by rw [ht]; exact halive)
    obtain rfl : t = s.created - 1 := by omega
    rw [hnow, ht, stopStepsLeft, if_pos ⟨howner.trans ho, hend.trans hended⟩, hcreated, hupd,
      update_self]
    omega
  cases move_of_step h with
  | startAgain ho' _ | startCall ho' _ | setRunning ho' | replace ho' _ _ | spawn ho' _
  | stopCall ho' => exact absurd (ho'.symm.trans ho) nofun
  | enter _ hr' | sleep _ _ hr' => exact absurd (hr'.symm.trans hr) nofun
  | elapse _ => exact ⟨le_rfl, rfl⟩
  | joinNothing _ _ | join _ _ _ =>
    refine ⟨?_, rfl⟩
    rw [hnow, stopStepsLeft, if_neg nofun]
    simp [Event.isStep]
  | throw ht =>
    refine ⟨?_, rfl⟩
    rw [hnow, stopStepsLeft, if_neg nofun]
    simp [Event.isStep]
  | leave ht _ | pushed ht | waited ht _ | wake ht _ =>
    exact ⟨hthread ht rfl rfl rfl rfl rfl le_rfl, rfl⟩

/-- Outside `PushOnce`, the thread that `Stop` waits for, or `Stop` itself, can move after at most a
second. -/
theorem exists_stop_step {s : State} (hs : Inv s) (hpace : Pace interval s)
    (ho : s.owner = .joining) (hended : s.ended = none)
    (hpushing : s.thread (s.created - 1) ≠ .pushing) :
    ∃ ms ≤ 1000, ∃ u, step interval s (.elapse ms) = some u ∧
      ∃ e, e.isOwn = true ∧ (step interval u e).isSome := by
  have hr := hs.joining ho
  have helapse : ∀ ms, step interval s (.elapse ms) = some { s with now := s.now + ms } := by
    intro ms
    simp [step, move, hended]
  -- nothing to wait for
  have hready : ∀ e, e.isOwn = true → (step interval { s with now := s.now + 0 } e).isSome →
      ∃ ms ≤ 1000, ∃ u, step interval s (.elapse ms) = some u ∧
        ∃ e, e.isOwn = true ∧ (step interval u e).isSome :=
    fun e he hstep => ⟨0, Nat.zero_le _, _, helapse 0, e, he, hstep⟩
  by_cases hcreated : s.created = 0
  · exact hready .join rfl (by simp [step, move, hended, ho, hcreated])
  have hpaced := hpace.paced (s.created - 1)
  cases ht : s.thread (s.created - 1) with
  | unborn => exact absurd ht (hs.born _ (by omega))
  | pushing => exact absurd ht hpushing
  | loopTest =>
    exact hready (.test (s.created - 1)) rfl (by simp [step, move, hended, ht, hr])
  | waitTest i => exact hready (.wait (s.created - 1)) rfl (by simp [step, move, hended, ht, hr])
  | returned => exact hready .join rfl (by simp [step, move, hended, ho, hcreated, ht])
  | joined => exact hready .join rfl (by simp [step, move, hended, ho, ht])
  | sleeping i wakeAt =>
    rw [ht] at hpaced
    refine ⟨wakeAt - s.now, ?_, _, helapse _, .wake (s.created - 1), rfl, ?_⟩
    · have hle := hpaced.2
      omega
    · have hle : wakeAt ≤ s.now + (wakeAt - s.now) := by omega
      simp [step, move, hended, ht, hle]

/-- While the thread is in `PushOnce`, `Stop` does not return. -/
theorem join_eq_none_of_pushing {s : State} (hs : Inv s)
    (hpushing : s.thread (s.created - 1) = .pushing) : step interval s .join = none := by
  have hlast := hs.last (t := s.created - 1) (by rw [hpushing]; rfl)
  have hcreated : s.created ≠ 0 := by omega
  simp [step, move, hcreated, hpushing]

/-- **`Stop` waits for the RPC at most.**  In every reachable state in which a call of `Stop` has
not returned: unless the push thread is inside `PushOnce` or an exception has ended the process, it
or `Stop` can move within a second by a step of its own; while it is inside `PushOnce`, `Stop`
cannot return; and in every continuation during which `Stop` does not return they take at most four
steps between them, none of which begins another report. -/
theorem stop_waits_for_push (interval : ℤ) {es₀ : List Event} {s : State}
    (hs : run (step interval) init es₀ = some s) (ho : s.owner = .joining) :
    (s.ended = none → s.thread (s.created - 1) ≠ .pushing →
      ∃ ms ≤ 1000, ∃ u, step interval s (.elapse ms) = some u ∧
        ∃ e, e.isOwn = true ∧ (step interval u e).isSome) ∧
      (s.thread (s.created - 1) = .pushing → step interval s .join = none) ∧
      ∀ es s', run (step interval) s es = some s' →
        Along (step interval) (fun t _ => t.owner = .joining) s es →
        es.countP (·.isStep) ≤ 4 ∧ s'.begun = s.begun := by
  have hinv := inv_run hs inv_init
  refine ⟨exists_stop_step hinv (pace_run hs inv_init (pace_init interval)) ho,
    join_eq_none_of_pushing hinv, fun es s' hrun hwithin => ⟨?_, ?_⟩⟩
  · have hcount := rank_add_count_le (I := Inv) stopStepsLeft (·.isStep)
      (fun _ _ _ ht ho' hstep => ⟨inv_step ht hstep, (stopStepsLeft_step ht ho' hstep).1⟩)
      hrun hwithin hinv
    have hle : stopStepsLeft s ≤ 4 := by
      unfold stopStepsLeft
      cases s.thread (s.created - 1) <;> simp only [ThreadPc.stepsLeft] <;> split_ifs <;> omega
    omega
  · exact (run_invariant_along (I := fun t => Inv t ∧ t.begun = s.begun)
      (fun _ _ _ ht ho' hstep => ⟨inv_step ht.1 hstep,
        (stopStepsLeft_step ht.1 ho' hstep).2.trans ht.2⟩) hrun hwithin ⟨hinv, rfl⟩).2

/-- `Stop` finds the thread asleep, and then, in a second run, inside `PushOnce`. -/
theorem stop_waits_for_push_firstPush :
    (∃ s, run (step 10) init (firstPush ++ [.stopCall]) = some s ∧
      ∃ ms ≤ 1000, ∃ u, step 10 s (.elapse ms) = some u ∧
        ∃ e, e.isOwn = true ∧ (step 10 u e).isSome) ∧
    ∃ s, run (step 10) init (firstPush.take 4 ++ [.stopCall]) = some s ∧
      step 10 s .join = none := by
  have h : (run (step 10) init (firstPush ++ [.stopCall])).map
      (fun s => (s.owner, s.ended, s.thread (s.created - 1))) =
      some (.joining, none, .sleeping 0 1000) := by decide
  have h' : (run (step 10) init (firstPush.take 4 ++ [.stopCall])).map
      (fun s => (s.owner, s.thread (s.created - 1))) = some (.joining, .pushing) := by decide
  obtain ⟨s, hs, heq⟩ := Option.map_eq_some_iff.1 h
  obtain ⟨s', hs', heq'⟩ := Option.map_eq_some_iff.1 h'
  simp only [Prod.mk.injEq] at heq heq'
  exact ⟨⟨s, hs, (stop_waits_for_push 10 hs heq.1).1 heq.2.1 (by rw [heq.2.2]; nofun)⟩,
    s', hs', (stop_waits_for_push 10 hs' heq'.1).2.1 heq'.2⟩

end MonitorPusher

end MonitorSystem
