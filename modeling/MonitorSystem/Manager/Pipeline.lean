import MonitorSystem.Library.Transition
import MonitorSystem.Manager.Identity
import MonitorSystem.Manager.SafeQueue

/-!
# `HostManager`: threads, queues and the life cycle

The threads of the manager as one transition system:

* the *owner*, the thread that constructs the manager and calls `Start` and `Stop`;
* the *consumers*, thread `i` running `ConsumeMessage(i)` on queue `i`;
* the *cleaner*, the thread that `Start` creates for `ProcessLoop`;
* the *producers*, the threads that call `OnDataReceived`; call `c` carries the report
  `cfg.report c`, and a queue holds calls in place of the reports they carry.

Each event is one atomic step of one thread: a read or write of the atomic flag `running_`, one
critical section of a queue, or the return of a call.  `step` is executable; `Move` lists what
each event can do, branch by branch, and `move_of_step` is the inversion that every invariant
proof starts from.

`handled`, `pushed` and the three flags at the end of the state are history: no step reads them.
-/

namespace MonitorSystem

namespace Pipeline

variable {F : Type}

/-- What an execution is parameterized by: the hash function, the `thread_count` given to the
constructor, and the report that each call of `OnDataReceived` carries. -/
structure Config (F : Type) where
  hash : String → ℕ
  requested : ℕ
  report : ℕ → MonitorInfo F

/-- `thread_count_` after the constructor has replaced a count below one. -/
def Config.threadCount (cfg : Config F) : ℕ := if cfg.requested < 1 then 1 else cfg.requested

theorem Config.threadCount_pos (cfg : Config F) : 0 < cfg.threadCount := by
  unfold Config.threadCount
  split_ifs <;> omega

/-- The queue of a call's report, once the manager is constructed. -/
def Config.route (cfg : Config F) (c : ℕ) : Option ℕ :=
  routeIndex cfg.hash cfg.threadCount cfg.threadCount (cfg.report c)

/-- Where the thread that owns the manager is. -/
inductive OwnerPc
  /-- in the constructor's loop -/
  | constructing
  /-- outside the manager's member functions -/
  | idle
  /-- in `Start`, after `running_ = true` -/
  | starting
  /-- in `Stop`, before `if (!running_) return;` -/
  | stopTest
  /-- in `Stop`, about to stop queue `i` -/
  | stopping (i : ℕ)
  /-- in `Stop`, about to join consumer `i` -/
  | joining (i : ℕ)
  /-- in `Stop`, about to join the cleaner -/
  | joiningCleaner
  deriving DecidableEq

/-- Where a consumer thread is. -/
inductive ConsumerPc
  /-- not created yet -/
  | unborn
  /-- about to evaluate `while (running_)` -/
  | loopTest
  /-- inside `Pop` -/
  | popping
  /-- inside `ProcessData`, with the report of call `c` -/
  | processing (c : ℕ)
  /-- `ConsumeMessage` has returned -/
  | returned
  /-- returned, and joined by `Stop` -/
  | joined
  deriving DecidableEq

/-- The thread object `thread_`. -/
inductive CleanerPc
  | absent
  | looping
  | returned
  | joined
  deriving DecidableEq

/-- `joinable()`: a thread object that has been started and not joined. -/
def CleanerPc.joinable : CleanerPc → Bool
  | .looping | .returned => true
  | .absent | .joined => false

/-- Where a call of `OnDataReceived` is. -/
inductive CallPc
  | pending
  | begun
  | pushed
  | returned
  deriving DecidableEq

/-- A state of the manager and of the threads around it. -/
structure State where
  queuesSize : ℕ := 0
  queue : ℕ → SafeQueue ℕ := fun _ => {}
  running : Bool := false
  owner : OwnerPc := .constructing
  consumer : ℕ → ConsumerPc := fun _ => .unborn
  cleaner : CleanerPc := .absent
  call : ℕ → CallPc := fun _ => .pending
  terminated : Bool := false
  /-- the calls whose report consumer `i` has processed, oldest first -/
  handled : ℕ → List ℕ := fun _ => []
  /-- the calls that have pushed, oldest first -/
  pushed : List ℕ := []
  startReturned : Bool := false
  stopCalled : Bool := false
  stopReturned : Bool := false

/-- One atomic step of one thread. -/
inductive Event
  /-- constructor: create queue and consumer, one turn of the loop -/
  | spawn
  /-- constructor: leave the loop and return -/
  | constructed
  /-- `Start`: `running_ = true` -/
  | setRunning
  /-- `Start`: create the cleaner and return -/
  | spawnCleaner
  /-- call `Stop` -/
  | stopCall
  /-- `Stop`: `if (!running_) return; running_ = false` -/
  | clearRunning
  /-- `Stop`: stop the next queue -/
  | stopQueue
  /-- `Stop`: join the next consumer -/
  | join
  /-- `Stop`: join the cleaner and return -/
  | joinCleaner
  /-- cleaner: one turn of `ProcessLoop` -/
  | cleanerTurn
  /-- call `c` of `OnDataReceived` begins -/
  | begin (c : ℕ)
  /-- call `c` pushes its report -/
  | push (c : ℕ)
  /-- call `c` returns -/
  | ret (c : ℕ)
  /-- consumer `i` evaluates `while (running_)` -/
  | test (i : ℕ)
  /-- consumer `i` completes `Pop` -/
  | pop (i : ℕ)
  /-- consumer `i` returns from `ProcessData` -/
  | done (i : ℕ)

open Function (update)

/-- The effect of an event on a process that has not been terminated. -/
def move (cfg : Config F) (s : State) : Event → Option State
  | .spawn =>
    if s.owner = .constructing ∧ s.queuesSize < cfg.threadCount then
      -- the queue pushed back is empty, as every queue beyond `queuesSize` is
      some { s with
        queuesSize := s.queuesSize + 1
        consumer := update s.consumer s.queuesSize .loopTest }
    else none
  | .constructed =>
    if s.owner = .constructing ∧ s.queuesSize = cfg.threadCount then
      some { s with owner := .idle }
    else none
  | .setRunning =>
    if s.owner = .idle then some { s with running := true, owner := .starting } else none
  | .spawnCleaner =>
    if s.owner = .starting then
      -- assigning to `thread_` destroys the old thread object
      if s.cleaner.joinable then some { s with terminated := true }
      else some { s with cleaner := .looping, owner := .idle, startReturned := true }
    else none
  | .stopCall =>
    if s.owner = .idle then some { s with owner := .stopTest, stopCalled := true } else none
  | .clearRunning =>
    if s.owner = .stopTest then
      if s.running then some { s with running := false, owner := .stopping 0 }
      else some { s with owner := .idle, stopReturned := true }
    else none
  | .stopQueue =>
    match s.owner with
    | .stopping i =>
      if i < s.queuesSize then
        some { s with queue := update s.queue i (s.queue i).stopped, owner := .stopping (i + 1) }
      else some { s with owner := .joining 0 }
    | _ => none
  | .join =>
    match s.owner with
    | .joining i =>
      if i < s.queuesSize then
        match s.consumer i with
        | .returned =>
          some { s with consumer := update s.consumer i .joined, owner := .joining (i + 1) }
        | .joined => some { s with owner := .joining (i + 1) }
        | _ => none
      else some { s with owner := .joiningCleaner }
    | _ => none
  | .joinCleaner =>
    if s.owner = .joiningCleaner then
      match s.cleaner with
      | .looping => none
      | .returned =>
        some { s with cleaner := .joined, owner := .idle, stopReturned := true }
      | .absent | .joined => some { s with owner := .idle, stopReturned := true }
    else none
  | .cleanerTurn =>
    if s.cleaner = .looping then
      if s.running then some s else some { s with cleaner := .returned }
    else none
  | .begin c =>
    if s.call c = .pending ∧ s.owner ≠ .constructing then
      some { s with call := update s.call c .begun }
    else none
  | .push c =>
    if s.call c = .begun then
      match routeIndex cfg.hash cfg.threadCount s.queuesSize (cfg.report c) with
      | some i =>
        some { s with
          queue := update s.queue i ((s.queue i).push c)
          call := update s.call c .pushed
          pushed := s.pushed ++ [c] }
      | none => some { s with call := update s.call c .pushed }
    else none
  | .ret c =>
    if s.call c = .pushed then some { s with call := update s.call c .returned } else none
  | .test i =>
    if s.consumer i = .loopTest then
      some { s with consumer := update s.consumer i (if s.running then .popping else .returned) }
    else none
  | .pop i =>
    if s.consumer i = .popping then
      match (s.queue i).pop with
      | none => none
      | some (none, q) =>
        some { s with queue := update s.queue i q, consumer := update s.consumer i .loopTest }
      | some (some c, q) =>
        some { s with
          queue := update s.queue i q
          consumer := update s.consumer i (.processing c) }
    else none
  | .done i =>
    match s.consumer i with
    | .processing c =>
      some { s with
        consumer := update s.consumer i .loopTest
        handled := update s.handled i (s.handled i ++ [c]) }
    | _ => none

/-- One step; a terminated process takes none. -/
def step (cfg : Config F) (s : State) (e : Event) : Option State :=
  if s.terminated then none else move cfg s e

/-- Before the constructor's loop. -/
def init : State := {}

/-- After `Start`, with every consumer inside `Pop` and no call begun. -/
def live (cfg : Config F) : State where
  queuesSize := cfg.threadCount
  running := true
  owner := .idle
  consumer i := if i < cfg.threadCount then .popping else .unborn
  cleaner := .looping
  startReturned := true

/-! ### What a step can do -/

/-- The branches of `move`, one constructor each. -/
inductive Move (cfg : Config F) (s : State) : Event → State → Prop
  | spawn (ho : s.owner = .constructing) (hlt : s.queuesSize < cfg.threadCount) :
      Move cfg s .spawn { s with
        queuesSize := s.queuesSize + 1
        consumer := update s.consumer s.queuesSize .loopTest }
  | constructed (ho : s.owner = .constructing) (hsize : s.queuesSize = cfg.threadCount) :
      Move cfg s .constructed { s with owner := .idle }
  | setRunning (ho : s.owner = .idle) :
      Move cfg s .setRunning { s with running := true, owner := .starting }
  | spawnCleaner (ho : s.owner = .starting) (hc : s.cleaner.joinable = false) :
      Move cfg s .spawnCleaner
        { s with cleaner := .looping, owner := .idle, startReturned := true }
  | terminate (ho : s.owner = .starting) (hc : s.cleaner.joinable = true) :
      Move cfg s .spawnCleaner { s with terminated := true }
  | stopCall (ho : s.owner = .idle) :
      Move cfg s .stopCall { s with owner := .stopTest, stopCalled := true }
  | clearRunning (ho : s.owner = .stopTest) (hr : s.running = true) :
      Move cfg s .clearRunning { s with running := false, owner := .stopping 0 }
  | stopEarly (ho : s.owner = .stopTest) (hr : s.running = false) :
      Move cfg s .clearRunning { s with owner := .idle, stopReturned := true }
  | stopQueue {i : ℕ} (ho : s.owner = .stopping i) (hi : i < s.queuesSize) :
      Move cfg s .stopQueue { s with
        queue := update s.queue i (s.queue i).stopped, owner := .stopping (i + 1) }
  | queuesStopped {i : ℕ} (ho : s.owner = .stopping i) (hi : ¬ i < s.queuesSize) :
      Move cfg s .stopQueue { s with owner := .joining 0 }
  | join {i : ℕ} (ho : s.owner = .joining i) (hi : i < s.queuesSize)
      (hc : s.consumer i = .returned) :
      Move cfg s .join { s with
        consumer := update s.consumer i .joined, owner := .joining (i + 1) }
  | joinSkip {i : ℕ} (ho : s.owner = .joining i) (hi : i < s.queuesSize)
      (hc : s.consumer i = .joined) : Move cfg s .join { s with owner := .joining (i + 1) }
  | allJoined {i : ℕ} (ho : s.owner = .joining i) (hi : ¬ i < s.queuesSize) :
      Move cfg s .join { s with owner := .joiningCleaner }
  | joinCleaner (ho : s.owner = .joiningCleaner) (hc : s.cleaner = .returned) :
      Move cfg s .joinCleaner
        { s with cleaner := .joined, owner := .idle, stopReturned := true }
  | joinCleanerSkip (ho : s.owner = .joiningCleaner) (hc : s.cleaner.joinable = false) :
      Move cfg s .joinCleaner { s with owner := .idle, stopReturned := true }
  | cleanerPass (hc : s.cleaner = .looping) (hr : s.running = true) : Move cfg s .cleanerTurn s
  | cleanerExit (hc : s.cleaner = .looping) (hr : s.running = false) :
      Move cfg s .cleanerTurn { s with cleaner := .returned }
  | begin {c : ℕ} (hc : s.call c = .pending) (ho : s.owner ≠ .constructing) :
      Move cfg s (.begin c) { s with call := update s.call c .begun }
  | push {c i : ℕ} (hc : s.call c = .begun)
      (hi : routeIndex cfg.hash cfg.threadCount s.queuesSize (cfg.report c) = some i) :
      Move cfg s (.push c) { s with
        queue := update s.queue i ((s.queue i).push c)
        call := update s.call c .pushed
        pushed := s.pushed ++ [c] }
  | pushNowhere {c : ℕ} (hc : s.call c = .begun)
      (hi : routeIndex cfg.hash cfg.threadCount s.queuesSize (cfg.report c) = none) :
      Move cfg s (.push c) { s with call := update s.call c .pushed }
  | ret {c : ℕ} (hc : s.call c = .pushed) :
      Move cfg s (.ret c) { s with call := update s.call c .returned }
  | enter {i : ℕ} (hi : s.consumer i = .loopTest) (hr : s.running = true) :
      Move cfg s (.test i) { s with consumer := update s.consumer i .popping }
  | leave {i : ℕ} (hi : s.consumer i = .loopTest) (hr : s.running = false) :
      Move cfg s (.test i) { s with consumer := update s.consumer i .returned }
  | popValue {i c : ℕ} {rest : List ℕ} (hi : s.consumer i = .popping)
      (hq : (s.queue i).queue = c :: rest) :
      Move cfg s (.pop i) { s with
        queue := update s.queue i { s.queue i with queue := rest }
        consumer := update s.consumer i (.processing c) }
  | popStopped {i : ℕ} (hi : s.consumer i = .popping) (hq : (s.queue i).queue = [])
      (hs : (s.queue i).stop = true) :
      Move cfg s (.pop i) { s with consumer := update s.consumer i .loopTest }
  | done {i c : ℕ} (hi : s.consumer i = .processing c) :
      Move cfg s (.done i) { s with
        consumer := update s.consumer i .loopTest
        handled := update s.handled i (s.handled i ++ [c]) }

/-- **Inversion.**  Whatever a step does is one of the moves. -/
theorem move_of_step {cfg : Config F} {s s' : State} {e : Event} (h : step cfg s e = some s') :
    Move cfg s e s' := by
  have h' : move cfg s e = some s' := by
    unfold step at h
    split_ifs at h
    exact h
  clear h
  cases e with
  | spawn =>
    simp only [move] at h'
    split_ifs at h' with hg
    cases h'
    exact .spawn hg.1 hg.2
  | constructed =>
    simp only [move] at h'
    split_ifs at h' with hg
    cases h'
    exact .constructed hg.1 hg.2
  | setRunning =>
    simp only [move] at h'
    split_ifs at h' with hg
    cases h'
    exact .setRunning hg
  | spawnCleaner =>
    simp only [move] at h'
    split_ifs at h' with hg hj
    · cases h'
      exact .terminate hg hj
    · cases h'
      exact .spawnCleaner hg (by simpa using hj)
  | stopCall =>
    simp only [move] at h'
    split_ifs at h' with hg
    cases h'
    exact .stopCall hg
  | clearRunning =>
    simp only [move] at h'
    split_ifs at h' with hg hr
    · cases h'
      exact .clearRunning hg hr
    · cases h'
      exact .stopEarly hg (by simpa using hr)
  | stopQueue =>
    simp only [move] at h'
    split at h'
    next i ho =>
      split_ifs at h' with hi
      · cases h'
        exact .stopQueue ho hi
      · cases h'
        exact .queuesStopped ho hi
    next => cases h'
  | join =>
    simp only [move] at h'
    split at h'
    next i ho =>
      split_ifs at h' with hi
      · split at h'
        next hc => cases h'; exact .join ho hi hc
        next hc => cases h'; exact .joinSkip ho hi hc
        next => cases h'
      · cases h'
        exact .allJoined ho hi
    next => cases h'
  | joinCleaner =>
    simp only [move] at h'
    split_ifs at h' with hg
    split at h'
    next => cases h'
    next hc => cases h'; exact .joinCleaner hg hc
    next hc => cases h'; exact .joinCleanerSkip hg (by rw [hc]; rfl)
    next hc => cases h'; exact .joinCleanerSkip hg (by rw [hc]; rfl)
  | cleanerTurn =>
    simp only [move] at h'
    split_ifs at h' with hg hr
    · cases h'
      exact .cleanerPass hg hr
    · cases h'
      exact .cleanerExit hg (by simpa using hr)
  | begin c =>
    simp only [move] at h'
    split_ifs at h' with hg
    cases h'
    exact .begin hg.1 hg.2
  | push c =>
    simp only [move] at h'
    split_ifs at h' with hg
    split at h'
    next i hi => cases h'; exact .push hg hi
    next hi => cases h'; exact .pushNowhere hg hi
  | ret c =>
    simp only [move] at h'
    split_ifs at h' with hg
    cases h'
    exact .ret hg
  | test i =>
    simp only [move] at h'
    split_ifs at h' with hg hr
    · cases h'
      exact .enter hg hr
    · cases h'
      exact .leave hg (by simpa using hr)
  | pop i =>
    simp only [move] at h'
    split_ifs at h' with hg
    split at h'
    next => cases h'
    next q hq =>
      obtain ⟨hnil, hstop, rfl⟩ := SafeQueue.pop_eq_some_none.1 hq
      cases h'
      rw [Function.update_eq_self]
      exact .popStopped hg hnil hstop
    next c q hq =>
      obtain ⟨rest, hcons, rfl⟩ := SafeQueue.pop_eq_some_some.1 hq
      cases h'
      exact .popValue hg hcons
  | done i =>
    simp only [move] at h'
    split at h'
    next c hc => cases h'; exact .done hc
    next => cases h'

end Pipeline

end MonitorSystem
