import MonitorSystem.Library.CondVar
import MonitorSystem.Library.Transition
import MonitorSystem.Manager.SafeQueue

/-!
# The condition variable of `SafeQueue`

`Manager/SafeQueue.lean` leaves a `Pop` whose predicate is false where it is.  Here the caller is
suspended on `cond_`, and it tests the predicate again when `Push` or `Stop` has notified it or
when it has woken up by itself, whereas a consumer that calls `Pop` in between takes the element
that another one was notified of.  Producers and consumers are any number; the bodies that run
under the mutex are atomic steps.
-/

namespace MonitorSystem

namespace WaitingConsumers

open Transition

variable {ι T : Type} [DecidableEq ι]

/-! ### The program -/

/-- A queue, the consumers inside `wait`, and, as history, what each call of `Pop` that has
returned delivered, oldest first; `none` stands for `false`. -/
structure State (ι T : Type) where
  queue : SafeQueue T := {}
  cond : CondVar ι := {}
  returned : List (ι × Option T) := []

/-- One atomic step of one thread. -/
inductive Event (ι T : Type)
  /-- a producer pushes `value`, and `notify_one` picks a consumer -/
  | push (value : T) (picked : Option ι)
  /-- consumer `i` calls `Pop` -/
  | enter (i : ι)
  /-- consumer `i`, notified or woken, goes on inside `wait` -/
  | recheck (i : ι)
  /-- consumer `i` wakes up by itself -/
  | spurious (i : ι)
  /-- the owner calls `Stop` -/
  | stop

/-- The body of `Pop` from the test of the predicate on. -/
def State.test (s : State ι T) (i : ι) : State ι T :=
  match s.queue.pop with
  | none => { s with cond := s.cond.wait i }
  | some (value, queue) =>
    { queue := queue, cond := s.cond.leave i, returned := s.returned ++ [(i, value)] }

/-- One step. -/
def step (s : State ι T) : Event ι T → Option (State ι T)
  | .push value picked =>
    (s.cond.notifyOne picked).map fun cond =>
      { s with queue := s.queue.push value, cond := cond }
  | .enter i => if i ∈ s.cond.waiting ∪ s.cond.runnable then none else some (s.test i)
  | .recheck i => if i ∈ s.cond.runnable then some (s.test i) else none
  | .spurious i => (s.cond.wake i).map fun cond => { s with cond := cond }
  | .stop => some { s with queue := s.queue.stopped, cond := s.cond.notifyAll }

/-- Before the first call. -/
def init : State ι T := {}

/-- The elements that were popped, oldest first. -/
def State.popped (s : State ι T) : List T := s.returned.filterMap Prod.snd

/-- The elements that the events of a run push, oldest first. -/
def pushed (es : List (Event ι T)) : List T :=
  es.filterMap fun
    | .push value _ => some value
    | _ => none

/-! ### What a step can do -/

/-- The branches of `step`, one constructor each. -/
inductive Move (s : State ι T) : Event ι T → State ι T → Prop
  | push {value : T} {picked : Option ι} {cond : CondVar ι}
      (hc : s.cond.notifyOne picked = some cond) :
      Move s (.push value picked) { s with queue := s.queue.push value, cond := cond }
  | suspend {e : Event ι T} {i : ι} (he : e = .enter i ∨ e = .recheck i)
      (hnil : s.queue.queue = []) (hstop : s.queue.stop = false) :
      Move s e { s with cond := s.cond.wait i }
  | take {e : Event ι T} {i : ι} {value : T} {rest : List T} (he : e = .enter i ∨ e = .recheck i)
      (hcons : s.queue.queue = value :: rest) :
      Move s e
        { queue := { s.queue with queue := rest }
          cond := s.cond.leave i
          returned := s.returned ++ [(i, some value)] }
  | fail {e : Event ι T} {i : ι} (he : e = .enter i ∨ e = .recheck i)
      (hnil : s.queue.queue = []) (hstop : s.queue.stop = true) :
      Move s e { s with cond := s.cond.leave i, returned := s.returned ++ [(i, none)] }
  | spurious {i : ι} {cond : CondVar ι} (hc : s.cond.wake i = some cond) :
      Move s (.spurious i) { s with cond := cond }
  | stop : Move s .stop { s with queue := s.queue.stopped, cond := s.cond.notifyAll }

theorem move_test {s : State ι T} {e : Event ι T} {i : ι} (he : e = .enter i ∨ e = .recheck i) :
    Move s e (s.test i) := by
  unfold State.test
  split
  next hpop =>
    obtain ⟨hnil, hstop⟩ := SafeQueue.pop_eq_none.1 hpop
    exact .suspend he hnil hstop
  next value queue hpop =>
    cases value with
    | none =>
      obtain ⟨hnil, hstop, rfl⟩ := SafeQueue.pop_eq_some_none.1 hpop
      exact .fail he hnil hstop
    | some value =>
      obtain ⟨rest, hcons, rfl⟩ := SafeQueue.pop_eq_some_some.1 hpop
      exact .take he hcons

/-- **Inversion.**  Whatever a step does is one of the moves. -/
theorem move_of_step {s s' : State ι T} {e : Event ι T} (h : step s e = some s') :
    Move s e s' := by
  cases e with
  | push value picked =>
    obtain ⟨cond, hc, rfl⟩ := Option.map_eq_some_iff.1 h
    exact .push hc
  | enter i =>
    simp only [step, Option.ite_none_left_eq_some, Option.some.injEq] at h
    obtain ⟨-, rfl⟩ := h
    exact move_test (.inl rfl)
  | recheck i =>
    simp only [step, Option.ite_none_right_eq_some, Option.some.injEq] at h
    obtain ⟨-, rfl⟩ := h
    exact move_test (.inr rfl)
  | spurious i =>
    obtain ⟨cond, hc, rfl⟩ := Option.map_eq_some_iff.1 h
    exact .spurious hc
  | stop =>
    cases h
    exact .stop

/-! ### No wake-up is lost -/

/-- Nobody is suspended on a stopped queue, and while somebody is suspended each element has a
notified consumer. -/
structure Awake (s : State ι T) : Prop where
  running : s.cond.waiting.Nonempty → s.queue.stop = false
  covers : s.cond.Covers s.queue.queue.length

omit [DecidableEq ι] in
theorem awake_init : Awake (init : State ι T) where
  running h := absurd h Finset.not_nonempty_empty
  covers := CondVar.covers_zero _

theorem awake_step {s s' : State ι T} {e : Event ι T} (hs : Awake s) (h : step s e = some s') :
    Awake s' := by
  obtain ⟨hrunning, hcovers⟩ := hs
  cases move_of_step h with
  | push hc =>
    refine ⟨fun hne => hrunning (hne.mono (CondVar.waiting_of_notifyOne hc)), ?_⟩
    rw [SafeQueue.queue_push, List.length_append]
    exact hcovers.notifyOne hc
  | suspend _ hnil hstop =>
    refine ⟨fun _ => hstop, ?_⟩
    rw [hnil]
    exact CondVar.covers_zero _
  | take _ hcons =>
    refine ⟨fun hne => hrunning (hne.mono (s.cond.waiting_leave _)), ?_⟩
    rw [hcons, List.length_cons] at hcovers
    exact hcovers.leave _
  | fail _ hnil _ =>
    refine ⟨fun hne => hrunning (hne.mono (s.cond.waiting_leave _)), ?_⟩
    rw [hnil]
    exact CondVar.covers_zero _
  | spurious hc =>
    exact ⟨fun hne => hrunning (hne.mono (CondVar.waiting_of_wake hc)), hcovers.wake hc⟩
  | stop =>
    -- `notify_all` leaves nobody suspended
    exact ⟨fun hne => absurd hne Finset.not_nonempty_empty,
      fun hne => absurd hne Finset.not_nonempty_empty⟩

/-! ### First in, first out -/

theorem fifo_step {s s' : State ι T} {e : Event ι T} (h : step s e = some s') :
    s'.popped ++ s'.queue.queue = s.popped ++ s.queue.queue ++ pushed [e] := by
  have hother : ∀ {i}, e = .enter i ∨ e = .recheck i → pushed [e] = [] := by
    rintro i (rfl | rfl) <;> rfl
  cases move_of_step h with
  | push _ =>
    rw [SafeQueue.queue_push, ← List.append_assoc]
    rfl
  | suspend he _ _ => simp [State.popped, hother he]
  | take he hcons => simp [State.popped, hother he, hcons]
  | fail he _ _ => simp [State.popped, hother he]
  | spurious _ => exact (List.append_nil _).symm
  | stop => exact (List.append_nil _).symm

theorem fifo_run {s s' : State ι T} {es : List (Event ι T)} (h : run step s es = some s') :
    s'.popped ++ s'.queue.queue = s.popped ++ s.queue.queue ++ pushed es := by
  induction es generalizing s with
  | nil =>
    cases h
    exact (List.append_nil _).symm
  | cons e es ih =>
    obtain ⟨t, ht, hrest⟩ := run_cons_eq_some.1 h
    have hsplit : pushed (e :: es) = pushed [e] ++ pushed es := List.filterMap_append (l := [e])
    rw [ih hrest, fifo_step ht, hsplit, List.append_assoc _ (pushed [e])]

/-! ### The result -/

/-- `Pop` returns `false` on an empty, stopped queue only. -/
theorem fail_step {s s' : State ι T} {e : Event ι T} {i : ι} (h : step s e = some s')
    (hret : s'.returned = s.returned ++ [(i, none)]) :
    s.queue.queue = [] ∧ s.queue.stop = true := by
  have hgrow : s.returned ≠ s.returned ++ [(i, none)] := by simp
  cases move_of_step h with
  | take _ _ => simp at hret
  | fail _ hnil hstop => exact ⟨hnil, hstop⟩
  | push _ | suspend _ _ _ | spurious _ | stop => exact absurd hret hgrow

/-- **No wake-up is lost.**  In every state that any number of producers and consumers reach:
while a consumer is suspended, the queue is not stopped and holds at most as many elements as
there are consumers that have been notified and not yet tested again; what was popped, followed
by what is queued, is what was pushed, in order; and a `Pop` that returns `false` finds the queue
stopped and empty. -/
theorem no_lost_wakeup {es : List (Event ι T)} {s : State ι T} (h : run step init es = some s) :
    (s.cond.waiting.Nonempty →
      s.queue.stop = false ∧ s.queue.queue.length ≤ s.cond.notified.card) ∧
    s.popped ++ s.queue.queue = pushed es ∧
    ∀ e s' i, step s e = some s' → s'.returned = s.returned ++ [(i, none)] →
      s.queue.stop = true ∧ s.queue.queue = [] := by
  have hawake : Awake s := run_invariant (fun _ _ _ => awake_step) h awake_init
  refine ⟨fun hne => ⟨hawake.running hne, hawake.covers hne⟩, fifo_run h, ?_⟩
  intro e s' i hstep hret
  exact (fail_step hstep hret).symm

/-- Two consumers wait, one is notified, and a newcomer takes the element.  The other one wakes up
by itself and waits again, and the next element finds the first one. -/
def stolen : List (Event ℕ ℕ) :=
  [.enter 0, .enter 1, .push 7 (some 0), .enter 2, .recheck 0, .spurious 1, .recheck 1,
    .push 8 (some 0)]

theorem no_lost_wakeup_stolen : ∃ s, run step init stolen = some s ∧
    s.cond.waiting = {1} ∧ s.queue.queue = [8] ∧
    (s.queue.stop = false ∧ s.queue.queue.length ≤ s.cond.notified.card) ∧
    s.popped ++ s.queue.queue = pushed stolen ∧
    ∀ e s' i, step s e = some s' → s'.returned = s.returned ++ [(i, none)] →
      s.queue.stop = true ∧ s.queue.queue = [] := by
  have hstate : (run step init stolen).map (fun s => (s.cond.waiting, s.queue.queue)) =
      some ({1}, [8]) := by
    decide
  obtain ⟨s, hrun, heq⟩ := Option.map_eq_some_iff.1 hstate
  obtain ⟨hwaiting, hqueue⟩ := Prod.mk.inj heq
  obtain ⟨hsuspended, hfifo, hfalse⟩ := no_lost_wakeup hrun
  refine ⟨s, hrun, hwaiting, hqueue, hsuspended ?_, hfifo, hfalse⟩
  rw [hwaiting]
  exact Finset.singleton_nonempty 1

end WaitingConsumers

end MonitorSystem
