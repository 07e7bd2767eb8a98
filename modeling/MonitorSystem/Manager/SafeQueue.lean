import Mathlib.Tactic

/-!
# `SafeQueue`

The bodies of `Push`, `Pop` and `Stop`, each run under the queue's mutex and therefore one atomic
step of the thread that calls it.  `Pop` waits for its predicate `!queue_.empty() || stop_`; its
body is `none` in the states in which the caller stays suspended.
-/

namespace MonitorSystem

/-- A queue and its stop flag. -/
structure SafeQueue (T : Type*) where
  queue : List T := []
  stop : Bool := false

namespace SafeQueue

variable {T : Type*}

/-- `Push`: append to the back. -/
def push (q : SafeQueue T) (value : T) : SafeQueue T := { q with queue := q.queue ++ [value] }

/-- `Pop`: `none` while the wait predicate is false; then the value taken from the front, or
`none` inside when the queue is empty and stopped. -/
def pop (q : SafeQueue T) : Option (Option T × SafeQueue T) :=
  match q.queue, q.stop with
  | [], false => none
  | [], true => some (none, q)
  | value :: rest, _ => some (some value, { q with queue := rest })

/-- `Stop`: raise the flag. -/
def stopped (q : SafeQueue T) : SafeQueue T := { q with stop := true }

@[simp] theorem queue_push (q : SafeQueue T) (value : T) :
    (q.push value).queue = q.queue ++ [value] := rfl

@[simp] theorem stop_push (q : SafeQueue T) (value : T) : (q.push value).stop = q.stop := rfl

@[simp] theorem queue_stopped (q : SafeQueue T) : q.stopped.queue = q.queue := rfl

/-- The wait predicate is false on an empty queue that has not been stopped. -/
theorem pop_eq_none {q : SafeQueue T} : q.pop = none ↔ q.queue = [] ∧ q.stop = false := by
  obtain ⟨l, b⟩ := q
  cases l <;> cases b <;> simp [pop]

/-- A successful `Pop` takes the front element. -/
theorem pop_eq_some_some {q q' : SafeQueue T} {value : T} :
    q.pop = some (some value, q') ↔
      ∃ rest, q.queue = value :: rest ∧ q' = { q with queue := rest } := by
  obtain ⟨l, b⟩ := q
  cases l <;> cases b <;> simp [pop, eq_comm]

/-- A `Pop` that fails leaves an empty, stopped queue as it is. -/
theorem pop_eq_some_none {q q' : SafeQueue T} :
    q.pop = some (none, q') ↔ q.queue = [] ∧ q.stop = true ∧ q' = q := by
  obtain ⟨l, b⟩ := q
  cases l <;> cases b <;> simp [pop, eq_comm]

end SafeQueue

end MonitorSystem
