import Mathlib.Tactic

/-!
# One queue and the worker that serves it

A lane is a first-in first-out queue together with the single worker that empties it: the items
already done, the item in hand if there is one, and the items waiting, each oldest first.  Read
in that order they are the `contents` of the lane.  Enqueuing appends to the contents; taking an
item in hand and finishing it leave the contents as they are, so that along any run the contents
only grow at the end, and `mem_done_of_earlier` is what first-in first-out means.
-/

/-- A queue and its worker. -/
structure FifoLane (α : Type*) where
  done : List α
  current : Option α
  waiting : List α

namespace FifoLane

variable {α : Type*}

/-- Everything that ever entered the lane, oldest first. -/
def contents (l : FifoLane α) : List α := l.done ++ l.current.toList ++ l.waiting

/-- A new item joins the queue. -/
def enqueue (l : FifoLane α) (x : α) : FifoLane α := { l with waiting := l.waiting ++ [x] }

/-- The worker has taken the item `x` from the front. -/
structure Takes (l l' : FifoLane α) (x : α) : Prop where
  idle : l.current = none
  front : l.waiting = x :: l'.waiting
  done : l'.done = l.done
  current : l'.current = some x

/-- The worker has finished the item in hand. -/
structure Finishes (l l' : FifoLane α) (x : α) : Prop where
  current : l.current = some x
  done : l'.done = l.done ++ [x]
  idle : l'.current = none
  waiting : l'.waiting = l.waiting

theorem contents_enqueue (l : FifoLane α) (x : α) :
    (l.enqueue x).contents = l.contents ++ [x] := by
  simp [contents, enqueue]

theorem Takes.contents_eq {l l' : FifoLane α} {x : α} (h : Takes l l' x) :
    l'.contents = l.contents := by
  simp [contents, h.idle, h.front, h.done, h.current]

theorem Finishes.contents_eq {l l' : FifoLane α} {x : α} (h : Finishes l l' x) :
    l'.contents = l.contents := by
  simp [contents, h.current, h.done, h.idle, h.waiting]

theorem mem_contents {l : FifoLane α} {x : α} :
    x ∈ l.contents ↔ x ∈ l.done ∨ l.current = some x ∨ x ∈ l.waiting := by
  simp [contents, Option.mem_toList]

/-- **First in, first out.**  When the lane has begun an item `y` that entered after all of
`old`, it is done with every item of `old`. -/
theorem mem_done_of_earlier {l : FifoLane α} {old new : List α} {x y : α}
    (h : l.contents = old ++ new) (hx : x ∈ old) (hy : y ∉ old)
    (hbegun : y ∈ l.done ∨ l.current = some y) : x ∈ l.done := by
  obtain ⟨done, current, waiting⟩ := l
  simp only [contents] at h hbegun ⊢
  have hmem : y ∈ done ++ current.toList := by simpa using hbegun
  rcases List.append_eq_append_iff.1 h with ⟨a, hold, -⟩ | ⟨a, hdone, -⟩
  · exact absurd (hold ▸ List.mem_append_left a hmem) hy
  · cases current with
    | none =>
      rw [Option.toList_none, List.append_nil] at hdone
      exact hdone ▸ List.mem_append_left a hx
    | some z =>
      -- the item in hand is the last of `a`, since `y` lies in `a`
      rcases List.eq_nil_or_concat a with rfl | ⟨b, w, rfl⟩
      · rw [List.append_nil] at hdone
        exact absurd (hdone ▸ hmem) hy
      · rw [Option.toList_some, List.concat_eq_append, ← List.append_assoc] at hdone
        obtain ⟨hdone, -⟩ := List.append_inj' hdone rfl
        exact hdone ▸ List.mem_append_left b hx

end FifoLane
