import Mathlib.Tactic

/-!
# Condition variables

The threads inside `wait` on one condition variable: suspended, notified, or woken without a
notification.  A thread that has been notified or woken tests its predicate again before it goes
on, and until it does so it counts as one that is about to.

* `wait`, `leave`, `notifyOne`, `notifyAll`, `wake`: what the threads of a program do, each under
  the mutex of the variable;
* `Covers c n`: while some thread is suspended, at least `n` notified ones are on their way.  With
  `n` the number of items to be consumed, this is what is meant by no wake-up being lost: each
  operation has its rule for it.
-/

/-- The threads inside `wait`. -/
structure CondVar (ι : Type*) where
  waiting : Finset ι := ∅
  notified : Finset ι := ∅
  woken : Finset ι := ∅
  waiting_notified : Disjoint waiting notified := by exact Finset.disjoint_empty_left _
  waiting_woken : Disjoint waiting woken := by exact Finset.disjoint_empty_left _
  notified_woken : Disjoint notified woken := by exact Finset.disjoint_empty_left _

namespace CondVar

variable {ι : Type*} [DecidableEq ι] {c c' : CondVar ι} {i : ι} {w : Option ι} {n : ℕ}

/-! ### Operations -/

/-- Thread `i` finds its predicate false and is suspended. -/
def wait (c : CondVar ι) (i : ι) : CondVar ι where
  waiting := insert i c.waiting
  notified := c.notified.erase i
  woken := c.woken.erase i
  waiting_notified := by
    rw [Finset.disjoint_insert_left]
    exact ⟨Finset.notMem_erase i _, c.waiting_notified.mono_right (Finset.erase_subset i _)⟩
  waiting_woken := by
    rw [Finset.disjoint_insert_left]
    exact ⟨Finset.notMem_erase i _, c.waiting_woken.mono_right (Finset.erase_subset i _)⟩
  notified_woken :=
    c.notified_woken.mono (Finset.erase_subset i _) (Finset.erase_subset i _)

/-- Thread `i` finds its predicate true and returns from `wait`, if it was in there at all. -/
def leave (c : CondVar ι) (i : ι) : CondVar ι where
  waiting := c.waiting.erase i
  notified := c.notified.erase i
  woken := c.woken.erase i
  waiting_notified :=
    c.waiting_notified.mono (Finset.erase_subset i _) (Finset.erase_subset i _)
  waiting_woken := c.waiting_woken.mono (Finset.erase_subset i _) (Finset.erase_subset i _)
  notified_woken := c.notified_woken.mono (Finset.erase_subset i _) (Finset.erase_subset i _)

/-- The suspended thread `i` is notified. -/
def notify (c : CondVar ι) (i : ι) : CondVar ι where
  waiting := c.waiting.erase i
  notified := insert i c.notified
  woken := c.woken.erase i
  waiting_notified := by
    rw [Finset.disjoint_insert_right]
    exact ⟨Finset.notMem_erase i _, c.waiting_notified.mono_left (Finset.erase_subset i _)⟩
  waiting_woken := c.waiting_woken.mono (Finset.erase_subset i _) (Finset.erase_subset i _)
  notified_woken := by
    rw [Finset.disjoint_insert_left]
    exact ⟨Finset.notMem_erase i _, c.notified_woken.mono_right (Finset.erase_subset i _)⟩

/-- `notify_one`, with the suspended thread that it picks, or with `none` when there is none. -/
def notifyOne (c : CondVar ι) : Option ι → Option (CondVar ι)
  | none => if c.waiting = ∅ then some c else none
  | some i => if i ∈ c.waiting then some (c.notify i) else none

/-- `notify_all`. -/
def notifyAll (c : CondVar ι) : CondVar ι where
  notified := c.notified ∪ c.waiting
  woken := c.woken
  notified_woken := Finset.disjoint_union_left.2 ⟨c.notified_woken, c.waiting_woken⟩

/-- A spurious wake-up of thread `i`. -/
def wake (c : CondVar ι) (i : ι) : Option (CondVar ι) :=
  if i ∈ c.waiting then
    some
      { waiting := c.waiting.erase i
        notified := c.notified.erase i
        woken := insert i c.woken
        waiting_notified :=
          c.waiting_notified.mono (Finset.erase_subset i _) (Finset.erase_subset i _)
        waiting_woken := by
          rw [Finset.disjoint_insert_right]
          exact ⟨Finset.notMem_erase i _, c.waiting_woken.mono_left (Finset.erase_subset i _)⟩
        notified_woken := by
          rw [Finset.disjoint_insert_right]
          exact ⟨Finset.notMem_erase i _,
            c.notified_woken.mono_left (Finset.erase_subset i _)⟩ }
  else none

theorem notifyOne_none_eq_some :
    c.notifyOne none = some c' ↔ c.waiting = ∅ ∧ c = c' := by simp [notifyOne]

theorem notifyOne_some_eq_some :
    c.notifyOne (some i) = some c' ↔ i ∈ c.waiting ∧ c.notify i = c' := by simp [notifyOne]

/-- The threads inside `wait` that are not suspended and will test their predicate again. -/
def runnable (c : CondVar ι) : Finset ι := c.notified ∪ c.woken

/-! ### No wake-up is lost -/

/-- While a thread is suspended, `n` notified ones are on their way. -/
def Covers (c : CondVar ι) (n : ℕ) : Prop := c.waiting.Nonempty → n ≤ c.notified.card

omit [DecidableEq ι] in
theorem covers_zero (c : CondVar ι) : Covers c 0 := fun _ => Nat.zero_le _

/-- With the picked thread one more is on its way. -/
theorem Covers.notifyOne (h : Covers c n) (hc : c.notifyOne w = some c') : Covers c' (n + 1) := by
  cases w with
  | none =>
    obtain ⟨hempty, rfl⟩ := notifyOne_none_eq_some.1 hc
    intro hne
    rw [hempty] at hne
    cases Finset.not_nonempty_empty hne
  | some i =>
    obtain ⟨hi, rfl⟩ := notifyOne_some_eq_some.1 hc
    intro _
    have hnot : i ∉ c.notified := Finset.disjoint_left.1 c.waiting_notified hi
    have hcard : (insert i c.notified).card = c.notified.card + 1 :=
      Finset.card_insert_of_notMem hnot
    have hcover := h ⟨i, hi⟩
    show n + 1 ≤ (insert i c.notified).card
    omega

/-- A thread that goes on takes at most one notification with it. -/
theorem Covers.leave (h : Covers c (n + 1)) (i : ι) : Covers (c.leave i) n := by
  intro hne
  have hcover := h (hne.mono (Finset.erase_subset i c.waiting))
  have hcard : c.notified.card - 1 ≤ (c.notified.erase i).card := Finset.pred_card_le_card_erase
  show n ≤ (c.notified.erase i).card
  omega

/-- A thread that wakes up by itself has not been notified. -/
theorem Covers.wake (h : Covers c n) (hc : c.wake i = some c') : Covers c' n := by
  unfold CondVar.wake at hc
  split_ifs at hc with hi
  cases hc
  intro _
  have hnot : i ∉ c.notified := Finset.disjoint_left.1 c.waiting_notified hi
  show n ≤ (c.notified.erase i).card
  rw [Finset.erase_eq_of_notMem hnot]
  exact h ⟨i, hi⟩

/-! ### Who is suspended -/

theorem waiting_of_notifyOne (hc : c.notifyOne w = some c') : c'.waiting ⊆ c.waiting := by
  cases w with
  | none =>
    obtain ⟨-, rfl⟩ := notifyOne_none_eq_some.1 hc
    exact subset_rfl
  | some i =>
    obtain ⟨-, rfl⟩ := notifyOne_some_eq_some.1 hc
    exact Finset.erase_subset i _

theorem waiting_of_wake (hc : c.wake i = some c') : c'.waiting ⊆ c.waiting := by
  unfold CondVar.wake at hc
  split_ifs at hc
  cases hc
  exact Finset.erase_subset i _

theorem waiting_leave (c : CondVar ι) (i : ι) : (c.leave i).waiting ⊆ c.waiting :=
  Finset.erase_subset i _

@[simp] theorem waiting_notifyAll (c : CondVar ι) : c.notifyAll.waiting = ∅ := rfl

end CondVar
