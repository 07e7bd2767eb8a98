import Mathlib.Tactic

/-!
# Adding up over threads

A ghost quantity of a concurrent program that is the sum of a contribution of each thread, where
the contribution of a thread depends on its own local state only.  A step of one thread changes
one summand.
-/

namespace Tally

open Function

variable {ι σ : Type*} [Fintype ι] [DecidableEq ι]

/-- The sum of the contributions `w i` of the threads `i` in the local states `pc`. -/
def tally (w : ι → σ → ℕ) (pc : ι → σ) : ℕ := ∑ i, w i (pc i)

/-- A step of thread `i` exchanges its contribution for a new one. -/
theorem tally_update (w : ι → σ → ℕ) (pc : ι → σ) (i : ι) (x : σ) :
    tally w (update pc i x) + w i (pc i) = tally w pc + w i x := by
  have hrest : ∑ j ∈ Finset.univ.erase i, w j (update pc i x j) =
      ∑ j ∈ Finset.univ.erase i, w j (pc j) :=
    Finset.sum_congr rfl fun j hj => by rw [update_of_ne (Finset.ne_of_mem_erase hj)]
  have hnew := Finset.add_sum_erase Finset.univ (fun j => w j (update pc i x j))
    (Finset.mem_univ i)
  have hold := Finset.add_sum_erase Finset.univ (fun j => w j (pc j)) (Finset.mem_univ i)
  simp only [update_self] at hnew
  unfold tally
  omega

variable {w : ι → σ → ℕ} {pc : ι → σ} {i : ι} {x : σ}

/-- A step that leaves the contribution of its thread alone leaves the sum alone. -/
theorem tally_update_of_eq (h : w i x = w i (pc i)) : tally w (update pc i x) = tally w pc := by
  have hstep := tally_update w pc i x
  omega

/-- A thread that starts to contribute adds its contribution. -/
theorem tally_update_of_zero (h : w i (pc i) = 0) :
    tally w (update pc i x) = tally w pc + w i x := by
  have hstep := tally_update w pc i x
  omega

omit [DecidableEq ι] in
/-- The sum is zero when no thread contributes. -/
theorem tally_eq_zero (h : ∀ j, w j (pc j) = 0) : tally w pc = 0 :=
  Finset.sum_eq_zero fun j _ => h j

end Tally
