import Mathlib.Tactic

/-!
# Signed integers and times of a C++ program

Signed operations that overflow have no meaning; code whose results stay in the range of `int64_t`
(`InInt64`) can be modelled on `ℤ`.  A reading of `std::chrono::steady_clock` is such a number of
nanoseconds, and never negative.
-/

namespace CxxInt

/-- The integer is a value of `int64_t`. -/
def InInt64 (z : ℤ) : Prop := -2 ^ 63 ≤ z ∧ z < 2 ^ 63

instance (z : ℤ) : Decidable (InInt64 z) := inferInstanceAs (Decidable (_ ∧ _))

/-- A reading of `steady_clock`. -/
abbrev SteadyTime := Fin (2 ^ 63)

/-- `duration_cast<milliseconds>(now - old).count()`. -/
def wholeMs (now old : SteadyTime) : ℤ := ((now : ℤ) - (old : ℤ)).tdiv 1000000

theorem inInt64_natCast {n : ℕ} (h : n < 2 ^ 63) : InInt64 n := by
  constructor <;> omega

/-- The time between two readings does not overflow. -/
theorem inInt64_sub (now old : SteadyTime) : InInt64 ((now : ℤ) - (old : ℤ)) := by
  have hnow : (now : ℕ) < 2 ^ 63 := now.isLt
  have hold : (old : ℕ) < 2 ^ 63 := old.isLt
  constructor <;> omega

/-- A quotient is no larger than what is divided. -/
theorem InInt64.tdiv {z : ℤ} (h : InInt64 z) {d : ℤ} (hd : 0 < d) : InInt64 (z.tdiv d) := by
  obtain ⟨hlow, hhigh⟩ := h
  have habs := Int.natAbs_tdiv_le_natAbs z d
  constructor
  · omega
  · -- only a quotient of a number that is not negative is positive
    rcases le_or_gt 0 z with hz | hz
    · omega
    · have hneg : z.tdiv d ≤ (0 : ℤ).tdiv d := Int.tdiv_le_tdiv hd hz.le
      rw [Int.zero_tdiv] at hneg
      omega

/-- Two readings of the clock are less than 300 years apart. -/
theorem wholeMs_lt (now old : SteadyTime) : wholeMs now old < 10 ^ 13 := by
  have hle : (now : ℤ) - (old : ℤ) ≤ 2 ^ 63 := (inInt64_sub now old).2.le
  exact (Int.tdiv_le_tdiv (by decide) hle).trans_lt (by decide)

end CxxInt
