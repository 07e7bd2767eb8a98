import MonitorSystem.Library.CxxFloat

/-!
# Single precision

`CxxFloat` values of which the `float` ones are rounded: a `double` is kept exactly, as a rational,
and `toFloat` rounds to 24 significant bits, ties to even.  The range of exponents is not limited.

`toFloat_natCast_eq_iff` says which natural numbers a `float` holds exactly, and
`toFloat_sub_eq_zero_iff` when a difference is zero.
-/

namespace SinglePrecision

open DecimalText (roundHalfEven)

/-- The distance between the neighbours of a number, as a power of two. -/
def ulpExponent (x : ℚ) : ℤ := Int.log 2 |x| - 23

/-- Round to 24 significant bits. -/
def round (x : ℚ) : ℚ := roundHalfEven (x / 2 ^ ulpExponent x) * 2 ^ ulpExponent x

/-- A number of 24 significant bits. -/
def Representable (n : ℕ) : Prop := ∃ m k : ℕ, m < 2 ^ 24 ∧ n = m * 2 ^ k

theorem roundHalfEven_intCast (z : ℤ) : roundHalfEven z = z := by
  simp [roundHalfEven]

theorem two_zpow_ne_zero (e : ℤ) : (2 : ℚ) ^ e ≠ 0 := zpow_ne_zero e two_ne_zero

/-- Rounding keeps the multiples of the distance. -/
theorem round_eq_iff {x : ℚ} : round x = x ↔ ∃ z : ℤ, x / 2 ^ ulpExponent x = z := by
  constructor
  · intro h
    exact ⟨_, ((eq_div_iff (two_zpow_ne_zero _)).2 h).symm⟩
  · rintro ⟨z, hz⟩
    rw [round, hz, roundHalfEven_intCast, ← hz, div_mul_cancel₀ x (two_zpow_ne_zero _)]

theorem abs_le_one_of_roundHalfEven {x : ℚ} (h : roundHalfEven x = 0) : |x| ≤ 1 := by
  have hlow := Int.floor_le x
  have hhigh := Int.lt_floor_add_one x
  have hfloor : ⌊x⌋ = 0 ∨ ⌊x⌋ = -1 := by
    simp only [roundHalfEven] at h
    split_ifs at h <;> omega
  rw [abs_le]
  rcases hfloor with hfloor | hfloor <;> rw [hfloor] at hlow hhigh <;> push_cast at hlow hhigh <;>
    constructor <;> linarith

/-- Only zero is rounded to zero. -/
theorem round_eq_zero_iff {x : ℚ} : round x = 0 ↔ x = 0 := by
  constructor
  · intro h
    by_contra hx
    have hpos : (0 : ℚ) < 2 ^ ulpExponent x := zpow_pos two_pos _
    have hlog : (2 : ℚ) ^ Int.log 2 |x| ≤ |x| := by
      exact_mod_cast Int.zpow_log_le_self one_lt_two (abs_pos.2 hx)
    have hround : roundHalfEven (x / 2 ^ ulpExponent x) = 0 := by
      exact_mod_cast (mul_eq_zero.1 h).resolve_right hpos.ne'
    have hsmall := abs_le_one_of_roundHalfEven hround
    rw [abs_div, abs_of_pos hpos, div_le_one hpos] at hsmall
    -- the distance between neighbours is far below the number itself
    have hlt : (2 : ℚ) ^ ulpExponent x < 2 ^ Int.log 2 |x| :=
      zpow_lt_zpow_right₀ one_lt_two (by rw [ulpExponent]; omega)
    exact absurd (hlog.trans hsmall) (not_le.2 hlt)
  · rintro rfl
    simp [round, roundHalfEven]

theorem ulpExponent_natCast (n : ℕ) : ulpExponent n = (Nat.log 2 n : ℤ) - 23 := by
  rw [ulpExponent, abs_of_nonneg n.cast_nonneg, Int.log_natCast]

theorem div_two_pow_eq_intCast_iff (n e : ℕ) : (∃ z : ℤ, (n : ℚ) / 2 ^ e = z) ↔ 2 ^ e ∣ n := by
  have hpow : (2 : ℚ) ^ e ≠ 0 := pow_ne_zero e two_ne_zero
  constructor
  · rintro ⟨z, hz⟩
    rw [div_eq_iff hpow] at hz
    have hint : (n : ℤ) = z * 2 ^ e := by exact_mod_cast hz
    exact_mod_cast (Dvd.intro_left z hint.symm : (2 : ℤ) ^ e ∣ n)
  · rintro ⟨m, rfl⟩
    refine ⟨m, ?_⟩
    rw [div_eq_iff hpow]
    push_cast
    ring

/-- The bits behind the first 24 must be zero. -/
theorem round_natCast_eq_iff_dvd (n : ℕ) : round n = n ↔ 2 ^ (Nat.log 2 n - 23) ∣ n := by
  rw [round_eq_iff, ulpExponent_natCast]
  rcases le_or_gt (Nat.log 2 n) 23 with hsmall | hlarge
  · -- there are none
    have hexp : (Nat.log 2 n : ℤ) - 23 = -((23 - Nat.log 2 n : ℕ) : ℤ) := by omega
    rw [hexp, zpow_neg, div_inv_eq_mul, zpow_natCast, Nat.sub_eq_zero_of_le hsmall]
    refine ⟨fun _ => one_dvd n, fun _ => ⟨n * 2 ^ (23 - Nat.log 2 n), ?_⟩⟩
    push_cast
    rfl
  · have hexp : (Nat.log 2 n : ℤ) - 23 = ((Nat.log 2 n - 23 : ℕ) : ℤ) := by omega
    rw [hexp, zpow_natCast, div_two_pow_eq_intCast_iff]

theorem two_pow_dvd_iff {n : ℕ} (hn : n ≠ 0) :
    2 ^ (Nat.log 2 n - 23) ∣ n ↔ Representable n := by
  have hlow : 2 ^ Nat.log 2 n ≤ n := Nat.pow_log_le_self 2 hn
  have hhigh : n < 2 ^ (Nat.log 2 n + 1) := Nat.lt_pow_succ_log_self (by decide) n
  constructor
  · rintro ⟨m, hm⟩
    refine ⟨m, Nat.log 2 n - 23, ?_, by rw [mul_comm]; exact hm⟩
    by_contra hlarge
    have hle : 2 ^ (Nat.log 2 n - 23) * 2 ^ 24 ≤ n := by
      conv_rhs => rw [hm]
      exact Nat.mul_le_mul_left _ (not_lt.1 hlarge)
    rw [← pow_add] at hle
    have hmono : 2 ^ (Nat.log 2 n + 1) ≤ 2 ^ (Nat.log 2 n - 23 + 24) :=
      Nat.pow_le_pow_right (by decide) (by omega)
    omega
  · rintro ⟨m, k, hm, heq⟩
    have hlt : n < 2 ^ (24 + k) := by
      rw [heq, pow_add]
      exact Nat.mul_lt_mul_of_pos_right hm (by positivity)
    have hlog : Nat.log 2 n < 24 + k := Nat.log_lt_of_lt_pow hn hlt
    exact (pow_dvd_pow 2 (by omega)).trans (Dvd.intro_left m heq.symm)

theorem round_natCast_eq_iff (n : ℕ) : round n = n ↔ Representable n := by
  rw [round_natCast_eq_iff_dvd]
  rcases eq_or_ne n 0 with rfl | hn
  · exact ⟨fun _ => ⟨0, 0, by decide, rfl⟩, fun _ => dvd_zero _⟩
  · exact two_pow_dvd_iff hn

/-- Exact `double` values, of which the `float` ones are rounded. -/
def Single : Type := ℚ

namespace Single

instance : CxxFloat Single where
  toZero := inferInstanceAs (Zero ℚ)
  toAdd := inferInstanceAs (Add ℚ)
  toSub := inferInstanceAs (Sub ℚ)
  toMul := inferInstanceAs (Mul ℚ)
  toDiv := inferInstanceAs (Div ℚ)
  toNatCast := inferInstanceAs (NatCast ℚ)
  toLT := inferInstanceAs (LT ℚ)
  toBEq := inferInstanceAs (BEq ℚ)
  decLt := inferInstanceAs (∀ x y : ℚ, Decidable (x < y))
  toFloat := round
  print := DecimalText.printG
  isFloatChar_print x c hc :=
    CxxFloat.isFloatChar_of_isNumeric (DecimalText.isNumeric_printG x c hc)

/-- A `float` holds a natural number exactly when it has 24 significant bits. -/
theorem toFloat_natCast_eq_iff (n : ℕ) :
    CxxFloat.toFloat (n : Single) = (n : Single) ↔ Representable n :=
  round_natCast_eq_iff n

/-- The difference of two numbers is rounded to zero only when they are equal. -/
theorem toFloat_sub_eq_zero_iff (x y : Single) : CxxFloat.toFloat (x - y) = 0 ↔ x = y :=
  round_eq_zero_iff.trans (sub_eq_zero (a := (show ℚ from x)))

end Single

end SinglePrecision
