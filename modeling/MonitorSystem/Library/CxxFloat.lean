import MonitorSystem.Library.DecimalText

/-!
# Floating-point numbers of a C++ program

The operations a C++ program performs on `float` and `double` values, without any law: code
whose properties are about the flow of data, and not about the values, is modelled over an
arbitrary `CxxFloat`.  `toFloat` is the rounding of a `double` to a `float`; `print` is what
`ostream <<` writes, which may also be `nan` or `inf`.

The instance on `ℚ` reads the same code in exact arithmetic, where `toFloat` is the identity.
-/

/-- The characters of a printed floating-point number. -/
def IsFloatChar (c : Char) : Prop := c.isAlphanum = true ∨ c = '-' ∨ c = '+' ∨ c = '.'

/-- The floating-point operations of a C++ program. -/
class CxxFloat (F : Type) extends Zero F, Add F, Sub F, Mul F, Div F, NatCast F, LT F, BEq F where
  decLt : ∀ x y : F, Decidable (x < y)
  toFloat : F → F
  print : F → List Char
  isFloatChar_print : ∀ x, ∀ c ∈ print x, IsFloatChar c

namespace CxxFloat

instance {F : Type} [CxxFloat F] (x y : F) : Decidable (x < y) := decLt x y

/-- The literal with value `p / q`. -/
def lit {F : Type} [CxxFloat F] (p q : ℕ) : F := (p : F) / (q : F)

/-- `std::abs`. -/
def abs {F : Type} [CxxFloat F] (x : F) : F := if x < 0 then 0 - x else x

theorem isFloatChar_of_isNumeric {c : Char} (h : DecimalText.IsNumeric c) : IsFloatChar c := by
  rcases h with h | rfl | rfl | rfl | rfl
  · exact .inl (by simp [Char.isAlphanum, h])
  · exact .inr (.inl rfl)
  · exact .inr (.inr (.inl rfl))
  · exact .inr (.inr (.inr rfl))
  · exact .inl (by decide)

/-- Exact arithmetic. -/
instance : CxxFloat ℚ where
  decLt := inferInstance
  toFloat := id
  print := DecimalText.printG
  isFloatChar_print x c hc := isFloatChar_of_isNumeric (DecimalText.isNumeric_printG x c hc)

@[simp] theorem toFloat_rat (q : ℚ) : toFloat q = q := rfl

theorem abs_rat (q : ℚ) : abs q = |q| := by
  unfold abs
  split_ifs with hneg
  · rw [abs_of_neg hneg, zero_sub]
  · exact (abs_of_nonneg (not_lt.1 hneg)).symm

end CxxFloat
