import Mathlib.Tactic

/-!
# Conditions of an SQL statement

A condition has one of three truth values: a comparison with `NULL` is unknown, and `OR` and `AND`
are the greatest and the least of their operands, with unknown between false and true.  A row is
selected when the condition is true for it, not when it is merely not false.

Conditions are kept as syntax, with the text that stands in a statement (`Condition.text`) and the
value for a row (`Condition.eval`).  Where no literal is negative, a condition that compares columns
and their absolute values selects the same rows as a program that reads `NULL` as 0
(`eval_greater_eq_true_iff_getD`).
-/

namespace SqlCondition

/-! ### Three truth values -/

/-- A truth value; `none` is unknown. -/
abbrev Truth := Option Bool

/-- `OR`. -/
def Truth.or : Truth → Truth → Truth
  | some true, _ => some true
  | _, some true => some true
  | some false, some false => some false
  | _, _ => none

/-- `AND`. -/
def Truth.and : Truth → Truth → Truth
  | some false, _ => some false
  | _, some false => some false
  | some true, some true => some true
  | _, _ => none

theorem Truth.or_eq_true {a b : Truth} : a.or b = some true ↔ a = some true ∨ b = some true := by
  rcases a with _ | _ | _ <;> rcases b with _ | _ | _ <;> simp [Truth.or]

theorem Truth.and_eq_true {a b : Truth} : a.and b = some true ↔ a = some true ∧ b = some true := by
  rcases a with _ | _ | _ <;> rcases b with _ | _ | _ <;> simp [Truth.and]

/-! ### Conditions -/

/-- What is compared. -/
inductive Operand
  | column (name : String)
  | absColumn (name : String)

/-- A condition; literals are kept as they are written. -/
inductive Condition
  | greater (left : Operand) (literal : List Char)
  | or (c d : Condition)

def Operand.text : Operand → List Char
  | .column name => name.toList
  | .absColumn name => "ABS(".toList ++ (name.toList ++ ")".toList)

/-- The text of a condition. -/
def Condition.text : Condition → List Char
  | .greater left literal => left.text ++ (" > ".toList ++ literal)
  | .or c d => c.text ++ (" OR ".toList ++ d.text)

/-- Conditions joined with `OR`. -/
def Condition.disjunction (c : Condition) (ds : List Condition) : Condition :=
  ds.foldl Condition.or c

section Eval

variable {K : Type*} [AddCommGroup K] [LinearOrder K] (number : List Char → K)
  (row : String → Option K)

/-- The value of an operand for a row; `none` is `NULL`. -/
def Operand.value : Operand → Option K
  | .column name => row name
  | .absColumn name => (row name).map fun x => |x|

/-- The truth value of a condition for a row, when `number` reads the literals. -/
def Condition.eval : Condition → Truth
  | .greater left literal => (left.value row).map fun x => decide (number literal < x)
  | .or c d => (c.eval).or d.eval

variable {number row}

/-- A comparison is true when there is a value and it is greater. -/
theorem eval_greater_eq_true_iff {left : Operand} {literal : List Char} :
    (Condition.greater left literal).eval number row = some true ↔
      ∃ x, left.value row = some x ∧ number literal < x := by
  simp [Condition.eval]

/-- For a literal that is not negative, `NULL` may as well be 0. -/
theorem eval_greater_eq_true_iff_getD {left : Operand} {literal : List Char}
    (hliteral : 0 ≤ number literal) :
    (Condition.greater left literal).eval number row = some true ↔
      number literal < (left.value row).getD 0 := by
  rw [eval_greater_eq_true_iff]
  cases hvalue : left.value row with
  | none => simpa using hliteral
  | some x => simp

theorem eval_disjunction_eq_true_iff {c : Condition} {ds : List Condition} :
    (c.disjunction ds).eval number row = some true ↔
      ∃ d ∈ c :: ds, d.eval number row = some true := by
  induction ds generalizing c with
  | nil => simp [Condition.disjunction]
  | cons d ds ih =>
    have hfold : c.disjunction (d :: ds) = (c.or d).disjunction ds := rfl
    rw [hfold, ih, List.exists_mem_cons_iff, List.exists_mem_cons_iff, List.exists_mem_cons_iff,
      Condition.eval, Truth.or_eq_true, or_assoc]

end Eval

end SqlCondition
