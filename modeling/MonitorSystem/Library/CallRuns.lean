import Mathlib.Tactic

/-!
# An object that is called again and again

A member function takes what it reads from its surroundings and the members of its object, and
returns an answer and the members it leaves.  `stateAt` and `answerAt` are what call number `n` of
a run finds and returns.
-/

namespace CallRuns

variable {I S O : Type*} (call : I → S → O × S) (readings : ℕ → I) (start : S)

/-- The members before call `n`. -/
def stateAt : ℕ → S
  | 0 => start
  | n + 1 => (call (readings n) (stateAt n)).2

/-- The answer of call `n`. -/
def answerAt (n : ℕ) : O := (call (readings n) (stateAt call readings start n)).1

theorem call_eq (n : ℕ) : call (readings n) (stateAt call readings start n) =
    (answerAt call readings start n, stateAt call readings start (n + 1)) := rfl

end CallRuns
