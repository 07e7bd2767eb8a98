import Mathlib.Tactic

/-!
# Noninterference by unwinding

A deterministic system takes inputs one after another, and each input changes the state and
produces outputs.  An observer sees `view s` of a state and the outputs that satisfy `sees`; some
inputs are the observer's own (`own`).  The system is free of interference when the observer
cannot tell a run from the one in which only its own inputs occur.  Two conditions on single steps
suffice (`Unwinding`): a step on a foreign input changes nothing the observer sees, and a step on
an own input acts on what the observer sees alone.
-/

variable {S I O V : Type*}

/-- Run a system on a list of inputs, collecting the outputs. -/
def runOutputs (step : S → I → S × List O) (s : S) : List I → S × List O
  | [] => (s, [])
  | i :: is =>
    let (t, now) := step s i
    let (u, later) := runOutputs step t is
    (u, now ++ later)

/-- What holds of every output of a step holds of every output of a run. -/
theorem forall_mem_runOutputs {step : S → I → S × List O} {P : O → Prop} {is : List I}
    (h : ∀ s, ∀ i ∈ is, ∀ o ∈ (step s i).2, P o) (s : S) :
    ∀ o ∈ (runOutputs step s is).2, P o := by
  induction is generalizing s with
  | nil => intro o ho; cases ho
  | cons i is ih =>
    intro o ho
    rcases List.mem_append.1 ho with hnow | hlater
    · exact h s i List.mem_cons_self o hnow
    · exact ih (fun t j hj => h t j (List.mem_cons_of_mem i hj)) _ o hlater

/-- The two conditions on single steps. -/
structure Unwinding (step : S → I → S × List O) (view : S → V) (sees : O → Bool)
    (own : I → Bool) : Prop where
  foreign : ∀ s i, own i = false →
    view (step s i).1 = view s ∧ (step s i).2.filter sees = []
  own : ∀ s t i, own i = true → view s = view t →
    view (step s i).1 = view (step t i).1 ∧
      (step s i).2.filter sees = (step t i).2.filter sees

variable {step : S → I → S × List O} {view : S → V} {sees : O → Bool} {own : I → Bool}

/-- **Noninterference.**  From states that look the same, a run and the run of the observer's own
inputs end in states that look the same and show the same outputs. -/
theorem Unwinding.noninterference (h : Unwinding step view sees own) (is : List I) {s t : S}
    (hst : view s = view t) :
    view (runOutputs step s is).1 = view (runOutputs step t (is.filter own)).1 ∧
      (runOutputs step s is).2.filter sees =
        (runOutputs step t (is.filter own)).2.filter sees := by
  induction is generalizing s t with
  | nil => exact ⟨hst, rfl⟩
  | cons i is ih =>
    cases hi : own i with
    | false =>
      obtain ⟨hview, hout⟩ := h.foreign s i hi
      rw [List.filter_cons_of_neg (by simp [hi])]
      obtain ⟨ihview, ihout⟩ := ih (hview.trans hst)
      refine ⟨ihview, ?_⟩
      rw [← ihout, runOutputs, List.filter_append, hout, List.nil_append]
    | true =>
      obtain ⟨hview, hout⟩ := h.own s t i hi hst
      rw [List.filter_cons_of_pos hi]
      obtain ⟨ihview, ihout⟩ := ih hview
      refine ⟨ihview, ?_⟩
      rw [runOutputs, runOutputs, List.filter_append, List.filter_append, hout, ihout]
