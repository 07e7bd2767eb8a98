import MonitorSystem.Library.Transition

/-!
# Ranking functions

In an interleaving every thread moves when it likes, so that "soon" can only be said in steps of
the threads that matter.  `own` says which events are theirs, and `rank` is a bound on what they
still have to do: no step raises it and every own step lowers it.

* `rank_add_count_le`: as long as the invariant holds, the own steps are at most as many as the
  rank was at the start;
* `reached_of_rank_le`: when the invariant can only be left for a goal, that many own steps reach
  the goal.
-/

namespace Transition

variable {S E : Type*} {step : S → E → Option S} {P : S → E → Prop} {I G : S → Prop}
  (rank : S → ℕ) (own : E → Bool)

theorem countP_cons_eq (e : E) (es : List E) :
    (e :: es).countP own = (own e).toNat + es.countP own := by
  rw [List.countP_cons, add_comm]
  cases own e <;> rfl

/-- A rank that no step raises and every own step lowers bounds the own steps of a run. -/
theorem rank_add_count_le
    (hstep : ∀ s e s', I s → P s e → step s e = some s' →
      I s' ∧ rank s' + (own e).toNat ≤ rank s)
    {s s' : S} {es : List E} (h : run step s es = some s') (hP : Along step P s es) (hs : I s) :
    rank s' + es.countP own ≤ rank s := by
  induction es generalizing s with
  | nil =>
    cases h
    exact le_rfl
  | cons e es ih =>
    obtain ⟨t, ht, hrest⟩ := run_cons_eq_some.1 h
    obtain ⟨hPe, hPrest⟩ := (along_cons_iff ht).1 hP
    obtain ⟨hIt, hrank⟩ := hstep s e t hs hPe ht
    have htail := ih hrest hPrest hIt
    rw [countP_cons_eq]
    omega

/-- If every step keeps the invariant, with the rank falling, or reaches the goal, then as many own
steps as the rank reach the goal. -/
theorem reached_of_rank_le (hpos : ∀ s, I s → 0 < rank s)
    (hstep : ∀ s e s', I s → P s e → step s e = some s' →
      G s' ∨ I s' ∧ rank s' + (own e).toNat ≤ rank s)
    (hkeep : ∀ s e s', G s → P s e → step s e = some s' → G s')
    {s s' : S} {es : List E} (h : run step s es = some s') (hP : Along step P s es) (hs : I s)
    (hcount : rank s ≤ es.countP own) : G s' := by
  induction es generalizing s with
  | nil =>
    have hrank := hpos s hs
    simp only [List.countP_nil] at hcount
    omega
  | cons e es ih =>
    obtain ⟨t, ht, hrest⟩ := run_cons_eq_some.1 h
    obtain ⟨hPe, hPrest⟩ := (along_cons_iff ht).1 hP
    rcases hstep s e t hs hPe ht with hG | ⟨hIt, hrank⟩
    · exact run_invariant_along hkeep hrest hPrest hG
    · refine ih hrest hPrest hIt ?_
      rw [countP_cons_eq] at hcount
      omega

end Transition
