import Mathlib.Tactic

/-!
# The best element of a list, kept along a loop

`if (score > best) { best = score; best_name = name; }`: a loop that starts with a score which every
element beats ends with the score and the name of an element that no other one beats.
-/

namespace RunningBest

variable {α S N : Type*} (better : S → S → Prop) [DecidableRel better] (score : α → S)
  (name : α → N)

/-- A turn of the loop. -/
def turn (best : S × N) (a : α) : S × N :=
  if better (score a) best.1 then (score a, name a) else best

/-- The score and the name belong to an element of the list that no other one beats. -/
structure Leads (l : List α) (best : S × N) : Prop where
  attained : ∃ a ∈ l, score a = best.1 ∧ name a = best.2
  unbeaten : ∀ a ∈ l, ¬ better (score a) best.1

variable {better score name} [IsStrictOrder S better] {l : List α} {best : S × N}

theorem Leads.turn (h : Leads better score name l best) (a : α) :
    Leads better score name (l ++ [a]) (turn better score name best a) := by
  by_cases hbetter : better (score a) best.1
  · rw [RunningBest.turn, if_pos hbetter]
    refine ⟨⟨a, by simp, rfl, rfl⟩, fun b hb => ?_⟩
    rcases List.mem_append.1 hb with hb | hb
    · exact fun hbeats => h.unbeaten b hb (Trans.trans hbeats hbetter)
    · obtain rfl := List.mem_singleton.1 hb
      exact irrefl _
  · rw [RunningBest.turn, if_neg hbetter]
    obtain ⟨b, hb, hscore⟩ := h.attained
    refine ⟨⟨b, List.mem_append_left _ hb, hscore⟩, fun c hc => ?_⟩
    rcases List.mem_append.1 hc with hc | hc
    · exact h.unbeaten c hc
    · rwa [List.mem_singleton.1 hc]

/-- The first element beats what the loop starts with. -/
theorem leads_singleton {a : α} (h : better (score a) best.1) :
    Leads better score name [a] (RunningBest.turn better score name best a) := by
  rw [RunningBest.turn, if_pos h]
  refine ⟨⟨a, by simp, rfl, rfl⟩, fun b hb => ?_⟩
  rw [List.mem_singleton.1 hb]
  exact irrefl _

theorem leads_foldl (hl : l ≠ []) (hbest : ∀ a ∈ l, better (score a) best.1) :
    Leads better score name l (l.foldl (RunningBest.turn better score name) best) := by
  induction l using List.reverseRecOn with
  | nil => exact absurd rfl hl
  | append_singleton l a ih =>
    rw [List.foldl_append]
    rcases eq_or_ne l [] with rfl | hne
    · exact leads_singleton (hbest a (by simp))
    · exact (ih hne fun b hb => hbest b (List.mem_append_left _ hb)).turn a

end RunningBest
