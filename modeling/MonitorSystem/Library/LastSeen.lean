import Mathlib.Tactic

/-!
# A cache over a sequence of calls

Each call reads some rows with names, and puts into a cache, under the name of each row, what it
keeps of that row (`Tracks`).  Before a call the cache then holds, for every name that an earlier
call has read, what was kept of its last row (`Previous`), and nothing for other names.
-/

namespace LastSeen

variable {K R C : Type*}

/-- The row `r` that call `i` read under the name `k` is the last one of that name before call
`n`. -/
structure Previous (rows : ℕ → List (K × R)) (n : ℕ) (k : K) (i : ℕ) (r : R) : Prop where
  lt : i < n
  mem : (k, r) ∈ rows i
  gap : ∀ j, i < j → j < n → k ∉ (rows j).map Prod.fst

/-- `cache n` is the cache before call `n`, and `keep n k r` what that call keeps of the row `r`
with the name `k`. -/
structure Tracks (rows : ℕ → List (K × R)) (keep : ℕ → K → R → C) (cache : ℕ → K → Option C) :
    Prop where
  start : ∀ k, cache 0 k = none
  seen : ∀ n k r, (k, r) ∈ rows n → cache (n + 1) k = some (keep n k r)
  unseen : ∀ n k, k ∉ (rows n).map Prod.fst → cache (n + 1) k = cache n k

variable {rows : ℕ → List (K × R)} {keep : ℕ → K → R → C} {cache : ℕ → K → Option C} {n i : ℕ}
  {k : K} {r : R}

/-- The row of a call is the last one before the next call. -/
theorem Previous.of_mem (h : (k, r) ∈ rows n) : Previous rows (n + 1) k n r :=
  ⟨n.lt_succ_self, h, fun j hj hjn => by omega⟩

/-- It stays the last one while no call reads the name. -/
theorem Previous.succ (h : Previous rows n k i r) (hk : k ∉ (rows n).map Prod.fst) :
    Previous rows (n + 1) k i r where
  lt := h.lt.trans n.lt_succ_self
  mem := h.mem
  gap j hij hj := by
    rcases Nat.lt_succ_iff_lt_or_eq.1 hj with hj | rfl
    · exact h.gap j hij hj
    · exact hk

/-- Before the next call, the last row is one of this call or an older one. -/
theorem Previous.succ_cases (h : Previous rows (n + 1) k i r) :
    i = n ∧ (k, r) ∈ rows n ∨ k ∉ (rows n).map Prod.fst ∧ Previous rows n k i r := by
  rcases Nat.lt_succ_iff_lt_or_eq.1 h.lt with hi | rfl
  · exact .inr ⟨h.gap n hi n.lt_succ_self, hi, h.mem,
      fun j hij hj => h.gap j hij (hj.trans n.lt_succ_self)⟩
  · exact .inl ⟨rfl, h.mem⟩

/-- A name that was read has a last row. -/
theorem exists_previous_of_mem (h : (k, r) ∈ rows i) (hi : i < n) :
    ∃ j r', Previous rows n k j r' := by
  induction n with
  | zero => exact absurd hi i.not_lt_zero
  | succ n ih =>
    by_cases hk : k ∈ (rows n).map Prod.fst
    · obtain ⟨⟨_, r'⟩, hmem, rfl⟩ := List.mem_map.1 hk
      exact ⟨n, r', .of_mem hmem⟩
    · rcases Nat.lt_succ_iff_lt_or_eq.1 hi with hi | rfl
      · obtain ⟨j, r', hprev⟩ := ih hi
        exact ⟨j, r', hprev.succ hk⟩
      · exact absurd (List.mem_map_of_mem h) hk

/-- There is one last call. -/
theorem Previous.index_unique {i' : ℕ} {r' : R} (h : Previous rows n k i r)
    (h' : Previous rows n k i' r') : i = i' := by
  rcases lt_trichotomy i i' with hlt | heq | hlt
  · exact absurd (List.mem_map_of_mem h'.mem) (h.gap i' hlt h'.lt)
  · exact heq
  · exact absurd (List.mem_map_of_mem h.mem) (h'.gap i hlt h.lt)

namespace Tracks

/-- The cache holds what was kept of the last row. -/
theorem eq_some (htracks : Tracks rows keep cache) (h : Previous rows n k i r) :
    cache n k = some (keep i k r) := by
  induction n with
  | zero => exact absurd h.lt i.not_lt_zero
  | succ n ih =>
    obtain ⟨rfl, hmem⟩ | ⟨hk, hold⟩ := h.succ_cases
    · exact htracks.seen i k r hmem
    · rw [htracks.unseen n k hk, ih hold]

/-- What the cache holds was kept of a last row. -/
theorem exists_previous (htracks : Tracks rows keep cache) {c : C} (h : cache n k = some c) :
    ∃ i r, Previous rows n k i r ∧ c = keep i k r := by
  induction n with
  | zero =>
    rw [htracks.start] at h
    cases h
  | succ n ih =>
    by_cases hk : k ∈ (rows n).map Prod.fst
    · obtain ⟨⟨_, r⟩, hmem, rfl⟩ := List.mem_map.1 hk
      rw [htracks.seen n _ r hmem] at h
      exact ⟨n, r, .of_mem hmem, (Option.some.inj h).symm⟩
    · rw [htracks.unseen n k hk] at h
      obtain ⟨i, r, hprev, hc⟩ := ih h
      exact ⟨i, r, hprev.succ hk, hc⟩

end Tracks

end LastSeen
