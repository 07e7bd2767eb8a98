import Mathlib.Tactic

/-!
# A loop over rows with a cache

`for (row : rows)`: each turn looks its row up in a cache under the row's name, may emit a message
that depends on the row and on what the cache held, and puts the row into the cache.

The cache that the loop leaves holds the last row of each name (`loop_cache_of_last`) and what it
held under other names (`loop_cache_of_notMem`).  When the names of the rows are distinct the turns
do not see each other: `loop_messages` and `loop_cache_of_mem` say what the loop emits and leaves in
terms of the cache that it started with.
-/

namespace CachedLoop

variable {K R C M : Type*} [DecidableEq K] (nameOf : R → K) (emit : R → Option C → Option M)
  (keep : R → C)

/-- The messages of the loop, and the cache that it leaves. -/
def loop : List R → (K → Option C) → List M × (K → Option C)
  | [], cache => ([], cache)
  | r :: rest, cache =>
    let (messages, cache') := loop rest (Function.update cache (nameOf r) (some (keep r)))
    ((emit r (cache (nameOf r))).toList ++ messages, cache')

theorem loop_cons (r : R) (rest : List R) (cache : K → Option C) :
    loop nameOf emit keep (r :: rest) cache =
      ((emit r (cache (nameOf r))).toList ++
          (loop nameOf emit keep rest (Function.update cache (nameOf r) (some (keep r)))).1,
        (loop nameOf emit keep rest (Function.update cache (nameOf r) (some (keep r)))).2) := rfl

variable {nameOf emit keep} {rows : List R} {cache : K → Option C}

/-- The cache keeps what it holds under other names. -/
theorem loop_cache_of_notMem {k : K} (h : k ∉ rows.map nameOf) :
    (loop nameOf emit keep rows cache).2 k = cache k := by
  induction rows generalizing cache with
  | nil => rfl
  | cons r rest ih =>
    obtain ⟨hne, hrest⟩ := not_or.1 (mt List.mem_cons.2 h)
    rw [loop_cons, ih hrest, Function.update_of_ne hne]

/-- Under each name it holds the last row of that name. -/
theorem loop_cache_of_last {before behind : List R} {r : R}
    (h : ∀ r' ∈ behind, nameOf r' ≠ nameOf r) :
    (loop nameOf emit keep (before ++ r :: behind) cache).2 (nameOf r) = some (keep r) := by
  induction before generalizing cache with
  | nil =>
    have hnotMem : nameOf r ∉ behind.map nameOf := by
      rw [List.mem_map]
      rintro ⟨r', hr', hname⟩
      exact h r' hr' hname
    rw [List.nil_append, loop_cons, loop_cache_of_notMem hnotMem, Function.update_self]
  | cons r' before ih =>
    rw [List.cons_append, loop_cons]
    exact ih

/-- Under the name of a row it holds that row. -/
theorem loop_cache_of_mem {r : R} (hnodup : (rows.map nameOf).Nodup) (hr : r ∈ rows) :
    (loop nameOf emit keep rows cache).2 (nameOf r) = some (keep r) := by
  obtain ⟨before, behind, rfl⟩ := List.append_of_mem hr
  rw [List.map_append, List.map_cons, List.nodup_append, List.nodup_cons, List.mem_map] at hnodup
  exact loop_cache_of_last fun r' hr' hname => hnodup.2.1.1 ⟨r', hr', hname⟩

/-- Every message is one of a row. -/
theorem exists_of_mem_loop {m : M} (h : m ∈ (loop nameOf emit keep rows cache).1) :
    ∃ r ∈ rows, ∃ held, emit r held = some m := by
  induction rows generalizing cache with
  | nil => cases h
  | cons r rest ih =>
    rw [loop_cons] at h
    rcases List.mem_append.1 h with h | h
    · exact ⟨r, List.mem_cons_self, _, Option.mem_toList.1 h⟩
    · obtain ⟨r', hr', held, hemit⟩ := ih h
      exact ⟨r', List.mem_cons_of_mem r hr', held, hemit⟩

/-- Each row is looked up in the cache that the loop started with. -/
theorem loop_messages (hnodup : (rows.map nameOf).Nodup) :
    (loop nameOf emit keep rows cache).1 =
      rows.filterMap fun r => emit r (cache (nameOf r)) := by
  induction rows generalizing cache with
  | nil => rfl
  | cons r rest ih =>
    obtain ⟨hfresh, hrest⟩ := List.nodup_cons.1 hnodup
    have hothers : (rest.filterMap fun r' =>
        emit r' (Function.update cache (nameOf r) (some (keep r)) (nameOf r'))) =
        rest.filterMap fun r' => emit r' (cache (nameOf r')) := by
      refine List.filterMap_congr fun r' hr' => ?_
      rw [Function.update_of_ne]
      exact fun heq => hfresh (heq ▸ List.mem_map_of_mem hr')
    rw [loop_cons, ih hrest, hothers, List.filterMap_cons]
    cases emit r (cache (nameOf r)) <;> rfl

end CachedLoop
