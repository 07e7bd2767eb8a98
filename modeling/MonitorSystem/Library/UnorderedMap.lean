import Mathlib.Tactic

/-!
# Hash maps that are iterated over

A `std::unordered_map` as a program sees it that iterates over it: its entries in the order in
which an iterator meets them, one for each key.  The order is not specified: `m[k] = v` may leave
the entries in any order (`Assigned`), while `erase` keeps the order of the others.

* `find`: the value of a key;
* `eraseIf`: the loop that erases some entries while it iterates;
* `best`: the loop that remembers the key with the highest score so far.
-/

/-- A hash map, in the order of its iterators. -/
structure UnorderedMap (K V : Type*) where
  entries : List (K × V)
  nodup : (entries.map Prod.fst).Nodup

namespace UnorderedMap

variable {K V : Type*}

/-- The map without entries. -/
def empty : UnorderedMap K V := ⟨[], List.nodup_nil⟩

/-- The map holds exactly the entries of a table. -/
def Lists (m : UnorderedMap K V) (table : K → Option V) : Prop :=
  ∀ k v, (k, v) ∈ m.entries ↔ table k = some v

/-! ### Lookup -/

/-- `m.find(k)`, as the value that is found. -/
def find [DecidableEq K] (m : UnorderedMap K V) (k : K) : Option V :=
  (m.entries.find? (·.1 = k)).map (·.2)

theorem find_eq_some [DecidableEq K] {m : UnorderedMap K V} {k : K} {v : V} :
    m.find k = some v ↔ (k, v) ∈ m.entries := by
  obtain ⟨entries, hnodup⟩ := m
  induction entries with
  | nil => simp [find]
  | cons e rest ih =>
    obtain ⟨hfresh, hrest⟩ := List.nodup_cons.1 hnodup
    by_cases hk : e.1 = k
    · subst hk
      have hnone : (e.1, v) ∉ rest := fun hmem =>
        hfresh (List.mem_map.2 ⟨_, hmem, rfl⟩)
      simp [find, hnone, Prod.ext_iff, eq_comm]
    · have hne : (k, v) ≠ e := fun heq => hk (congrArg Prod.fst heq).symm
      have hskip : find ⟨e :: rest, hnodup⟩ k = find ⟨rest, hrest⟩ k := by simp [find, hk]
      rw [hskip, ih hrest, List.mem_cons, or_iff_right hne]

/-! ### Assignment -/

/-- `m[k] = v` leaves `m'`. -/
def Assigned (m : UnorderedMap K V) (k : K) (v : V) (m' : UnorderedMap K V) : Prop :=
  ∀ j w, (j, w) ∈ m'.entries ↔ j = k ∧ w = v ∨ j ≠ k ∧ (j, w) ∈ m.entries

/-- Some map is always left by an assignment. -/
theorem exists_assigned [DecidableEq K] (m : UnorderedMap K V) (k : K) (v : V) :
    ∃ m', Assigned m k v m' := by
  have hfresh : k ∉ (m.entries.filter (·.1 ≠ k)).map Prod.fst := by
    intro hk
    obtain ⟨e, he, rfl⟩ := List.mem_map.1 hk
    simpa using (List.mem_filter.1 he).2
  have hrest : ((m.entries.filter (·.1 ≠ k)).map Prod.fst).Nodup :=
    m.nodup.sublist (List.filter_sublist.map _)
  refine ⟨⟨(k, v) :: m.entries.filter (·.1 ≠ k), List.nodup_cons.2 ⟨hfresh, hrest⟩⟩, ?_⟩
  intro j w
  simp [and_comm]

/-- An assignment to the map is an update of the table. -/
theorem Lists.assigned [DecidableEq K] {m m' : UnorderedMap K V} {table : K → Option V} {k : K}
    {v : V} (hm : m.Lists table) (h : Assigned m k v m') :
    m'.Lists (Function.update table k (some v)) := by
  intro j w
  rw [h, hm]
  by_cases hj : j = k
  · subst hj
    simp [eq_comm]
  · simp [hj]

/-! ### Erasure -/

/-- `for (it = begin; it != end;) if (p(*it)) it = erase(it); else ++it;` -/
def eraseLoop (p : K × V → Bool) : List (K × V) → List (K × V)
  | [] => []
  | e :: rest => if p e then eraseLoop p rest else e :: eraseLoop p rest

theorem eraseLoop_eq_filter (p : K × V → Bool) (l : List (K × V)) :
    eraseLoop p l = l.filter fun e => !p e := by
  induction l with
  | nil => rfl
  | cons e rest ih =>
    rw [eraseLoop, List.filter_cons, ih]
    cases p e <;> rfl

/-- What the loop leaves. -/
def eraseIf (p : K × V → Bool) (m : UnorderedMap K V) : UnorderedMap K V where
  entries := eraseLoop p m.entries
  nodup := by
    rw [eraseLoop_eq_filter]
    exact m.nodup.sublist (List.filter_sublist.map _)

theorem mem_eraseIf {p : K × V → Bool} {m : UnorderedMap K V} {e : K × V} :
    e ∈ (m.eraseIf p).entries ↔ e ∈ m.entries ∧ p e = false := by
  show e ∈ eraseLoop p m.entries ↔ _
  rw [eraseLoop_eq_filter, List.mem_filter, Bool.not_eq_true']

/-! ### The best entry -/

section Best

variable {S : Type*} [LinearOrder S] (score : V → S)

/-- One turn of the loop. -/
def better (best : K × S) (e : K × V) : K × S :=
  if best.2 < score e.2 then (e.1, score e.2) else best

/-- The key that the loop ends with, when it starts with `start`. -/
def best (start : K × S) (m : UnorderedMap K V) : K := (m.entries.foldl (better score) start).1

/-- The loop ends with what it started with or with the key and the score of an entry, and no
score on the way is higher than the one it ends with. -/
theorem foldl_better (start : K × S) (l : List (K × V)) :
    let result := l.foldl (better score) start
    (result = start ∨ ∃ e ∈ l, result = (e.1, score e.2)) ∧
      start.2 ≤ result.2 ∧ ∀ e ∈ l, score e.2 ≤ result.2 := by
  induction l generalizing start with
  | nil => exact ⟨.inl rfl, le_rfl, fun e he => by cases he⟩
  | cons e l ih =>
    obtain ⟨hfrom, hstart, hall⟩ := ih (better score start e)
    have hturn : start.2 ≤ (better score start e).2 ∧ score e.2 ≤ (better score start e).2 := by
      unfold better
      split_ifs with hlt
      · exact ⟨hlt.le, le_rfl⟩
      · exact ⟨le_rfl, not_lt.1 hlt⟩
    refine ⟨?_, hturn.1.trans hstart, ?_⟩
    · rcases hfrom with heq | ⟨e', he', heq⟩
      · rw [List.foldl_cons, heq]
        unfold better
        split_ifs
        · exact .inr ⟨e, List.mem_cons_self, rfl⟩
        · exact .inl rfl
      · exact .inr ⟨e', List.mem_cons_of_mem e he', heq⟩
    · intro e' he'
      rcases List.mem_cons.1 he' with rfl | he'
      · exact hturn.2.trans hstart
      · exact hall e' he'

/-- With a starting score below all others, the loop finds an entry with the highest score. -/
theorem best_spec {start : K × S} {m : UnorderedMap K V}
    (hlow : ∀ e ∈ m.entries, start.2 < score e.2) (hne : m.entries ≠ []) :
    ∃ v, (m.best score start, v) ∈ m.entries ∧ ∀ e ∈ m.entries, score e.2 ≤ score v := by
  obtain ⟨hfrom, -, hall⟩ := foldl_better score start m.entries
  obtain ⟨e₀, he₀⟩ := List.exists_mem_of_ne_nil _ hne
  rcases hfrom with heq | ⟨e, he, heq⟩
  · have hle := hall e₀ he₀
    rw [heq] at hle
    exact absurd hle (not_le.2 (hlow e₀ he₀))
  · refine ⟨e.2, ?_, fun e' he' => ?_⟩
    · rw [best, heq]
      exact he
    · have hle := hall e' he'
      rwa [heq] at hle

/-- The entry that the loop ends with is the first one with the highest score. -/
theorem best_first {start : K × S} {m : UnorderedMap K V}
    (hlow : ∀ e ∈ m.entries, start.2 < score e.2) (hne : m.entries ≠ []) :
    ∃ before e after, m.entries = before ++ e :: after ∧ m.best score start = e.1 ∧
      (∀ a ∈ before, score a.2 < score e.2) ∧ ∀ a ∈ after, score a.2 ≤ score e.2 := by
  suffices hloop : ∀ l : List (K × V), (∀ e ∈ l, start.2 < score e.2) → l ≠ [] →
      ∃ before e after, l = before ++ e :: after ∧
        l.foldl (better score) start = (e.1, score e.2) ∧
        (∀ a ∈ before, score a.2 < score e.2) ∧ ∀ a ∈ after, score a.2 ≤ score e.2 by
    obtain ⟨before, e, after, hl, hbest, hbounds⟩ := hloop m.entries hlow hne
    exact ⟨before, e, after, hl, congrArg Prod.fst hbest, hbounds⟩
  intro l hlow hne
  induction l using List.reverseRecOn with
  | nil => exact absurd rfl hne
  | append_singleton l a ih =>
    rw [List.foldl_append, List.foldl_cons, List.foldl_nil]
    rcases eq_or_ne l [] with rfl | hl
    · refine ⟨[], a, [], rfl, ?_, nofun, nofun⟩
      rw [List.foldl_nil, better, if_pos (hlow a (by simp))]
    · obtain ⟨before, e, after, rfl, hbest, hbefore, hafter⟩ :=
        ih (fun e he => hlow e (List.mem_append_left _ he)) hl
      rw [hbest, better]
      split_ifs with hlt
      · -- the last entry takes the lead
        refine ⟨before ++ e :: after, a, [], rfl, rfl, fun b hb => ?_, nofun⟩
        rcases List.mem_append.1 hb with hb | hb
        · exact (hbefore b hb).trans hlt
        rcases List.mem_cons.1 hb with rfl | hb
        · exact hlt
        · exact (hafter b hb).trans_lt hlt
      · refine ⟨before, e, after ++ [a], by simp, rfl, hbefore, fun b hb => ?_⟩
        rcases List.mem_append.1 hb with hb | hb
        · exact hafter b hb
        · rw [List.mem_singleton.1 hb]
          exact not_lt.1 hlt

theorem best_of_nil {start : K × S} {m : UnorderedMap K V} (h : m.entries = []) :
    m.best score start = start.1 := by
  rw [best, h]
  rfl

end Best

end UnorderedMap
