import Mathlib.Tactic

/-!
# The hash map of the eBPF subsystem

`bpf_map_lookup_elem` returns a pointer to the value of a key, and `bpf_map_update_elem` with
`BPF_ANY` *replaces* the record of a key: a pointer obtained before keeps pointing to the old
record, and what is written through it is no longer in the map.  Records are numbered in the order
of their creation, so that a pointer is the number of a record.  A map holds at most `maxEntries`
keys; an update that would need one more fails and changes nothing.
-/

/-- A map from keys to records, each with its number. -/
structure BpfMap (K V : Type*) where
  maxEntries : ℕ
  keys : List K := []
  record : K → Option (ℕ × V) := fun _ => none
  created : ℕ := 0

namespace BpfMap

open Function (update)

variable {K V : Type*} [DecidableEq K]

/-- `bpf_map_lookup_elem`. -/
def lookupElem (m : BpfMap K V) (k : K) : Option ℕ := (m.record k).map Prod.fst

/-- The value of a key, as a reader of the map sees it. -/
def value (m : BpfMap K V) (k : K) : Option V := (m.record k).map Prod.snd

/-- `bpf_map_update_elem` with `BPF_ANY`. -/
def updateElem (m : BpfMap K V) (k : K) (v : V) : BpfMap K V :=
  if (m.record k).isSome then
    { m with record := update m.record k (some (m.created, v)), created := m.created + 1 }
  else if m.keys.length < m.maxEntries then
    { m with
      keys := k :: m.keys
      record := update m.record k (some (m.created, v))
      created := m.created + 1 }
  else m

/-- Apply `f` through the pointer `r`, which a lookup of `k` returned. -/
def modify (m : BpfMap K V) (k : K) (r : ℕ) (f : V → V) : BpfMap K V :=
  match m.record k with
  | some (r', v) =>
    if r' = r then { m with record := update m.record k (some (r, f v)) } else m
  | none => m

/-- The keys listed are those with a record, each once, and there is room for them. -/
structure WF (m : BpfMap K V) : Prop where
  mem_keys : ∀ k, k ∈ m.keys ↔ (m.record k).isSome
  nodup : m.keys.Nodup
  room : m.keys.length ≤ m.maxEntries

variable {m : BpfMap K V} {k : K} {r : ℕ} {v : V} {f : V → V}

omit [DecidableEq K] in
theorem lookupElem_eq_none : m.lookupElem k = none ↔ m.record k = none := by
  simp [lookupElem]

omit [DecidableEq K] in
theorem lookupElem_eq_some : m.lookupElem k = some r ↔ ∃ v, m.record k = some (r, v) := by
  simp [lookupElem, eq_comm]

omit [DecidableEq K] in
theorem value_eq_some : m.value k = some v ↔ ∃ r, m.record k = some (r, v) := by
  simp [value]

/-- Writing through a pointer to the current record. -/
theorem record_modify_of_current (h : m.record k = some (r, v)) :
    (m.modify k r f).record = update m.record k (some (r, f v)) := by
  simp [modify, h]

/-- Writing through any pointer keeps the numbers of the records. -/
theorem record_modify_cases (m : BpfMap K V) (k : K) (r : ℕ) (f : V → V) :
    (m.modify k r f).record = m.record ∨
      ∃ v, m.record k = some (r, v) ∧
        (m.modify k r f).record = update m.record k (some (r, f v)) := by
  cases h : m.record k with
  | none => exact .inl (by simp [modify, h])
  | some p =>
    obtain ⟨r', v⟩ := p
    by_cases hr : r' = r
    · subst hr
      exact .inr ⟨v, rfl, record_modify_of_current h⟩
    · exact .inl (by simp [modify, h, hr])

/-- A record read after a write through a pointer was there before, with its old value or, for the
key of the pointer, with the value that was written over. -/
theorem record_of_modify {j : K} {r' : ℕ} {v' : V} (h : (m.modify k r f).record j = some (r', v')) :
    ∃ v, m.record j = some (r', v) ∧ (v' = v ∨ j = k ∧ v' = f v) := by
  rcases record_modify_cases m k r f with heq | ⟨v, hv, heq⟩
  · exact ⟨v', heq ▸ h, .inl rfl⟩
  · rw [heq] at h
    by_cases hj : j = k
    · subst hj
      rw [Function.update_self] at h
      cases h
      exact ⟨v, hv, .inr ⟨rfl, rfl⟩⟩
    · rw [Function.update_of_ne hj] at h
      exact ⟨v', h, .inl rfl⟩

/-- Writing through a pointer neither creates nor removes a record. -/
theorem isSome_record_modify (m : BpfMap K V) (k : K) (r : ℕ) (f : V → V) (j : K) :
    ((m.modify k r f).record j).isSome = (m.record j).isSome := by
  rcases record_modify_cases m k r f with heq | ⟨v, hv, heq⟩
  · rw [heq]
  · rw [heq]
    by_cases hj : j = k
    · simp [hj, hv]
    · rw [Function.update_of_ne hj]

theorem keys_modify (m : BpfMap K V) (k : K) (r : ℕ) (f : V → V) :
    (m.modify k r f).keys = m.keys ∧ (m.modify k r f).maxEntries = m.maxEntries := by
  unfold modify
  split
  · split_ifs <;> exact ⟨rfl, rfl⟩
  · exact ⟨rfl, rfl⟩

/-- An update replaces a record, or creates one while there is room. -/
theorem record_updateElem (h : (m.record k).isSome ∨ m.keys.length < m.maxEntries) :
    (m.updateElem k v).record = update m.record k (some (m.created, v)) := by
  unfold updateElem
  split_ifs with hk hroom
  · rfl
  · rfl
  · exact absurd h (by simp [hk, hroom])

/-- An update replaces a record, or creates one, or changes nothing. -/
theorem record_updateElem_cases (m : BpfMap K V) (k : K) (v : V) :
    (m.updateElem k v).record = update m.record k (some (m.created, v)) ∨
      (m.updateElem k v).record = m.record := by
  unfold updateElem
  split_ifs
  · exact .inl rfl
  · exact .inl rfl
  · exact .inr rfl

theorem wf_modify (hm : m.WF) : (m.modify k r f).WF := by
  obtain ⟨hkeys, hmax⟩ := keys_modify m k r f
  refine ⟨fun j => ?_, hkeys ▸ hm.nodup, by rw [hkeys, hmax]; exact hm.room⟩
  rw [hkeys, hm.mem_keys, isSome_record_modify]

theorem wf_updateElem (hm : m.WF) : (m.updateElem k v).WF := by
  have hpresent : ∀ {j : K}, j ≠ k → (update m.record k (some (m.created, v)) j).isSome =
      (m.record j).isSome := fun hj => by rw [Function.update_of_ne hj]
  unfold updateElem
  split_ifs with hk hroom
  · refine ⟨fun j => ?_, hm.nodup, hm.room⟩
    by_cases hj : j = k
    · simp [hj, (hm.mem_keys k).2 hk]
    · rw [hpresent hj]
      exact hm.mem_keys j
  · have hnew : k ∉ m.keys := fun hmem => hk ((hm.mem_keys k).1 hmem)
    refine ⟨fun j => ?_, List.nodup_cons.2 ⟨hnew, hm.nodup⟩, hroom⟩
    by_cases hj : j = k
    · simp [hj]
    · rw [hpresent hj, List.mem_cons, hm.mem_keys j]
      simp [hj]
  · exact hm

/-- A map whose keys lie in a set of at most `maxEntries` elements always has room for another
key of the set. -/
theorem room_of_subset {s : Finset K} (hm : m.WF) (hkeys : ∀ j ∈ m.keys, j ∈ s)
    (hs : s.card ≤ m.maxEntries) (hk : k ∈ s) (hnew : m.record k = none) :
    m.keys.length < m.maxEntries := by
  have hnot : k ∉ m.keys := fun hmem => by simpa [hnew] using (hm.mem_keys k).1 hmem
  have hlt : m.keys.toFinset.card < s.card := by
    refine Finset.card_lt_card ⟨fun j hj => hkeys j (List.mem_toFinset.1 hj), fun hsub => ?_⟩
    exact hnot (List.mem_toFinset.1 (hsub hk))
  rw [List.toFinset_card_of_nodup hm.nodup] at hlt
  omega

end BpfMap
