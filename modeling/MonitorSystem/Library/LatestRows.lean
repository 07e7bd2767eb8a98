import Mathlib.Tactic

/-!
# The latest row of each group

The usual way to ask for the latest row of each group is to join the rows with the greatest stamp
of their group.  The join has the rows whose stamp no row of their group exceeds
(`joinLatest_eq_filter`); nothing makes the stamps of a group different.

`groups_perm_iff` says when the join has one row for each group: no two rows of a group share a
stamp that is the greatest of the group.
-/

namespace LatestRows

variable {α κ τ : Type*} [DecidableEq κ] [LinearOrder τ] (group : α → κ) (stamp : α → τ)

/-- The groups, each of them once. -/
def groups (rows : List α) : List κ := (rows.map group).dedup

/-- Each group with its greatest stamp. -/
def greatest (rows : List α) : List (κ × Option τ) :=
  (groups group rows).map fun k => (k, ((rows.filter (group · = k)).map stamp).max?)

/-- The rows joined with the greatest stamp of their group. -/
def joinLatest (rows : List α) : List α :=
  rows.flatMap fun a =>
    ((greatest group stamp rows).filter fun p => group a = p.1 ∧ some (stamp a) = p.2).map
      fun _ => a

/-- No row of the group has a greater stamp. -/
def IsLatest (rows : List α) (a : α) : Prop := ∀ b ∈ rows, group b = group a → stamp b ≤ stamp a

instance (rows : List α) (a : α) : Decidable (IsLatest group stamp rows a) :=
  inferInstanceAs (Decidable (∀ b ∈ rows, group b = group a → stamp b ≤ stamp a))

/-- Of two rows of a group with the same stamp, neither is the latest. -/
def LatestUnique (rows : List α) : Prop :=
  rows.Pairwise fun a b => group a = group b → stamp a = stamp b →
    ∃ c ∈ rows, group c = group a ∧ stamp a < stamp c

instance (rows : List α) : Decidable (LatestUnique group stamp rows) :=
  inferInstanceAs (Decidable (rows.Pairwise fun a b => group a = group b → stamp a = stamp b →
    ∃ c ∈ rows, group c = group a ∧ stamp a < stamp c))

variable {group stamp} {rows : List α} {a : α}

theorem mem_groups {k : κ} : k ∈ groups group rows ↔ ∃ a ∈ rows, group a = k := by
  rw [groups, List.mem_dedup, List.mem_map]

theorem isLatest_iff_max? (ha : a ∈ rows) : IsLatest group stamp rows a ↔
    some (stamp a) = ((rows.filter (group · = group a)).map stamp).max? := by
  have hmem : stamp a ∈ (rows.filter (group · = group a)).map stamp :=
    List.mem_map_of_mem (List.mem_filter.2 ⟨ha, decide_eq_true rfl⟩)
  rw [eq_comm, List.max?_eq_some_iff, and_iff_right hmem]
  simp only [IsLatest, List.mem_map, List.mem_filter, decide_eq_true_eq]
  exact ⟨fun h _ ⟨b, ⟨hb, hgroup⟩, hstamp⟩ => hstamp ▸ h b hb hgroup,
    fun h b hb hgroup => h _ ⟨b, ⟨hb, hgroup⟩, rfl⟩⟩

/-- A row finds the entry of its group, and no other. -/
theorem filter_greatest (ha : a ∈ rows) :
    ((greatest group stamp rows).filter fun p => group a = p.1 ∧ some (stamp a) = p.2).map
      (fun _ => a) = if IsLatest group stamp rows a then [a] else [] := by
  have hkey : (groups group rows).filter (fun k => group a = k) = [group a] := by
    have hcount : (groups group rows).count (group a) = 1 :=
      List.count_eq_one_of_mem (List.nodup_dedup _) (mem_groups.2 ⟨a, ha, rfl⟩)
    simpa [hcount, eq_comm] using List.filter_eq (l := groups group rows) (group a)
  have hboth : ((groups group rows).filter fun k =>
      group a = k ∧ some (stamp a) = ((rows.filter (group · = k)).map stamp).max?) =
      [group a].filter fun k => some (stamp a) = ((rows.filter (group · = k)).map stamp).max? := by
    rw [← hkey, List.filter_filter]
    exact List.filter_congr fun k _ => by simp [Bool.and_comm]
  rw [greatest, List.filter_map, List.map_map]
  simp only [Function.comp_def, hboth]
  by_cases hlatest : IsLatest group stamp rows a
  · simp [hlatest, (isLatest_iff_max? ha).1 hlatest]
  · simp [hlatest, mt (isLatest_iff_max? ha).2 hlatest]

theorem flatMap_ite (p : α → Prop) [DecidablePred p] (l : List α) :
    (l.flatMap fun a => if p a then [a] else []) = l.filter fun a => p a := by
  induction l with
  | nil => rfl
  | cons a l ih =>
    rw [List.flatMap_cons, ih]
    by_cases h : p a <;> simp [h]

/-- The join has the latest rows of the groups. -/
theorem joinLatest_eq_filter :
    joinLatest group stamp rows = rows.filter fun a => IsLatest group stamp rows a := by
  rw [← flatMap_ite]
  exact List.flatMap_congr fun a ha => filter_greatest ha

theorem mem_joinLatest :
    a ∈ joinLatest group stamp rows ↔ a ∈ rows ∧ IsLatest group stamp rows a := by
  rw [joinLatest_eq_filter, List.mem_filter, decide_eq_true_eq]

variable (stamp) in
/-- Every group has a latest row. -/
theorem exists_mem_joinLatest {k : κ} (hk : k ∈ groups group rows) :
    ∃ a ∈ joinLatest group stamp rows, group a = k := by
  obtain ⟨b, hb, rfl⟩ := mem_groups.1 hk
  obtain ⟨t, ht⟩ : ∃ t, ((rows.filter (group · = group b)).map stamp).max? = some t := by
    refine Option.isSome_iff_exists.1 (List.isSome_max?_of_mem (a := stamp b) ?_)
    exact List.mem_map_of_mem (List.mem_filter.2 ⟨hb, decide_eq_true rfl⟩)
  obtain ⟨a, ha, rfl⟩ := List.mem_map.1 (List.max?_eq_some_iff.1 ht).1
  obtain ⟨ha, hgroup⟩ := List.mem_filter.1 ha
  have hgroup : group a = group b := of_decide_eq_true hgroup
  refine ⟨a, mem_joinLatest.2 ⟨ha, (isLatest_iff_max? ha).2 ?_⟩, hgroup⟩
  rw [hgroup, ht]

theorem nodup_joinLatest_iff :
    ((joinLatest group stamp rows).map group).Nodup ↔ LatestUnique group stamp rows := by
  rw [joinLatest_eq_filter, List.Nodup, List.pairwise_map, List.pairwise_filter, LatestUnique]
  refine List.Pairwise.iff_of_mem fun {a b} ha hb => ?_
  simp only [decide_eq_true_eq]
  constructor
  · intro h hgroup hstamp
    by_contra hgreater
    push Not at hgreater
    have hlatest : IsLatest group stamp rows a := fun c hc hcgroup => hgreater c hc hcgroup
    refine h hlatest (fun c hc hcgroup => ?_) hgroup
    rw [← hstamp]
    exact hlatest c hc (hcgroup.trans hgroup.symm)
  · intro h hlatest hlatest' hgroup
    obtain ⟨c, hc, hcgroup, hlt⟩ := h hgroup
      (le_antisymm (hlatest' a ha hgroup) (hlatest b hb hgroup.symm))
    exact absurd (hlatest c hc hcgroup) hlt.not_ge

/-- In a group whose stamps grow, the last row is the latest. -/
theorem filter_joinLatest_of_pairwise {k : κ}
    (h : (rows.filter (group · = k)).Pairwise (stamp · < stamp ·)) :
    (joinLatest group stamp rows).filter (group · = k) =
      (rows.filter (group · = k)).getLast?.toList := by
  have hmem {b : α} : b ∈ rows.filter (group · = k) ↔ b ∈ rows ∧ group b = k := by
    rw [List.mem_filter, decide_eq_true_eq]
  rw [joinLatest_eq_filter, List.filter_comm]
  generalize hown : rows.filter (group · = k) = own at h hmem
  rcases List.eq_nil_or_concat own with rfl | ⟨front, last, rfl⟩
  · rfl
  · rw [List.concat_eq_append] at h hmem ⊢
    obtain ⟨-, -, hfront⟩ := List.pairwise_append.1 h
    have hlt : ∀ b ∈ front, stamp b < stamp last := fun b hb =>
      hfront b hb last (List.mem_singleton_self _)
    have hlast := hmem.1 (List.mem_append_right front (List.mem_singleton_self last))
    rw [List.filter_append, List.filter_eq_nil_iff.2, List.filter_eq_self.2,
      List.getLast?_concat]
    · rfl
    · intro b hb
      rw [List.mem_singleton.1 hb, decide_eq_true_eq]
      intro c hc hgroup
      rcases List.mem_append.1 (hmem.2 ⟨hc, hgroup.trans hlast.2⟩) with hc | hc
      · exact (hlt c hc).le
      · exact (congrArg stamp (List.mem_singleton.1 hc)).le
    · intro b hb hlatest
      have hgroup := (hmem.1 (List.mem_append_left _ hb)).2
      exact (hlt b hb).not_ge
        (of_decide_eq_true hlatest last hlast.1 (hlast.2.trans hgroup.symm))

/-- **One row for each group.**  The join has one row for each group if and only if of two rows of
a group with the same stamp neither is the latest. -/
theorem groups_perm_iff :
    ((joinLatest group stamp rows).map group).Perm (groups group rows) ↔
      LatestUnique group stamp rows := by
  rw [← nodup_joinLatest_iff]
  refine ⟨fun h => h.nodup_iff.2 (List.nodup_dedup _), fun h =>
    (List.perm_ext_iff_of_nodup h (List.nodup_dedup _)).2 fun k => ⟨fun hk => ?_, fun hk => ?_⟩⟩
  · obtain ⟨a, ha, rfl⟩ := List.mem_map.1 hk
    exact mem_groups.2 ⟨a, (mem_joinLatest.1 ha).1, rfl⟩
  · obtain ⟨a, ha, rfl⟩ := exists_mem_joinLatest stamp hk
    exact List.mem_map_of_mem ha

end LatestRows
