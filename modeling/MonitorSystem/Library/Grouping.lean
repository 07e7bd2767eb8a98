import Mathlib.Tactic

/-!
# Groups of a list

The elements of a list fall into groups by a key.  `GroupedInto` says that a list has one entry for
each group that is not empty, in the order of the keys.  The groups together are the list
(`IsKeys.flatMap_perm`).
-/

namespace Grouping

variable {α β γ κ : Type*}

/-! ### The groups -/

section Group

variable [DecidableEq κ] (key : α → κ)

/-- The elements with a key. -/
def group (l : List α) (k : κ) : List α := l.filter fun a => key a = k

variable {key} {l l' : List α} {k : κ}

theorem mem_group {a : α} : a ∈ group key l k ↔ a ∈ l ∧ key a = k := by
  simp [group]

theorem group_perm (h : l.Perm l') (k : κ) : (group key l k).Perm (group key l' k) := h.filter _

theorem group_map (f : γ → α) (l : List γ) (k : κ) :
    group key (l.map f) k = (group (fun a => key (f a)) l k).map f := by
  simp [group, List.filter_map, Function.comp_def]

/-- The groups of some keys, one after the other, are the elements with these keys. -/
theorem flatMap_group_perm {keys : List κ} (hnodup : keys.Nodup) :
    (keys.flatMap (group key l)).Perm (l.filter fun a => key a ∈ keys) := by
  induction keys with
  | nil => simp
  | cons k ks ih =>
    obtain ⟨hk, hks⟩ := List.nodup_cons.1 hnodup
    have hfirst : (l.filter fun a => key a ∈ k :: ks).filter (fun a => key a = k) =
        group key l k := by
      rw [List.filter_filter, group]
      exact List.filter_congr fun a _ => by simp +contextual
    have hothers : (l.filter fun a => key a ∈ k :: ks).filter (fun a => !decide (key a = k)) =
        l.filter fun a => key a ∈ ks := by
      rw [List.filter_filter]
      refine List.filter_congr fun a _ => ?_
      by_cases ha : key a = k
      · simp [ha, hk]
      · simp [ha]
    calc (k :: ks).flatMap (group key l)
        = group key l k ++ ks.flatMap (group key l) := List.flatMap_cons
      List.Perm _ (group key l k ++ l.filter fun a => key a ∈ ks) := (ih hks).append_left _
      List.Perm _ (l.filter fun a => key a ∈ k :: ks) := by
        rw [← hfirst, ← hothers]
        exact List.filter_append_perm _ _

end Group

/-! ### One entry for each group -/

section Keys

variable [LinearOrder κ] (key : α → κ)

/-- The keys of the groups that are not empty, in increasing order. -/
structure IsKeys (l : List α) (keys : List κ) : Prop where
  sorted : keys.Pairwise (· < ·)
  mem_iff : ∀ k, k ∈ keys ↔ ∃ a ∈ l, key a = k

/-- A list of entries, one for each group that is not empty, in the order of the keys; `Entry` says
how an entry is made of the key and the group. -/
def GroupedInto (Entry : κ → List α → β → Prop) (l : List α) (entries : List β) : Prop :=
  ∃ keys, IsKeys key l keys ∧ List.Forall₂ (fun k b => Entry k (group key l k) b) keys entries

variable {key} {l : List α} {keys : List κ}

theorem IsKeys.nodup (h : IsKeys key l keys) : keys.Nodup := h.sorted.imp fun hlt => hlt.ne

/-- Every element lies in one of the groups, and in one only. -/
theorem IsKeys.flatMap_perm (h : IsKeys key l keys) : (keys.flatMap (group key l)).Perm l := by
  have hall : (l.filter fun a => key a ∈ keys) = l :=
    List.filter_eq_self.2 fun a ha => decide_eq_true ((h.mem_iff _).2 ⟨a, ha, rfl⟩)
  have hperm : (keys.flatMap (group key l)).Perm (l.filter fun a => key a ∈ keys) :=
    flatMap_group_perm h.nodup
  rwa [hall] at hperm

end Keys

/-! ### Means -/

section Mean

variable {F : Type*} [DivisionRing F]

/-- The arithmetic mean. -/
def mean (l : List F) : F := l.sum / l.length

theorem mean_perm {l l' : List F} (h : l.Perm l') : mean l = mean l' := by
  rw [mean, mean, h.sum_eq, h.length_eq]

theorem mean_map_zero {f : α → F} {l : List α} (h : ∀ a ∈ l, f a = 0) : mean (l.map f) = 0 := by
  rw [List.map_congr_left h, mean]
  simp

end Mean

end Grouping
