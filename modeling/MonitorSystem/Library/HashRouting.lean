import Mathlib.Tactic

/-!
# Routing by one key and owning by another

Work is sent to worker `hash r % n`, where `r` is its routing key, and touches the shard
`hash k % n`, where `k` is its shard key.  A shard has a single owner when two pieces of work that
touch the same shard always go to the same worker.  Which pairs of keys guarantee that for *every*
hash function?  Colouring the keys with 0 and 1 shows that nothing but the obvious reasons will
do: `owned_iff`.
-/

namespace HashRouting

variable {α : Type*}

/-- Two pieces of work, with routing keys `r₁`, `r₂` and shard keys `k₁`, `k₂`, that touch the
same shard go to the same worker, whatever the hash function. -/
def Owned (n : ℕ) (k₁ k₂ r₁ r₂ : α) : Prop :=
  ∀ hash : α → ℕ, hash k₁ % n = hash k₂ % n → hash r₁ % n = hash r₂ % n

variable [DecidableEq α]

/-- The colouring that singles out one key. -/
def single (r x : α) : ℕ := if x = r then 1 else 0

theorem single_ne {r x : α} (h : x ≠ r) : single r x = 0 := if_neg h

theorem single_self (r : α) : single r r = 1 := if_pos rfl

/-- A key that neither shard key equals can be singled out: it must not be a routing key. -/
theorem Owned.mem_or_mem {n : ℕ} {k₁ k₂ r₁ r₂ : α} (hn : n ≠ 1) (hr : r₁ ≠ r₂)
    (h : Owned n k₁ k₂ r₁ r₂) : (k₁ = r₁ ∨ k₂ = r₁) ∧ (k₁ = r₂ ∨ k₂ = r₂) := by
  have h01 : 1 % n ≠ 0 % n := by
    rcases n with - | - | n
    · simp
    · exact absurd rfl hn
    · rw [Nat.zero_mod, Nat.mod_eq_of_lt (by omega)]
      exact one_ne_zero
  constructor
  · by_contra hno
    rw [not_or] at hno
    have hsame := h (single r₁) (by rw [single_ne hno.1, single_ne hno.2])
    rw [single_self, single_ne hr.symm] at hsame
    exact h01 hsame
  · by_contra hno
    rw [not_or] at hno
    have hsame := h (single r₂) (by rw [single_ne hno.1, single_ne hno.2])
    rw [single_self, single_ne hr] at hsame
    exact h01 hsame.symm

/-- **Single ownership.**  Shards have one owner for every hash function exactly when there is
one worker, or the work has one routing key, or the two shard keys are the two routing keys, in
either order. -/
theorem owned_iff {n : ℕ} {k₁ k₂ r₁ r₂ : α} :
    Owned n k₁ k₂ r₁ r₂ ↔
      n = 1 ∨ r₁ = r₂ ∨ (k₁ = r₁ ∧ k₂ = r₂) ∨ (k₁ = r₂ ∧ k₂ = r₁) := by
  constructor
  · intro h
    by_cases hn : n = 1
    · exact .inl hn
    by_cases hr : r₁ = r₂
    · exact .inr (.inl hr)
    refine .inr (.inr ?_)
    obtain ⟨h₁, h₂⟩ := h.mem_or_mem hn hr
    rcases h₁ with hk₁ | hk₂
    · refine .inl ⟨hk₁, h₂.resolve_left ?_⟩
      rw [hk₁]
      exact hr
    · refine .inr ⟨h₂.resolve_right ?_, hk₂⟩
      rw [hk₂]
      exact hr
  · rintro (rfl | rfl | ⟨rfl, rfl⟩ | ⟨rfl, rfl⟩) hash hk
    · rw [Nat.mod_one, Nat.mod_one]
    · rfl
    · exact hk
    · exact hk.symm

end HashRouting
