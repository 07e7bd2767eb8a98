import MonitorSystem.Library.LastSeen

/-!
# Rates of counters that may be reset

Each call reads counters of 64 bits under some names, and reports for each counter its growth since
the last reading of the name, times a unit, divided by the time in between.  The growth is a
difference modulo `2 ^ 64`.

A rate is plausible when it is not larger than the growth allows, where a counter that has decreased
counts from zero.  The rates of all calls are plausible if and only if no counter decreases between
two readings at different times (`plausible_iff`).  Rates that are cut to integers lose less than
one for each unit of time (`sum_cut_rates`).
-/

namespace CounterRates

open LastSeen (Previous Tracks)

/-- By how much a counter has grown, if it was reset to zero in case that it is smaller now. -/
def allowed (old new : UInt64) : ℕ := if old ≤ new then new.toNat - old.toNat else new.toNat

theorem allowed_le (old new : UInt64) : allowed old new ≤ new.toNat := by
  rw [allowed]
  split_ifs
  · exact Nat.sub_le _ _
  · exact le_rfl

/-- The difference is never what a reset allows. -/
theorem toNat_sub_le_allowed_iff (old new : UInt64) :
    (new - old).toNat ≤ allowed old new ↔ old ≤ new := by
  have hold := old.toNat_lt
  have hnew := new.toNat_lt
  rw [allowed, UInt64.toNat_sub]
  simp only [UInt64.le_iff_toNat_le]
  split_ifs with hle
  · simp only [hle, iff_true]
    omega
  · simp only [hle, iff_false]
    omega

/-- What the calls read, the counters in it with their units, and the times of the calls. -/
structure Sampling (K R Φ : Type*) where
  readings : ℕ → List (K × R)
  counter : R → Φ → UInt64
  unit : Φ → ℚ
  unit_pos : ∀ φ, 0 < unit φ
  time : ℕ → ℚ

namespace Sampling

variable {K R Φ : Type*} (s : Sampling K R Φ)

/-- The rate that call `i` reports when the last reading is the one of call `j`; zero when no time
has passed. -/
def rate (i j : ℕ) (old new : R) (φ : Φ) : ℚ :=
  if s.time j < s.time i then
    (s.counter new φ - s.counter old φ).toNat * s.unit φ / (s.time i - s.time j)
  else 0

/-- The rates that are reported with each name: zero for a new one, and the rates since the last
reading otherwise. -/
structure Reports (reports : ℕ → List (K × (Φ → ℚ))) : Prop where
  unique : ∀ i name r r', (name, r) ∈ s.readings i → (name, r') ∈ s.readings i → r = r'
  cases : ∀ i name rates, (name, rates) ∈ reports i →
    rates = (fun _ => 0) ∨ ∃ j old new, Previous s.readings i name j old ∧
      (name, new) ∈ s.readings i ∧ rates = s.rate i j old new
  reported : ∀ i name j old new, Previous s.readings i name j old →
    (name, new) ∈ s.readings i → (name, s.rate i j old new) ∈ reports i

/-- The rates of the first `n` calls are plausible. -/
def Plausible (reports : ℕ → List (K × (Φ → ℚ))) (n : ℕ) : Prop :=
  ∀ i < n, ∀ name rates, (name, rates) ∈ reports i → ∀ φ, 0 ≤ rates φ ∧
    ∀ j old new, Previous s.readings i name j old → (name, new) ∈ s.readings i →
      s.time j < s.time i → rates φ ≤
        allowed (s.counter old φ) (s.counter new φ) * s.unit φ / (s.time i - s.time j)

/-- In the first `n` calls no counter is smaller than at an earlier time. -/
def NoResets (n : ℕ) : Prop :=
  ∀ i < n, ∀ name j old new, Previous s.readings i name j old → (name, new) ∈ s.readings i →
    s.time j < s.time i → ∀ φ, s.counter old φ ≤ s.counter new φ

variable {s} {reports : ℕ → List (K × (Φ → ℚ))}

theorem rate_of_lt {i j : ℕ} (htime : s.time j < s.time i) (old new : R) (φ : Φ) :
    s.rate i j old new φ =
      (s.counter new φ - s.counter old φ).toNat * s.unit φ / (s.time i - s.time j) :=
  if_pos htime

theorem rate_of_not_lt {i j : ℕ} (htime : ¬ s.time j < s.time i) (old new : R) (φ : Φ) :
    s.rate i j old new φ = 0 :=
  if_neg htime

theorem rate_nonneg (i j : ℕ) (old new : R) (φ : Φ) : 0 ≤ s.rate i j old new φ := by
  by_cases htime : s.time j < s.time i
  · have hunit := s.unit_pos φ
    have hpos := sub_pos.2 htime
    rw [rate_of_lt htime]
    positivity
  · rw [rate_of_not_lt htime]

/-- A loop that compares each row with what its cache holds of the last one reports these rates. -/
theorem Reports.of_tracks {C : Type*} {keep : ℕ → K → R → C} {cache : ℕ → K → Option C}
    (ratesOf : ℕ → K → R → Option C → Φ → ℚ) (htracks : Tracks s.readings keep cache)
    (hnodup : ∀ i, ((s.readings i).map Prod.fst).Nodup)
    (hreports : ∀ i, reports i = (s.readings i).map fun e =>
      (e.1, ratesOf i e.1 e.2 (cache i e.1)))
    (hnew : ∀ i k r, ratesOf i k r none = fun _ => 0)
    (hagain : ∀ i j k old new, ratesOf i k new (some (keep j k old)) = s.rate i j old new) :
    s.Reports reports where
  unique i name r r' hmem hmem' :=
    congrArg Prod.snd (List.inj_on_of_nodup_map (hnodup i) hmem hmem' rfl)
  cases i name rates hrates := by
    rw [hreports] at hrates
    obtain ⟨⟨name', new⟩, hmem, heq⟩ := List.mem_map.1 hrates
    obtain ⟨rfl, rfl⟩ := Prod.mk.inj heq
    cases hcache : cache i name' with
    | none => exact .inl (hnew i name' new)
    | some kept =>
      obtain ⟨j, old, hprev, rfl⟩ := htracks.exists_previous hcache
      exact .inr ⟨j, old, new, hprev, hmem, hagain i j name' old new⟩
  reported i name j old new hprev hmem := by
    rw [hreports, List.mem_map]
    refine ⟨(name, new), hmem, Prod.ext rfl ?_⟩
    rw [htracks.eq_some hprev, hagain]

theorem rate_le_iff {i j : ℕ} (htime : s.time j < s.time i) (old new : R) (φ : Φ) :
    s.rate i j old new φ ≤
        allowed (s.counter old φ) (s.counter new φ) * s.unit φ / (s.time i - s.time j) ↔
      s.counter old φ ≤ s.counter new φ := by
  rw [rate_of_lt htime, div_le_div_iff_of_pos_right (sub_pos.2 htime),
    mul_le_mul_iff_of_pos_right (s.unit_pos φ), Nat.cast_le, toNat_sub_le_allowed_iff]

/-- The rates are plausible as long as no counter is reset. -/
theorem plausible_iff (h : s.Reports reports) (n : ℕ) :
    s.Plausible reports n ↔ s.NoResets n := by
  constructor
  · intro hrange i hi name j old new hprev hmem htime φ
    have hreported := h.reported i name j old new hprev hmem
    have hle := (hrange i hi name _ hreported φ).2 j old new hprev hmem htime
    exact (rate_le_iff htime old new φ).1 hle
  · intro hresets i hi name rates hrates φ
    obtain rfl | ⟨j', old', new', hprev', hmem', rfl⟩ := h.cases i name rates hrates
    · refine ⟨le_rfl, fun j old new _ _ htime => ?_⟩
      have hunit := s.unit_pos φ
      have hpos := sub_pos.2 htime
      positivity
    · refine ⟨rate_nonneg i j' old' new' φ, fun j old new hprev hmem htime => ?_⟩
      obtain rfl := hprev.index_unique hprev'
      obtain rfl := h.unique _ _ _ _ hprev.mem hprev'.mem
      obtain rfl := h.unique _ _ _ _ hmem hmem'
      exact (rate_le_iff htime old new φ).2 (hresets i hi name j old new hprev hmem htime φ)

end Sampling

/-! ### Sums of cut rates -/

/-- When each rate is the growth of `c` by a unit, cut, the rates of several calls, each times the
time it is about, add up to what `c` has grown by, up to the times over the unit. -/
theorem sum_cut_rates {r d c : ℕ → ℚ} {k : ℚ} (hk : 0 < k) {a b : ℕ} (hab : a < b)
    (h : ∀ i ∈ Finset.Ico a b, r i * d i ≤ k * (c (i + 1) - c i) ∧
      k * (c (i + 1) - c i) < (r i + 1) * d i) :
    ∑ i ∈ Finset.Ico a b, r i * d i / k ≤ c b - c a ∧
      c b - c a - ∑ i ∈ Finset.Ico a b, r i * d i / k < ∑ i ∈ Finset.Ico a b, d i / k := by
  have hgrowth : ∑ i ∈ Finset.Ico a b, (c (i + 1) - c i) = c b - c a :=
    Finset.sum_Ico_sub c hab.le
  rw [← hgrowth, ← Finset.sum_sub_distrib]
  constructor
  · refine Finset.sum_le_sum fun i hi => ?_
    rw [div_le_iff₀' hk]
    exact (h i hi).1
  · refine Finset.sum_lt_sum_of_nonempty (Finset.nonempty_Ico.2 hab) fun i hi => ?_
    have hlt := (h i hi).2
    rw [sub_lt_iff_lt_add, ← add_div, lt_div_iff₀' hk]
    linarith

end CounterRates
