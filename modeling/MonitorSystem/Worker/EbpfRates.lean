import MonitorSystem.Library.CounterRates
import MonitorSystem.Library.CxxInt
import MonitorSystem.Worker.NetEbpfMonitor

/-!
# The rates of `NetEbpfMonitor`

The rates are quotients of integers.  Over a sequence of calls that are at least a millisecond
apart, with counters whose products with 1000 fit, no operation overflows, each rate is the growth
of its counter for each second, cut to an integer, and nothing is counted twice or forgotten:
`ebpf_rates_conserve`.
-/

namespace MonitorSystem

namespace NetEbpfMonitor

open CounterRates (allowed allowed_le)
open CxxInt
open LastSeen (Previous Tracks)
open NetEbpf (Field NetStats)

/-! ### Calls -/

/-- A call: its time, the names that are known, and a map of which every key is visited once. -/
structure Call where
  now : SteadyTime
  indexToName : UInt32 → Option String
  entries : Entries
  nodup : (entries.map Prod.fst).Nodup

section Walk

variable {indexToName : UInt32 → Option String}

theorem walk_cache_of_notMem (now : ℤ) {entries : Entries} {s : State} {key : UInt32}
    (hmem : key ∉ (visible indexToName s.ifnameCache entries).map Prod.fst) :
    (walk indexToName now entries s).2.cache key = s.cache key := by
  rw [(walk_eq_loop now entries s).2.1]
  exact CachedLoop.loop_cache_of_notMem hmem

/-- A name that is known is not looked up again. -/
theorem getIfName_of_known {ifnameCache : UInt32 → Option String} {key : UInt32} {name : String}
    (h : ifnameCache key = some name) (other : UInt32) :
    (getIfName indexToName ifnameCache other).2 key = some name := by
  unfold getIfName
  cases hother : ifnameCache other with
  | some name' => exact h
  | none =>
    have hne : key ≠ other := fun heq => by
      rw [heq, hother] at h
      cases h
    cases indexToName other with
    | none => exact h
    | some name' =>
      show Function.update ifnameCache other (some name') key = some name
      rw [Function.update_of_ne hne, h]

theorem walk_of_known (now : ℤ) (entries : Entries) {s : State} {key : UInt32} {name : String}
    (h : s.ifnameCache key = some name) :
    (walk indexToName now entries s).2.ifnameCache key = some name := by
  induction entries generalizing s with
  | nil => exact h
  | cons e rest ih =>
    obtain ⟨other, found⟩ := e
    cases found with
    | none => exact ih h
    | some stats =>
      have hkept : (getIfName indexToName s.ifnameCache other).2 key = some name :=
        getIfName_of_known h other
      rw [walk]
      dsimp only
      split_ifs
      · exact ih hkept
      · exact ih hkept

/-- The name of an interface is known once it has been found. -/
theorem getIfName_self {ifnameCache : UInt32 → Option String} {key : UInt32} {name : String}
    (hname : name ≠ "") (h : resolve indexToName ifnameCache key = name) :
    (getIfName indexToName ifnameCache key).2 key = some name := by
  subst h
  rw [resolve_eq] at hname ⊢
  unfold getIfName
  cases hcache : ifnameCache key with
  | some name' => simpa using hcache
  | none =>
    cases hindex : indexToName key with
    | none => simp [hcache, hindex] at hname
    | some name' => exact Function.update_self key (some name') ifnameCache

theorem walk_learns (now : ℤ) {entries : Entries} {s : State} {key : UInt32} {name : String}
    {stats : NetStats} (hname : name ≠ "") (hresolve : resolve indexToName s.ifnameCache key = name)
    (hmem : (key, some stats) ∈ entries) :
    (walk indexToName now entries s).2.ifnameCache key = some name := by
  induction entries generalizing s with
  | nil => cases hmem
  | cons e rest ih =>
    obtain ⟨other, found⟩ := e
    cases found with
    | none => exact ih hresolve ((List.mem_cons.1 hmem).resolve_left (by simp))
    | some stats' =>
      rw [walk]
      dsimp only
      rcases List.mem_cons.1 hmem with heq | hrest
      · obtain ⟨rfl, -⟩ := Prod.mk.inj heq
        have hknown := getIfName_self hname hresolve
        split_ifs
        · exact walk_of_known now rest hknown
        · exact walk_of_known now rest hknown
      · have hresolve' := (resolve_getIfName indexToName s.ifnameCache other key).trans hresolve
        split_ifs
        · exact ih hresolve' hrest
        · exact ih hresolve' hrest

end Walk

section Calls

variable (calls : ℕ → Call)

/-- The state before call `n`. -/
def stateAt : ℕ → State
  | 0 => {}
  | n + 1 => (updateOnce true (calls n).indexToName (calls n).now (calls n).entries (stateAt n)).2

/-- The messages of call `n`. -/
def messagesAt (n : ℕ) : List (NetInfo ℚ) :=
  (updateOnce true (calls n).indexToName (calls n).now (calls n).entries (stateAt calls n)).1

/-- The interfaces that call `n` does not skip, with their names and counters. -/
def readings (n : ℕ) : List (UInt32 × String × NetStats) :=
  visible (calls n).indexToName (stateAt calls n).ifnameCache (calls n).entries

theorem messagesAt_eq (n : ℕ) : messagesAt calls n = (readings calls n).map fun e =>
    netInfo (calls n).now e.2.1 e.2.2 ((stateAt calls n).cache e.1) :=
  walk_messages (calls n).nodup _ _

/-- The cache follows the readings. -/
theorem tracks_cache : Tracks (readings calls)
    (fun i _ r => { r.2 with timestamp := ((calls i).now : ℤ) })
    (fun n => (stateAt calls n).cache) where
  start _ := rfl
  seen n _ _ hmem := walk_cache (calls n).nodup _ _ hmem
  unseen _ _ hmem := walk_cache_of_notMem _ hmem

variable {calls}

/-- An interface that is in the map with the counters `c i` in the calls `i ≤ n`.  It is not the
loopback, and the first call can find its name. -/
structure Present (calls : ℕ → Call) (n : ℕ) (key : UInt32) (name : String) (c : ℕ → NetStats) :
    Prop where
  name_ne : name ≠ ""
  name_ne_lo : name ≠ "lo"
  named : (calls 0).indexToName key = some name
  mem : ∀ i ≤ n, (key, some (c i)) ∈ (calls i).entries

namespace Present

variable {n : ℕ} {key : UInt32} {name : String} {c : ℕ → NetStats}

theorem resolve_eq (h : Present calls n key name c) {i : ℕ} (hi : i ≤ n) :
    resolve (calls i).indexToName (stateAt calls i).ifnameCache key = name := by
  cases i with
  | zero =>
    rw [NetEbpfMonitor.resolve_eq, stateAt, h.named]
    rfl
  | succ i =>
    -- the name is found in the first call and kept from then on
    have hknown : (stateAt calls (i + 1)).ifnameCache key = some name := by
      clear hi
      induction i with
      | zero =>
        have hfirst : resolve (calls 0).indexToName (stateAt calls 0).ifnameCache key = name := by
          rw [NetEbpfMonitor.resolve_eq, stateAt, h.named]
          rfl
        exact walk_learns _ h.name_ne hfirst (h.mem 0 n.zero_le)
      | succ i ih => exact walk_of_known _ _ ih
    rw [NetEbpfMonitor.resolve_eq, hknown]
    rfl

theorem mem_readings (h : Present calls n key name c) {i : ℕ} (hi : i ≤ n) :
    (key, name, c i) ∈ readings calls i :=
  mem_visible h.name_ne h.name_ne_lo (h.mem i hi) (h.resolve_eq hi)

/-- Before each call but the first, the last counters are kept. -/
theorem cache_succ (h : Present calls n key name c) {i : ℕ} (hi : i ≤ n) :
    (stateAt calls (i + 1)).cache key =
      some { c i with timestamp := ((calls i).now : ℤ) } :=
  (tracks_cache calls).eq_some (.of_mem (h.mem_readings hi))

end Present

end Calls

/-! ### The numbers -/

/-- The difference of a counter, after the check of its sign. -/
def diff (curr old : UInt64) : Int64 :=
  if (curr - old).toInt64 < 0 then curr.toInt64 else (curr - old).toInt64

theorem rate_eq_diff (curr old : UInt64) (oldDuration : ℤ) :
    rate curr old oldDuration = ((diff curr old).toInt * 1000).tdiv oldDuration := rfl

/-- A 64-bit number read as signed. -/
theorem toInt_toInt64 (x : UInt64) :
    x.toInt64.toInt = if x.toNat < 2 ^ 63 then (x.toNat : ℤ) else (x.toNat : ℤ) - 2 ^ 64 := by
  have hcond := BitVec.toInt_eq_toNat_cond x.toBitVec
  show x.toBitVec.toInt = _
  rw [hcond]
  show (if 2 * x.toNat < 2 ^ 64 then (x.toNat : ℤ) else (x.toNat : ℤ) - (2 ^ 64 : ℕ)) = _
  split_ifs <;> omega

/-- The difference is the growth, where a counter that has decreased counts from zero. -/
theorem toInt_diff {curr old : UInt64} (hcurr : curr.toNat < 2 ^ 63) (hold : old.toNat < 2 ^ 63) :
    (diff curr old).toInt = allowed old curr := by
  have hsub := toInt_toInt64 (curr - old)
  have hself := toInt_toInt64 curr
  rw [UInt64.toNat_sub] at hsub
  rw [if_pos (by omega)] at hself
  rw [diff, allowed]
  simp only [Int64.lt_iff_toInt_lt, UInt64.le_iff_toNat_le, Int64.toInt_zero]
  by_cases hle : old.toNat ≤ curr.toNat
  · rw [if_pos (by omega)] at hsub
    rw [if_pos hle, if_neg (by omega)]
    omega
  · rw [if_neg (by omega)] at hsub
    rw [if_neg hle, if_pos (by omega)]
    omega

/-- The rate is the growth for each second, cut. -/
theorem rate_bounds {curr old : UInt64} (hcurr : curr.toNat < 2 ^ 63) (hold : old.toNat < 2 ^ 63)
    {d : ℤ} (hd : 1 ≤ d) :
    rate curr old d * d ≤ 1000 * allowed old curr ∧
      1000 * allowed old curr < (rate curr old d + 1) * d := by
  have hnonneg : 0 ≤ (allowed old curr : ℤ) * 1000 := by positivity
  rw [rate_eq_diff, toInt_diff hcurr hold, Int.tdiv_eq_ediv_of_nonneg hnonneg,
    mul_comm (1000 : ℤ)]
  exact ⟨Int.ediv_mul_le _ (by omega), Int.lt_ediv_add_one_mul_self _ (by omega)⟩

/-- The integer that is passed to the setter of a rate; nothing is passed, and the field stays zero,
when less than a millisecond has passed. -/
def passed (now : ℤ) (stats : NetStats) (cacheIt : Option NetStatCache) (field : Field) : ℤ :=
  match cacheIt with
  | none => 0
  | some old =>
    let oldDuration := (now - old.timestamp).tdiv 1000000
    if 0 < oldDuration then rate (stats.get field) (old.get field) oldDuration else 0

/-- A message with four rates. -/
def ratesMsg (name : String) (rates : Field → ℤ) : NetInfo ℚ where
  name := name
  rcvRate := rates .rcvBytes
  sendRate := rates .sndBytes
  rcvPacketsRate := rates .rcvPackets
  sendPacketsRate := rates .sndPackets
  errIn := 0
  errOut := 0
  dropIn := 0
  dropOut := 0

theorem netInfo_eq (now : ℤ) (ifname : String) (stats : NetStats)
    (cacheIt : Option NetStatCache) :
    netInfo now ifname stats cacheIt = ratesMsg ifname (passed now stats cacheIt) := by
  cases cacheIt with
  | none => simp [netInfo, ratesMsg, passed]
  | some old =>
    by_cases hd : 0 < (now - old.timestamp).tdiv 1000000 <;>
      simp [netInfo, ratesMsg, passed, hd, NetStats.get]

/-- No signed operation of a call overflows: the times since earlier readings of the clock, and for
each interface whose last sample is older than a millisecond the four products and quotients. -/
def NoOverflow (calls : ℕ → Call) (i : ℕ) : Prop :=
  (∀ last : SteadyTime, InInt64 (((calls i).now : ℤ) - (last : ℤ))) ∧
    ∀ key name stats old, (key, name, stats) ∈ readings calls i →
      (stateAt calls i).cache key = some old →
      InInt64 (((calls i).now : ℤ) - old.timestamp) ∧
      (0 < (((calls i).now : ℤ) - old.timestamp).tdiv 1000000 → ∀ field,
        InInt64 ((diff (stats.get field) (old.get field)).toInt * 1000) ∧
        InInt64 (rate (stats.get field) (old.get field)
          ((((calls i).now : ℤ) - old.timestamp).tdiv 1000000)))

/-- All counters of a call are below `2 ^ 63 / 1000`. -/
def CountersFit (call : Call) : Prop :=
  ∀ key stats, (key, some stats) ∈ call.entries → ∀ field, (stats.get field).toNat * 1000 < 2 ^ 63

theorem noOverflow {calls : ℕ → Call} {i : ℕ} (hfit : ∀ j ≤ i, CountersFit (calls j)) :
    NoOverflow calls i := by
  refine ⟨inInt64_sub _, fun key name stats old hmem hcache => ?_⟩
  obtain ⟨j, ⟨name', stats'⟩, hprev, rfl⟩ := (tracks_cache calls).exists_previous hcache
  refine ⟨inInt64_sub _ _, fun hd field => ?_⟩
  have hcurr := hfit i le_rfl key stats (of_mem_visible hmem).1 field
  have hold := hfit j hprev.lt.le key stats' (of_mem_visible hprev.mem).1 field
  have hproduct : InInt64 ((diff (stats.get field) (stats'.get field)).toInt * 1000) := by
    have hle := Nat.mul_le_mul_right 1000 (allowed_le (stats'.get field) (stats.get field))
    rw [toInt_diff (by omega) (by omega)]
    exact_mod_cast inInt64_natCast (hle.trans_lt hcurr)
  exact ⟨hproduct, hproduct.tdiv hd⟩

/-! ### Conservation -/

section Conservation

variable (calls : ℕ → Call)

/-- The milliseconds between call `i` and the next one. -/
def elapsedMs (i : ℕ) : ℤ := wholeMs (calls (i + 1)).now (calls i).now

/-- The rates that call `i` passes on for the interface `key` with the counters `c i`. -/
def ratesAt (key : UInt32) (c : ℕ → NetStats) (i : ℕ) : Field → ℤ :=
  passed (calls i).now (c i) ((stateAt calls i).cache key)

variable {calls} {n : ℕ} {key : UInt32} {name : String} {c : ℕ → NetStats}

namespace Present

theorem ratesMsg_mem (h : Present calls n key name c) {i : ℕ} (hi : i ≤ n) :
    ratesMsg name (ratesAt calls key c i) ∈ messagesAt calls i := by
  rw [messagesAt_eq, List.mem_map]
  exact ⟨(key, name, c i), h.mem_readings hi, netInfo_eq _ _ _ _⟩

theorem ratesAt_succ (h : Present calls n key name c) {i : ℕ} (hi : i < n)
    (hms : 1 ≤ elapsedMs calls i) (field : Field) : ratesAt calls key c (i + 1) field =
      rate ((c (i + 1)).get field) ((c i).get field) (elapsedMs calls i) := by
  rw [ratesAt, h.cache_succ hi.le]
  exact if_pos (show 0 < elapsedMs calls i by omega)

/-- A call that comes within a millisecond passes no rate on. -/
theorem ratesAt_succ_of_early (h : Present calls n key name c) {i : ℕ} (hi : i < n)
    (hms : ¬ 1 ≤ elapsedMs calls i) (field : Field) : ratesAt calls key c (i + 1) field = 0 := by
  rw [ratesAt, h.cache_succ hi.le]
  exact if_neg (show ¬ 0 < elapsedMs calls i by omega)

theorem ratesAt_bounds (h : Present calls n key name c) (hfit : ∀ i ≤ n, CountersFit (calls i))
    {i : ℕ} (hi : i < n) (hms : 1 ≤ elapsedMs calls i) (field : Field) :
    ratesAt calls key c (i + 1) field * elapsedMs calls i ≤
        1000 * allowed ((c i).get field) ((c (i + 1)).get field) ∧
      (1000 * allowed ((c i).get field) ((c (i + 1)).get field) : ℤ) <
        (ratesAt calls key c (i + 1) field + 1) * elapsedMs calls i := by
  rw [h.ratesAt_succ hi hms]
  have hcurr := hfit (i + 1) hi key _ (h.mem _ hi) field
  have hold := hfit i hi.le key _ (h.mem _ hi.le) field
  exact rate_bounds (by omega) (by omega) hms

end Present

end Conservation

/-- **eBPF rates conserve traffic.**  Over every sequence of calls that are at least a millisecond
apart, with all counters below `2 ^ 63 / 1000`: no signed operation overflows; and for an interface
that is present in all calls the first call reports zeros, each later rate is the growth of its
counter for each second, cut, where a counter that has decreased counts from zero, and over calls in
which a counter does not decrease its rates add up to its growth, up to less than one for each
second. -/
theorem ebpf_rates_conserve (calls : ℕ → Call) (n : ℕ) (hms : ∀ i < n, 1 ≤ elapsedMs calls i)
    (hfit : ∀ i ≤ n, CountersFit (calls i)) :
    (∀ i ≤ n, NoOverflow calls i) ∧
    ∀ key name c, Present calls n key name c →
      (∀ i ≤ n, ratesMsg name (ratesAt calls key c i) ∈ messagesAt calls i) ∧
      ∀ field, ratesAt calls key c 0 field = 0 ∧
        (∀ i < n, ratesAt calls key c (i + 1) field * elapsedMs calls i ≤
            1000 * allowed ((c i).get field) ((c (i + 1)).get field) ∧
          (1000 * allowed ((c i).get field) ((c (i + 1)).get field) : ℤ) <
            (ratesAt calls key c (i + 1) field + 1) * elapsedMs calls i) ∧
        ∀ a b, a < b → b ≤ n → (∀ i, a ≤ i → i < b → (c i).get field ≤ (c (i + 1)).get field) →
          let growth : ℚ := ((c b).get field).toNat - ((c a).get field).toNat
          let reported : ℚ := ∑ i ∈ Finset.Ico a b,
            (ratesAt calls key c (i + 1) field : ℚ) * elapsedMs calls i / 1000
          reported ≤ growth ∧
            growth - reported < ∑ i ∈ Finset.Ico a b, (elapsedMs calls i : ℚ) / 1000 := by
  refine ⟨fun i hi => noOverflow fun j hj => hfit j (hj.trans hi), fun key name c h => ?_⟩
  refine ⟨fun i hi => h.ratesMsg_mem hi, fun field => ⟨rfl, fun i hi =>
    h.ratesAt_bounds hfit hi (hms i hi) field, fun a b hab hb hmono => ?_⟩⟩
  refine CounterRates.sum_cut_rates (c := fun i => (((c i).get field).toNat : ℚ)) (by norm_num)
    hab fun i hi => ?_
  obtain ⟨hai, hib⟩ := Finset.mem_Ico.1 hi
  have hle := hmono i hai hib
  have hbounds := h.ratesAt_bounds hfit (hib.trans_le hb) (hms i (hib.trans_le hb)) field
  have hgrowth : (allowed ((c i).get field) ((c (i + 1)).get field) : ℤ) =
      ((c (i + 1)).get field).toNat - ((c i).get field).toNat := by
    rw [allowed, if_pos hle, Nat.cast_sub (UInt64.le_iff_toNat_le.1 hle)]
  rw [hgrowth] at hbounds
  exact_mod_cast hbounds

/-- The counters of an interface that receives a million bytes between two calls. -/
def millionCounted (i : ℕ) : NetStats := if i = 0 then {} else ⟨1000000, 1000, 0, 0⟩

/-- The two calls, one second apart. -/
def millionCalls (i : ℕ) : Call where
  now := if i = 0 then 0 else 1000000000
  indexToName _ := some "eth0"
  entries := [(2, some (millionCounted i))]
  nodup := List.nodup_singleton _

theorem ebpf_rates_conserve_million : (∀ i ≤ 1, NoOverflow millionCalls i) ∧
    ∀ i ≤ 1, ratesMsg "eth0" (ratesAt millionCalls 2 millionCounted i) ∈
      messagesAt millionCalls i := by
  have hms : ∀ i < 1, 1 ≤ elapsedMs millionCalls i := by
    intro i hi
    obtain rfl := Nat.lt_one_iff.1 hi
    decide
  have hfit : ∀ i ≤ 1, CountersFit (millionCalls i) := by
    intro i _ key stats hmem field
    obtain ⟨-, hstats⟩ := Prod.mk.inj (List.mem_singleton.1 hmem)
    obtain rfl := Option.some.inj hstats
    rw [millionCounted]
    split_ifs <;> cases field <;> decide
  have hpresent : Present millionCalls 1 2 "eth0" millionCounted :=
    ⟨by decide, by decide, rfl, fun _ _ => List.mem_singleton_self _⟩
  obtain ⟨hoverflow, hrates⟩ := ebpf_rates_conserve millionCalls 1 hms hfit
  exact ⟨hoverflow, (hrates 2 "eth0" millionCounted hpresent).1⟩

end NetEbpfMonitor

end MonitorSystem
