import MonitorSystem.Worker.NetEbpfMonitor
import MonitorSystem.Worker.NetMonitor

/-!
# The two network collectors

`NetMonitor` and `NetEbpfMonitor` fill the same message, and which of them is built is chosen at
build time.  From the same counters they compute the same packet rates up to rounding.  The byte
rates of `NetMonitor` are in KB for each second, as `net_info.proto` says; `NetEbpfMonitor` does not
divide by 1024.  `collectors_agree_iff` says how little traffic hides this.
-/

namespace MonitorSystem

namespace NetCollectors

open NetEbpf (NetStats)
open NetEbpfMonitor (Entries)

/-- Each of the four rates of two messages differs by less than 1. -/
structure RatesClose (m e : NetInfo ℚ) : Prop where
  rcvRate : |m.rcvRate - e.rcvRate| < 1
  sendRate : |m.sendRate - e.sendRate| < 1
  rcvPacketsRate : |m.rcvPacketsRate - e.rcvPacketsRate| < 1
  sendPacketsRate : |m.sendPacketsRate - e.sendPacketsRate| < 1

/-- No counter decreases. -/
structure CountersLe (c c' : NetStats) : Prop where
  rcvBytes : c.rcvBytes ≤ c'.rcvBytes
  rcvPackets : c.rcvPackets ≤ c'.rcvPackets
  sndBytes : c.sndBytes ≤ c'.sndBytes
  sndPackets : c.sndPackets ≤ c'.sndPackets

/-- The counters are below `2 ^ 63 / 1000`. -/
structure CountersFit (c : NetStats) : Prop where
  rcvBytes : c.rcvBytes.toNat * 1000 < 2 ^ 63
  rcvPackets : c.rcvPackets.toNat * 1000 < 2 ^ 63
  sndBytes : c.sndBytes.toNat * 1000 < 2 ^ 63
  sndPackets : c.sndPackets.toNat * 1000 < 2 ^ 63

/-! ### The numbers -/

/-- The integer rate is the exact one, cut. -/
theorem div_le_and_lt (growth ms : ℕ) (hms : 1 ≤ ms) :
    ((growth * 1000 / ms : ℕ) : ℚ) ≤ growth / (ms / 1000) ∧
      (growth / (ms / 1000) : ℚ) < (growth * 1000 / ms : ℕ) + 1 := by
  have hpos : (0 : ℚ) < ms := by exact_mod_cast hms
  have hrate : (growth / (ms / 1000) : ℚ) = growth * 1000 / ms := by
    field_simp
  have hlow : growth * 1000 / ms * ms ≤ growth * 1000 := Nat.div_mul_le_self _ _
  have hhigh : growth * 1000 < (growth * 1000 / ms + 1) * ms := by
    rw [Nat.mul_comm (_ + 1)]
    exact Nat.lt_mul_div_succ _ hms
  rw [hrate, le_div_iff₀ hpos, div_lt_iff₀ hpos]
  exact ⟨by exact_mod_cast hlow, by exact_mod_cast hhigh⟩

theorem packets_close (growth ms : ℕ) (hms : 1 ≤ ms) :
    |(growth / (ms / 1000) : ℚ) - (growth * 1000 / ms : ℕ)| < 1 := by
  obtain ⟨hlow, hhigh⟩ := div_le_and_lt growth ms hms
  rw [abs_lt]
  constructor <;> linarith

/-- A rate and its 1024th part are close when the rate is below 2. -/
theorem bytes_close_iff (growth ms : ℕ) (hms : 1 ≤ ms) :
    |(growth / 1024 / (ms / 1000) : ℚ) - (growth * 1000 / ms : ℕ)| < 1 ↔
      growth * 1000 < 2 * ms := by
  obtain ⟨hlow, hhigh⟩ := div_le_and_lt growth ms hms
  have hshare : (growth / 1024 / (ms / 1000) : ℚ) = growth / (ms / 1000) / 1024 := by
    rw [div_right_comm]
  rw [hshare, ← Nat.div_lt_iff_lt_mul hms]
  generalize growth * 1000 / ms = whole at *
  generalize (growth / (ms / 1000) : ℚ) = exact at *
  rw [abs_lt]
  constructor
  · rintro ⟨hfar, -⟩
    by_contra hlarge
    have htwo : (2 : ℚ) ≤ whole := by exact_mod_cast not_lt.1 hlarge
    linarith
  · intro hsmall
    have hnonneg : (0 : ℚ) ≤ whole := whole.cast_nonneg
    have hone : (whole : ℚ) ≤ 1 := by exact_mod_cast Nat.lt_succ_iff.1 hsmall
    constructor <;> linarith

/-! ### One counter -/

/-- The rate of a counter that does not decrease and is not too large. -/
theorem rate_eq {curr old : UInt64} (hle : old ≤ curr) (hfit : curr.toNat * 1000 < 2 ^ 63)
    (ms : ℕ) :
    NetEbpfMonitor.rate curr old ms = (((curr - old).toNat * 1000 / ms : ℕ) : ℤ) := by
  have hgrowth : (curr - old).toNat = curr.toNat - old.toNat := UInt64.toNat_sub_of_le _ _ hle
  have hint : (curr - old).toInt64.toInt = ((curr - old).toNat : ℤ) := by
    show (curr - old).toBitVec.toInt = ((curr - old).toBitVec.toNat : ℤ)
    refine BitVec.toInt_eq_toNat_of_lt ?_
    show 2 * (curr - old).toNat < 2 ^ 64
    omega
  have hnonneg : ¬ (curr - old).toInt64 < 0 := by
    rw [Int64.lt_iff_toInt_lt, hint]
    exact not_lt.2 (Int.natCast_nonneg _)
  simp only [NetEbpfMonitor.rate, if_neg hnonneg, hint]
  rfl

theorem duration_eq (t : ℤ) (ms : ℕ) : (t + ms * 1000000 - t).tdiv 1000000 = ms := by
  rw [add_sub_cancel_left]
  exact Int.mul_tdiv_cancel _ (by decide)

theorem dt_eq (t : ℤ) (ms : ℕ) : NetMonitor.dt (t + ms * 1000000) t = ms / 1000 := by
  rw [NetMonitor.dt, add_sub_cancel_left]
  push_cast
  ring

/-- A rate of `NetMonitor` after `ms` milliseconds. -/
theorem procRate_eq (t : ℤ) {ms : ℕ} (hms : 1 ≤ ms) (growth : ℚ) :
    (if 0 < NetMonitor.dt (t + ms * 1000000) t then
      growth / NetMonitor.dt (t + ms * 1000000) t else 0) = growth / (ms / 1000) := by
  have hdt : 0 < NetMonitor.dt (t + ms * 1000000) t := by
    rw [dt_eq]
    exact div_pos (by exact_mod_cast hms) (by norm_num)
  rw [if_pos hdt, dt_eq]

/-- A rate of `NetEbpfMonitor` after `ms` milliseconds. -/
theorem ebpfRate_eq (t : ℤ) {ms : ℕ} (hms : 1 ≤ ms) {curr old : UInt64} (hle : old ≤ curr)
    (hfit : curr.toNat * 1000 < 2 ^ 63) :
    (if 0 < (t + ms * 1000000 - t).tdiv 1000000 then
      ((NetEbpfMonitor.rate curr old ((t + ms * 1000000 - t).tdiv 1000000) : ℤ) : ℚ) else 0) =
      ((curr - old).toNat * 1000 / ms : ℕ) := by
  have hpos : (0 : ℤ) < ms := by exact_mod_cast hms
  rw [duration_eq, if_pos hpos, rate_eq hle hfit]
  norm_cast

/-! ### The messages -/

/-- The two messages for the growth of the counters in `ms` milliseconds. -/
theorem ratesClose_iff {stat₀ stat₁ : NetMonitor.NetStat}
    (hle : CountersLe stat₀.counters stat₁.counters) (hfit : CountersFit stat₁.counters)
    (name : String) (t : ℤ) {ms : ℕ} (hms : 1 ≤ ms) :
    RatesClose
      (NetMonitor.netInfo (t + ms * 1000000) stat₁ (some { stat₀ with timepoint := t }))
      (NetEbpfMonitor.netInfo (t + ms * 1000000) name stat₁.counters
        (some { stat₀.counters with timestamp := t })) ↔
      (stat₁.rcvBytes - stat₀.rcvBytes).toNat * 1000 < 2 * ms ∧
        (stat₁.sndBytes - stat₀.sndBytes).toNat * 1000 < 2 * ms := by
  have hrcv := bytes_close_iff (stat₁.counters.rcvBytes - stat₀.counters.rcvBytes).toNat ms hms
  have hsnd := bytes_close_iff (stat₁.counters.sndBytes - stat₀.counters.sndBytes).toNat ms hms
  have hrcvPackets :=
    packets_close (stat₁.counters.rcvPackets - stat₀.counters.rcvPackets).toNat ms hms
  have hsndPackets :=
    packets_close (stat₁.counters.sndPackets - stat₀.counters.sndPackets).toNat ms hms
  rw [← procRate_eq t hms, ← ebpfRate_eq t hms hle.rcvBytes hfit.rcvBytes] at hrcv
  rw [← procRate_eq t hms, ← ebpfRate_eq t hms hle.sndBytes hfit.sndBytes] at hsnd
  rw [← procRate_eq t hms, ← ebpfRate_eq t hms hle.rcvPackets hfit.rcvPackets] at hrcvPackets
  rw [← procRate_eq t hms, ← ebpfRate_eq t hms hle.sndPackets hfit.sndPackets] at hsndPackets
  constructor
  · exact fun h => ⟨hrcv.1 h.rcvRate, hsnd.1 h.sendRate⟩
  · exact fun h => ⟨hrcv.2 h.1, hsnd.2 h.2, hrcvPackets, hsndPackets⟩

/-! ### Two successive calls -/

/-- Both collectors, whatever they have seen before, see the interface `name` in two successive
calls at the same instants, a whole number of milliseconds apart, with the same counters, which do
not decrease. -/
structure TwoCalls where
  name : String
  name_ne : name ≠ ""
  name_ne_lo : name ≠ "lo"
  c₀ : NetStats
  c₁ : NetStats
  le : CountersLe c₀ c₁
  fit : CountersFit c₁
  t : ℤ
  ms : ℕ
  one_le_ms : 1 ≤ ms
  lastNetInfo : NetMonitor.LastNetInfoMap
  stats₀ : List NetMonitor.NetStat
  stats₁ : List NetMonitor.NetStat
  observes₀ : NetMonitor.Observes stats₀ name c₀
  observes₁ : NetMonitor.Observes stats₁ name c₁
  state : NetEbpfMonitor.State
  key : UInt32
  indexToName₀ : UInt32 → Option String
  indexToName₁ : UInt32 → Option String
  entries₀ : Entries
  entries₁ : Entries
  ebpfObserves₀ : NetEbpfMonitor.Observes indexToName₀ state.ifnameCache entries₀ name key c₀
  ebpfObserves₁ : NetEbpfMonitor.Observes indexToName₁
    (NetEbpfMonitor.updateOnce true indexToName₀ t entries₀ state).2.ifnameCache entries₁ name key
    c₁

namespace TwoCalls

variable (calls : TwoCalls)

/-- What `NetMonitor` adds in the second call. -/
def proc : List (NetInfo ℚ) :=
  (NetMonitor.updateOnce (calls.t + calls.ms * 1000000) calls.stats₁
    (NetMonitor.updateOnce calls.t calls.stats₀ calls.lastNetInfo).2).1

/-- What `NetEbpfMonitor` adds in the second call. -/
def ebpf : List (NetInfo ℚ) :=
  (NetEbpfMonitor.updateOnce true calls.indexToName₁ (calls.t + calls.ms * 1000000) calls.entries₁
    (NetEbpfMonitor.updateOnce true calls.indexToName₀ calls.t calls.entries₀ calls.state).2).1

/-- Both collectors report the interface, and their rates are close. -/
def Agree : Prop :=
  (∃ m ∈ calls.proc, m.name = calls.name) ∧ (∃ e ∈ calls.ebpf, e.name = calls.name) ∧
    ∀ m ∈ calls.proc, m.name = calls.name → ∀ e ∈ calls.ebpf, e.name = calls.name →
      RatesClose m e

end TwoCalls

/-- **The two collectors.**  Over two successive calls that see the same counters, the rates of the
two collectors differ by less than 1 if and only if in both directions fewer than two bytes for each
second were counted. -/
theorem collectors_agree_iff (calls : TwoCalls) : calls.Agree ↔
    (calls.c₁.rcvBytes - calls.c₀.rcvBytes).toNat * 1000 < 2 * calls.ms ∧
      (calls.c₁.sndBytes - calls.c₀.sndBytes).toNat * 1000 < 2 * calls.ms := by
  obtain ⟨stat₀, stat₁, hstat₀, hstat₁, hproc, hprocOnly⟩ :=
    NetMonitor.updateOnce_second calls.observes₀ calls.observes₁ calls.t
      (calls.t + calls.ms * 1000000) calls.lastNetInfo
  obtain ⟨hebpf, hebpfOnly⟩ := NetEbpfMonitor.walk_second (calls.t + calls.ms * 1000000)
    calls.name_ne calls.name_ne_lo calls.ebpfObserves₀ calls.ebpfObserves₁
  have hle := calls.le
  have hfit := calls.fit
  rw [← hstat₀, ← hstat₁] at hle hebpf hebpfOnly
  rw [← hstat₁] at hfit
  have hclose := ratesClose_iff hle hfit calls.name calls.t calls.one_le_ms
  rw [← hstat₀, ← hstat₁]
  constructor
  · rintro ⟨-, -, hall⟩
    exact hclose.1 (hall _ hproc ((hprocOnly _ hproc).2 rfl) _ hebpf ((hebpfOnly _ hebpf).2 rfl))
  · intro hfew
    refine ⟨⟨_, hproc, (hprocOnly _ hproc).2 rfl⟩, ⟨_, hebpf, (hebpfOnly _ hebpf).2 rfl⟩, ?_⟩
    intro m hm hmname e he hename
    rw [(hprocOnly m hm).1 hmname, (hebpfOnly e he).1 hename]
    exact hclose.2 hfew

/-- The interface `eth0`, with the index 2, receives a million bytes in a second. -/
def million : TwoCalls where
  name := "eth0"
  name_ne := by decide
  name_ne_lo := by decide
  c₀ := {}
  c₁ := ⟨1000000, 1000, 0, 0⟩
  le := by constructor <;> decide
  fit := by constructor <;> decide
  t := 0
  ms := 1000
  one_le_ms := by decide
  lastNetInfo := fun _ => none
  stats₀ := [{ name := "eth0" }]
  stats₁ := [{ name := "eth0", rcvBytes := 1000000, rcvPackets := 1000 }]
  observes₀ := ⟨List.nodup_singleton _, _, List.mem_singleton_self _, rfl, rfl⟩
  observes₁ := ⟨List.nodup_singleton _, _, List.mem_singleton_self _, rfl, rfl⟩
  state := {}
  key := 2
  indexToName₀ := fun _ => some "eth0"
  indexToName₁ := fun _ => some "eth0"
  entries₀ := [(2, some {})]
  entries₁ := [(2, some ⟨1000000, 1000, 0, 0⟩)]
  ebpfObserves₀ := ⟨List.nodup_singleton _, List.mem_singleton_self _, rfl, by simp⟩
  ebpfObserves₁ := ⟨List.nodup_singleton _, List.mem_singleton_self _, rfl, by simp⟩

/-- One collector says 976.6, the other 1000000. -/
theorem collectors_disagree : ¬ ∀ calls : TwoCalls, calls.Agree := by
  intro hclaim
  have hclose := (hclaim million).2.2 _ List.mem_cons_self rfl _ List.mem_cons_self rfl
  have hrcv := hclose.rcvRate
  revert hrcv
  decide +kernel

end NetCollectors

end MonitorSystem
