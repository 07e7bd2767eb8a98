import MonitorSystem.Library.CounterRates
import MonitorSystem.Worker.DiskRates
import MonitorSystem.Worker.NetMonitor

/-!
# Counters that are reset

When an interface or a disk is removed and comes back, its counters start again from zero, but the
collectors still hold the old ones under its name.  `NetMonitor` and `DiskMonitor` take the
difference in unsigned arithmetic; other than `NetEbpfMonitor`, they do not look at its sign.
-/

namespace MonitorSystem

open CounterRates (Sampling)
open LastSeen (Tracks)

/-! ### `NetMonitor` -/

namespace NetMonitor

open NetEbpf (Field NetStats)

/-- A call: the time in nanoseconds, and interfaces with different names. -/
structure Call where
  now : ℤ
  stats : List NetStat
  nodup : (stats.map NetStat.name).Nodup

section Calls

variable (calls : ℕ → Call)

/-- `last_net_info_` before call `n`. -/
def mapAt : ℕ → LastNetInfoMap
  | 0 => fun _ => none
  | n + 1 => (updateOnce (calls n).now (calls n).stats (mapAt n)).2

/-- The messages of call `n`. -/
def messagesAt (n : ℕ) : List (NetInfo ℚ) :=
  (updateOnce (calls n).now (calls n).stats (mapAt calls n)).1

/-- What the calls read. -/
def readings (n : ℕ) : List (String × NetStat) := (calls n).stats.map fun stat => (stat.name, stat)

variable {calls}

theorem mem_readings {n : ℕ} {name : String} {stat : NetStat} :
    (name, stat) ∈ readings calls n ↔ stat ∈ (calls n).stats ∧ stat.name = name := by
  rw [readings, List.mem_map]
  constructor
  · rintro ⟨stat', hmem, heq⟩
    obtain ⟨rfl, rfl⟩ := Prod.mk.inj heq
    exact ⟨hmem, rfl⟩
  · rintro ⟨hmem, rfl⟩
    exact ⟨stat, hmem, rfl⟩

variable (calls)

/-- The map follows the readings. -/
theorem tracks_mapAt : Tracks (readings calls)
    (fun i _ stat => { stat with timepoint := (calls i).now }) (mapAt calls) where
  start _ := rfl
  seen n name stat hmem := by
    obtain ⟨hstat, rfl⟩ := mem_readings.1 hmem
    exact CachedLoop.loop_cache_of_mem (calls n).nodup hstat
  unseen n name hmem := by
    rw [readings, List.map_map] at hmem
    exact CachedLoop.loop_cache_of_notMem hmem

/-- The rates of a message. -/
def rateOf (m : NetInfo ℚ) : Field → ℚ
  | .rcvBytes => m.rcvRate
  | .rcvPackets => m.rcvPacketsRate
  | .sndBytes => m.sendRate
  | .sndPackets => m.sendPacketsRate

/-- Bytes are reported in KB. -/
def unitOf : Field → ℚ
  | .rcvBytes | .sndBytes => 1 / 1024
  | .rcvPackets | .sndPackets => 1

/-- The counters behind the rates, and the times in seconds. -/
def sampling : Sampling String NetStat Field where
  readings := readings calls
  counter stat := stat.counters.get
  unit := unitOf
  unit_pos field := by cases field <;> norm_num [unitOf]
  time i := ((calls i).now : ℚ) / 1000000000

/-- The rates that are reported with each name. -/
def reports (n : ℕ) : List (String × (Field → ℚ)) :=
  (messagesAt calls n).map fun m => (m.name, rateOf m)

theorem rateOf_new (now : ℤ) (stat : NetStat) : rateOf (netInfo now stat none) = fun _ => 0 := by
  funext field
  cases field <;> rfl

theorem rateOf_again (i j : ℕ) (stat old : NetStat) :
    rateOf (netInfo (calls i).now stat (some { old with timepoint := (calls j).now })) =
      (sampling calls).rate i j old stat := by
  have hdt : dt (calls i).now (calls j).now =
      (sampling calls).time i - (sampling calls).time j := by
    rw [dt, sampling]
    push_cast
    ring
  funext field
  by_cases htime : (sampling calls).time j < (sampling calls).time i
  · have hpos : 0 < dt (calls i).now (calls j).now := hdt ▸ sub_pos.2 htime
    rw [Sampling.rate_of_lt htime, ← hdt]
    cases field <;>
      simp [rateOf, netInfo, sampling, unitOf, NetStat.counters, NetStats.get, hpos,
        div_eq_mul_inv]
  · have hpos : ¬ 0 < dt (calls i).now (calls j).now := fun h => htime (sub_pos.1 (hdt ▸ h))
    rw [Sampling.rate_of_not_lt htime]
    cases field <;> simp [rateOf, netInfo, hpos]

theorem reports_sampling : (sampling calls).Reports (reports calls) := by
  refine .of_tracks (fun i _ stat it => rateOf (netInfo (calls i).now stat it))
    (tracks_mapAt calls) (fun i => ?_) (fun i => ?_) (fun i _ => rateOf_new _)
    fun i j _ old stat => rateOf_again calls i j stat old
  · show ((readings calls i).map Prod.fst).Nodup
    rw [readings, List.map_map]
    exact (calls i).nodup
  · show reports calls i = (readings calls i).map _
    rw [reports, messagesAt, updateOnce_messages _ _ (calls i).nodup, readings, List.map_map,
      List.map_map]
    rfl

end Calls

end NetMonitor

/-! ### `DiskMonitor` -/

namespace DiskMonitor

/-- A rate of bytes or of operations. -/
inductive DiskRate
  | readBytes
  | writeBytes
  | readIops
  | writeIops

/-- The counter behind a rate. -/
def DiskSample.counter (sample : DiskSample) : DiskRate → UInt64
  | .readBytes => sample.sectorsRead
  | .writeBytes => sample.sectorsWritten
  | .readIops => sample.reads
  | .writeIops => sample.writes

/-- Sectors have 512 bytes. -/
def unitOf : DiskRate → ℚ
  | .readBytes | .writeBytes => 512
  | .readIops | .writeIops => 1

/-- The rates of a message. -/
def rateOf (disk : DiskInfo ℚ) : DiskRate → ℚ
  | .readBytes => disk.readBytesPerSec
  | .writeBytes => disk.writeBytesPerSec
  | .readIops => disk.readIops
  | .writeIops => disk.writeIops

section Calls

variable (calls : ℕ → Call)

/-- The counters behind the rates, and the times in seconds. -/
def sampling : Sampling String DiskSample DiskRate where
  readings := readings calls
  counter := DiskSample.counter
  unit := unitOf
  unit_pos rate := by cases rate <;> norm_num [unitOf]
  time i := ((calls i).now : ℚ)

/-- The rates that are reported with each name. -/
def reports (n : ℕ) : List (String × (DiskRate → ℚ)) :=
  (messagesAt calls n).map fun disk => (disk.name, rateOf disk)

theorem rateOf_new (now : ℚ) (e : String × DiskSample) :
    rateOf (diskReport now e none) = fun _ => 0 := by
  funext rate
  cases rate <;> rfl

theorem rateOf_again (i j : ℕ) (name : String) (curr last : DiskSample) :
    rateOf (diskReport (calls i).now (name, curr) (some (last, ((calls j).now : ℚ)))) =
      (sampling calls).rate i j last curr := by
  funext rate
  by_cases htime : (sampling calls).time j < (sampling calls).time i
  · rw [Sampling.rate_of_lt htime]
    have hlt : ((calls j).now : ℚ) < (calls i).now := htime
    cases rate <;>
      simp [rateOf, diskReport, diskInfo, State.ofCache, double, CxxFloat.lit, hlt, sampling,
        unitOf, DiskSample.counter]
  · rw [Sampling.rate_of_not_lt htime]
    have hlt : ¬ ((calls j).now : ℚ) < (calls i).now := htime
    cases rate <;> simp [rateOf, diskReport, diskInfo, State.ofCache, hlt]

theorem reports_sampling : (sampling calls).Reports (reports calls) := by
  refine .of_tracks (fun i name curr it => rateOf (diskReport (calls i).now (name, curr) it))
    (tracks_cacheAt calls) (fun i => (calls i).stats.nodup) (fun i => ?_)
    (fun i name curr => rateOf_new _ _)
    fun i j name last curr => rateOf_again calls i j name curr last
  show reports calls i = (readings calls i).map _
  rw [reports, messagesAt_eq, List.map_map]
  exact List.map_congr_left fun e _ => Prod.ext (name_diskReport _ _ _) rfl

end Calls

end DiskMonitor

/-- **Counter resets.**  Over every sequence of calls of `NetMonitor` all rates are between 0 and
what the new counters allow, divided by the elapsed time, if and only if no counter of an interface
is smaller than in its last sample at an earlier time; the same holds for the rates of bytes and
operations of `DiskMonitor`. -/
theorem reset_rates_iff (netCalls : ℕ → NetMonitor.Call) (diskCalls : ℕ → DiskMonitor.Call)
    (n : ℕ) :
    ((NetMonitor.sampling netCalls).Plausible (NetMonitor.reports netCalls) n ↔
      (NetMonitor.sampling netCalls).NoResets n) ∧
    ((DiskMonitor.sampling diskCalls).Plausible (DiskMonitor.reports diskCalls) n ↔
      (DiskMonitor.sampling diskCalls).NoResets n) :=
  ⟨Sampling.plausible_iff (NetMonitor.reports_sampling netCalls) n,
    Sampling.plausible_iff (DiskMonitor.reports_sampling diskCalls) n⟩

/-- `eth0` with 5000 received bytes, and one second later, after it was created anew, with 100. -/
def recreated (i : ℕ) : NetMonitor.Call where
  now := i * 1000000000
  stats := [{ name := "eth0", rcvBytes := if i = 0 then 5000 else 100 }]
  nodup := List.nodup_singleton _

/-- Almost `2 ^ 54` KB are reported for the second. -/
theorem reset_rate_absurd :
    ¬ ∀ (netCalls : ℕ → NetMonitor.Call) (n : ℕ),
      (NetMonitor.sampling netCalls).Plausible (NetMonitor.reports netCalls) n := by
  intro hclaim
  have hresets := (Sampling.plausible_iff (NetMonitor.reports_sampling recreated) 2).1
    (hclaim recreated 2)
  have hmem (i : ℕ) (stat : NetMonitor.NetStat) (hstat : stat ∈ (recreated i).stats) :
      (stat.name, stat) ∈ NetMonitor.readings recreated i :=
    NetMonitor.mem_readings.2 ⟨hstat, rfl⟩
  have hle := hresets 1 (by decide) "eth0" 0 _ _ (.of_mem (hmem 0 _ (List.mem_singleton_self _)))
    (hmem 1 _ (List.mem_singleton_self _))
    (by norm_num [NetMonitor.sampling, recreated]) .rcvBytes
  revert hle
  decide

end MonitorSystem
