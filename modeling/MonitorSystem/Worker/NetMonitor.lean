import MonitorSystem.Library.CachedLoop
import MonitorSystem.Proto.Messages
import MonitorSystem.Worker.NetStats

/-!
# `NetMonitor`

`UpdateOnce` takes the counters of each interface from `/proc/net/dev` and reports their growth
since the last call, in KB or packets for each second.  The arithmetic of `double` and `float` is
exact here; the differences of the counters wrap around.
-/

namespace MonitorSystem

namespace NetMonitor

open NetEbpf (NetStats)

/-! ### The program -/

/-- `NetStat`. -/
structure NetStat where
  name : String
  rcvBytes : UInt64 := 0
  rcvPackets : UInt64 := 0
  sndBytes : UInt64 := 0
  sndPackets : UInt64 := 0
  errIn : UInt64 := 0
  errOut : UInt64 := 0
  dropIn : UInt64 := 0
  dropOut : UInt64 := 0

/-- `NetMonitor::NetInfo`; the time point counts the nanoseconds of `steady_clock`. -/
structure LastNetInfo extends NetStat where
  timepoint : ℤ

/-- `last_net_info_`. -/
abbrev LastNetInfoMap := String → Option LastNetInfo

/-- `dt` in seconds. -/
def dt (now timepoint : ℤ) : ℚ := ((now - timepoint : ℤ) : ℚ) / 1000000000

/-- The message for an interface; `it` is what was kept of the last call. -/
def netInfo (now : ℤ) (stat : NetStat) (it : Option LastNetInfo) : NetInfo ℚ :=
  -- zero at first sight, and when no time has passed
  let rate (growth : LastNetInfo → ℚ) : ℚ :=
    match it with
    | none => 0
    | some last => if 0 < dt now last.timepoint then growth last / dt now last.timepoint else 0
  { name := stat.name
    rcvRate := rate fun last => (stat.rcvBytes - last.rcvBytes).toNat / 1024
    rcvPacketsRate := rate fun last => (stat.rcvPackets - last.rcvPackets).toNat
    sendRate := rate fun last => (stat.sndBytes - last.sndBytes).toNat / 1024
    sendPacketsRate := rate fun last => (stat.sndPackets - last.sndPackets).toNat
    errIn := stat.errIn
    errOut := stat.errOut
    dropIn := stat.dropIn
    dropOut := stat.dropOut }

/-- `UpdateOnce`, with what `get_net_stats_from_proc` returns: the messages it adds and the map it
leaves. -/
def updateOnce (now : ℤ) (stats : List NetStat) (lastNetInfo : LastNetInfoMap) :
    List (NetInfo ℚ) × LastNetInfoMap :=
  CachedLoop.loop NetStat.name (fun stat it => some (netInfo now stat it))
    (fun stat => { stat with timepoint := now }) stats lastNetInfo

/-! ### An interface over two calls -/

/-- The byte and packet counters. -/
def NetStat.counters (stat : NetStat) : NetStats :=
  ⟨stat.rcvBytes, stat.rcvPackets, stat.sndBytes, stat.sndPackets⟩

/-- The interface `name` is listed, once, with the counters `c`. -/
structure Observes (stats : List NetStat) (name : String) (c : NetStats) : Prop where
  nodup : (stats.map NetStat.name).Nodup
  mem : ∃ stat ∈ stats, stat.name = name ∧ stat.counters = c

/-- Each interface is compared with what is kept from the last call. -/
theorem updateOnce_messages (t : ℤ) {stats : List NetStat} (lastNetInfo : LastNetInfoMap)
    (hnodup : (stats.map NetStat.name).Nodup) :
    (updateOnce t stats lastNetInfo).1 =
      stats.map fun stat => netInfo t stat (lastNetInfo stat.name) := by
  rw [updateOnce, CachedLoop.loop_messages hnodup]
  exact congrFun List.filterMap_eq_map stats

/-- After two calls the message for an interface compares the counters of the two. -/
theorem updateOnce_second {stats₀ stats₁ : List NetStat} {name : String} {c₀ c₁ : NetStats}
    (h₀ : Observes stats₀ name c₀) (h₁ : Observes stats₁ name c₁) (t₀ t₁ : ℤ)
    (lastNetInfo : LastNetInfoMap) :
    ∃ stat₀ stat₁ : NetStat, stat₀.counters = c₀ ∧ stat₁.counters = c₁ ∧
      netInfo t₁ stat₁ (some { stat₀ with timepoint := t₀ }) ∈
        (updateOnce t₁ stats₁ (updateOnce t₀ stats₀ lastNetInfo).2).1 ∧
      ∀ m ∈ (updateOnce t₁ stats₁ (updateOnce t₀ stats₀ lastNetInfo).2).1, m.name = name ↔
        m = netInfo t₁ stat₁ (some { stat₀ with timepoint := t₀ }) := by
  obtain ⟨stat₀, hmem₀, hname₀, hc₀⟩ := h₀.mem
  obtain ⟨stat₁, hmem₁, hname₁, hc₁⟩ := h₁.mem
  have hkept : (updateOnce t₀ stats₀ lastNetInfo).2 stat₁.name =
      some { stat₀ with timepoint := t₀ } := by
    rw [hname₁, ← hname₀]
    exact CachedLoop.loop_cache_of_mem h₀.nodup hmem₀
  rw [updateOnce_messages t₁ _ h₁.nodup]
  refine ⟨stat₀, stat₁, hc₀, hc₁, ?_, fun m hm => ?_⟩
  · exact List.mem_map.2 ⟨stat₁, hmem₁, by rw [hkept]⟩
  · obtain ⟨stat, hstat, rfl⟩ := List.mem_map.1 hm
    constructor
    · intro hname
      have hsame : stat = stat₁ :=
        List.inj_on_of_nodup_map h₁.nodup hstat hmem₁ (hname.trans hname₁.symm)
      rw [hsame, hkept]
    · intro heq
      rw [heq]
      exact hname₁

end NetMonitor

end MonitorSystem
