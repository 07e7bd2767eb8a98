import MonitorSystem.Library.CachedLoop
import MonitorSystem.Library.LastSeen
import MonitorSystem.Worker.DiskMonitor

/-!
# The rates of `DiskMonitor`

Over a sequence of calls, each message compares what a call reads of a disk with what the last call
before it has read under the same name (`messagesAt_eq`, `tracks_cacheAt`).

The time of a call comes from `time()`, in whole seconds, while the counters of the kernel count
milliseconds.  `disk_util_iff` says when the utilisation is a percentage all the same.
-/

namespace MonitorSystem

namespace DiskMonitor

open Function (update)
open InputStream
open LastSeen (Previous Tracks)

/-! ### Calls -/

/-- The sample in a line, under the name of its disk, unless the disk is skipped. -/
def sampleOf (line : List Char) : Option (String × DiskSample) :=
  if isVirtual (readLine line).1 then none
  else some (String.ofList (readLine line).1, (readLine line).2)

/-- The samples in a text. -/
def samples (text : List Char) : List (String × DiskSample) := (lines text).filterMap sampleOf

/-- A text of `/proc/diskstats` in which no disk has two lines. -/
structure Diskstats where
  text : List Char
  nodup : ((samples text).map Prod.fst).Nodup

/-- A call: what `time()` returns, and what is read. -/
structure Call where
  now : ℤ
  stats : Diskstats

/-- A sample and its time. -/
abbrev Cache := String → Option (DiskSample × ℚ)

/-- `last_samples` and `last_time`, which are always filled together. -/
def State.ofCache (cache : Cache) : State ℚ where
  lastSamples name := (cache name).map Prod.fst
  lastTime name := (cache name).map Prod.snd

theorem remember_ofCache (cache : Cache) (now : ℚ) (name : String) (curr : DiskSample) :
    (State.ofCache cache).remember now name curr =
      .ofCache (update cache name (some (curr, now))) := by
  have hmap {V : Type} (f : DiskSample × ℚ → V) :
      (fun other => (update cache name (some (curr, now)) other).map f) =
        update (fun other => (cache other).map f) name (some (f (curr, now))) :=
    funext fun other => Function.apply_update (fun _ => Option.map f) cache name _ other
  rw [State.remember, State.ofCache, State.ofCache, hmap, hmap]

/-- The message for a disk, from what the cache holds under its name. -/
def diskReport (now : ℚ) (e : String × DiskSample) (it : Option (DiskSample × ℚ)) : DiskInfo ℚ :=
  diskInfo now (.ofCache fun _ => it) e.1 e.2

section Lines

variable {F : Type} [CxxFloat F] {line : List Char} (now : F) (rest : List (List Char))
  (state : State F)

theorem updateLines_skip (h : sampleOf line = none) :
    updateLines now (line :: rest) state = updateLines now rest state := by
  have hvirtual : isVirtual (readLine line).1 = true := by
    simpa [sampleOf] using h
  rw [updateLines]
  exact if_pos hvirtual

theorem updateLines_sample {name : String} {curr : DiskSample}
    (h : sampleOf line = some (name, curr)) :
    updateLines now (line :: rest) state =
      (diskInfo now state name curr :: (updateLines now rest (state.remember now name curr)).1,
        (updateLines now rest (state.remember now name curr)).2) := by
  rw [sampleOf] at h
  split_ifs at h with hvirtual
  cases h
  rw [updateLines]
  exact if_neg hvirtual

end Lines

/-- `UpdateOnce` is a loop over the samples. -/
theorem updateLines_eq_loop (now : ℚ) (ls : List (List Char)) (cache : Cache) :
    let loop := CachedLoop.loop Prod.fst (fun e it => some (diskReport now e it))
      (fun e => (e.2, now)) (ls.filterMap sampleOf) cache
    updateLines now ls (.ofCache cache) = (loop.1, .ofCache loop.2) := by
  induction ls generalizing cache with
  | nil => rfl
  | cons line rest ih =>
    cases hsample : sampleOf line with
    | none =>
      rw [updateLines_skip now rest _ hsample, List.filterMap_cons_none hsample]
      exact ih cache
    | some e =>
      rw [updateLines_sample now rest _ hsample, List.filterMap_cons_some hsample,
        CachedLoop.loop_cons, remember_ofCache, ih]
      rfl

section Calls

variable (calls : ℕ → Call)

/-- The state before call `n`. -/
def stateAt : ℕ → State ℚ
  | 0 => {}
  | n + 1 => (updateOnce ((calls n).now : ℚ) (calls n).stats.text (stateAt n)).2

/-- The messages of call `n`. -/
def messagesAt (n : ℕ) : List (DiskInfo ℚ) :=
  (updateOnce ((calls n).now : ℚ) (calls n).stats.text (stateAt calls n)).1

/-- What the calls read. -/
def readings (n : ℕ) : List (String × DiskSample) := samples (calls n).stats.text

/-- The state before call `n`, as one cache. -/
def cacheAt : ℕ → Cache
  | 0 => fun _ => none
  | n + 1 => (CachedLoop.loop Prod.fst
      (fun e it => some (diskReport ((calls n).now : ℚ) e it))
      (fun e => (e.2, ((calls n).now : ℚ))) (readings calls n) (cacheAt n)).2

theorem stateAt_eq (n : ℕ) : stateAt calls n = .ofCache (cacheAt calls n) := by
  induction n with
  | zero => rfl
  | succ n ih =>
    rw [stateAt, ih, updateOnce, updateLines_eq_loop]
    rfl

/-- The cache follows the readings. -/
theorem tracks_cacheAt : Tracks (readings calls)
    (fun i _ curr => (curr, ((calls i).now : ℚ))) (cacheAt calls) where
  start _ := rfl
  seen n _ _ hmem := CachedLoop.loop_cache_of_mem (calls n).stats.nodup hmem
  unseen _ _ hmem := CachedLoop.loop_cache_of_notMem hmem

/-- Each sample is compared with what the cache holds of its disk. -/
theorem messagesAt_eq (n : ℕ) : messagesAt calls n = (readings calls n).map fun e =>
    diskReport (calls n).now e (cacheAt calls n e.1) := by
  rw [messagesAt, stateAt_eq, updateOnce, updateLines_eq_loop]
  refine (CachedLoop.loop_messages (calls n).stats.nodup).trans ?_
  exact congrFun List.filterMap_eq_map _

end Calls

theorem name_diskReport (now : ℚ) (e : String × DiskSample) (it : Option (DiskSample × ℚ)) :
    (diskReport now e it).name = e.1 :=
  congrArg Prod.fst (report_diskInfo now (.ofCache fun _ => it) e.1 e.2)

/-! ### The format of the kernel -/

theorem samples_procDiskstats (devices : List Device) : samples (procDiskstats devices) =
    (physical devices).map fun d => (String.ofList d.name, d.counters.firstNine) := by
  rw [samples, lines_procDiskstats, List.filterMap_map, physical, ← List.filterMap_eq_map',
    List.filterMap_filter]
  refine List.filterMap_congr fun d _ => ?_
  rw [Function.comp_apply, sampleOf, readLine_line]
  cases isVirtual d.name <;> rfl

/-- What the kernel prints about disks with different names. -/
def Diskstats.ofDevices (devices : List Device)
    (h : ((physical devices).map fun d => String.ofList d.name).Nodup) : Diskstats where
  text := procDiskstats devices
  nodup := by
    rw [samples_procDiskstats, List.map_map]
    exact h

/-- `sda`, which has spent `ms` milliseconds on what is read as `io_time_ms`. -/
def busyFor (ms : ℕ) : Device :=
  { sda with counters := { sda.counters with msWriting := UInt64.ofNat ms } }

/-- What is read of it. -/
def busySample (ms : ℕ) : DiskSample := (busyFor ms).counters.firstNine

/-! ### The utilisation -/

theorem utilPercent_new (now : ℚ) (e : String × DiskSample) :
    (diskReport now e none).utilPercent = 0 := rfl

theorem utilPercent_again (now : ℚ) (e : String × DiskSample) (last : DiskSample) (t : ℚ) :
    (diskReport now e (some (last, t))).utilPercent =
      if t < now then ((e.2.ioTimeMs - last.ioTimeMs).toNat : ℚ) / ((now - t) * 10) else 0 := by
  by_cases htime : t < now <;>
    simp [diskReport, diskInfo, State.ofCache, double, CxxFloat.lit, htime]

/-- The utilisation is at most 100 when the counter has not grown faster than the whole seconds
between the calls. -/
theorem utilPercent_mem_iff (now t : ℤ) (e : String × DiskSample) (last : DiskSample) :
    (diskReport now e (some (last, (t : ℚ)))).utilPercent ∈ Set.Icc 0 100 ↔
      (t < now → ((e.2.ioTimeMs - last.ioTimeMs).toNat : ℤ) ≤ 1000 * (now - t)) := by
  rw [utilPercent_again]
  by_cases htime : t < now
  · have hcast : (t : ℚ) < now := by exact_mod_cast htime
    have hpos : (0 : ℚ) < ((now : ℚ) - t) * 10 := by linarith
    have hbound : ((e.2.ioTimeMs - last.ioTimeMs).toNat : ℤ) ≤ 1000 * (now - t) ↔
        ((e.2.ioTimeMs - last.ioTimeMs).toNat : ℚ) ≤ 1000 * ((now : ℚ) - t) := by
      exact_mod_cast Iff.rfl
    rw [if_pos hcast, Set.mem_Icc, div_le_iff₀ hpos, hbound]
    constructor
    · rintro ⟨-, hle⟩ -
      linarith
    · intro hle
      exact ⟨by positivity, by linarith [hle htime]⟩
  · have hcast : ¬ (t : ℚ) < now := by exact_mod_cast htime
    rw [if_neg hcast]
    refine iff_of_true ?_ fun h => absurd h htime
    norm_num

/-- The calls at the times `t`, in milliseconds, of which `time()` shows the whole seconds. -/
def callsAt (t : ℕ → ℤ) (texts : ℕ → Diskstats) (i : ℕ) : Call := ⟨t i / 1000, texts i⟩

/-- Every utilisation that the first `n` calls report is a percentage. -/
def UtilInRange (calls : ℕ → Call) (n : ℕ) : Prop :=
  ∀ i < n, ∀ disk ∈ messagesAt calls i, disk.utilPercent ∈ Set.Icc 0 100

/-- **The utilisation of disks.**  Over every sequence of calls the reported utilisation is between
0 and 100 if and only if, whenever a disk is read again in a later second, its `io_time_ms` has
grown by at most 1000 for each second by which the clock of whole seconds has advanced. -/
theorem disk_util_iff (t : ℕ → ℤ) (texts : ℕ → Diskstats) (n : ℕ) :
    UtilInRange (callsAt t texts) n ↔
      ∀ i < n, ∀ name j old new, Previous (readings (callsAt t texts)) i name j old →
        (name, new) ∈ readings (callsAt t texts) i → t j / 1000 < t i / 1000 →
        ((new.ioTimeMs - old.ioTimeMs).toNat : ℤ) ≤ 1000 * (t i / 1000 - t j / 1000) := by
  have htracks := tracks_cacheAt (callsAt t texts)
  constructor
  · intro hrange i hi name j old new hprev hmem
    have hdisk := hrange i hi _ (messagesAt_eq _ i ▸ List.mem_map_of_mem hmem)
    rw [htracks.eq_some hprev] at hdisk
    exact (utilPercent_mem_iff (t i / 1000) (t j / 1000) (name, new) old).1 hdisk
  · intro hgrowth i hi disk hdisk
    rw [messagesAt_eq] at hdisk
    obtain ⟨⟨name, new⟩, hmem, rfl⟩ := List.mem_map.1 hdisk
    cases hcache : cacheAt (callsAt t texts) i name with
    | none =>
      rw [utilPercent_new]
      norm_num
    | some kept =>
      obtain ⟨j, old, hprev, rfl⟩ := htracks.exists_previous hcache
      exact (utilPercent_mem_iff (t i / 1000) (t j / 1000) (name, new) old).2
        (hgrowth i hi name j old new hprev hmem)

/-- A disk that is busy all the time, and calls every 1.9 seconds. -/
def busyTexts (i : ℕ) : Diskstats := .ofDevices [busyFor (1900 * i)] (List.nodup_singleton _)

theorem readings_busyTexts (t : ℕ → ℤ) (i : ℕ) :
    readings (callsAt t busyTexts) i = [("sda", busySample (1900 * i))] :=
  samples_procDiskstats [busyFor (1900 * i)]

/-- The second call reports 190 percent. -/
theorem disk_util_above_hundred :
    ¬ ∀ (t : ℕ → ℤ) (texts : ℕ → Diskstats) (n : ℕ), StrictMono t →
      (∀ i < n, ∀ name j old new, Previous (readings (callsAt t texts)) i name j old →
        (name, new) ∈ readings (callsAt t texts) i → old.ioTimeMs ≤ new.ioTimeMs ∧
          (new.ioTimeMs.toNat : ℤ) - old.ioTimeMs.toNat ≤ t i - t j) →
      UtilInRange (callsAt t texts) n := by
  intro hclaim
  let t : ℕ → ℤ := fun i => 1900 * i
  have hmem (i : ℕ) : ("sda", busySample (1900 * i)) ∈ readings (callsAt t busyTexts) i := by
    rw [readings_busyTexts]
    exact List.mem_singleton_self _
  have hrange : UtilInRange (callsAt t busyTexts) 2 := by
    refine hclaim t busyTexts 2 (fun i j hij => ?_) fun i hi name j old new hprev hnew => ?_
    · show (1900 * i : ℤ) < 1900 * j
      omega
    · obtain ⟨rfl, rfl⟩ : i = 1 ∧ j = 0 := by
        have := hprev.lt
        omega
      have hold := hprev.mem
      rw [readings_busyTexts, List.mem_singleton] at hold hnew
      obtain ⟨-, rfl⟩ := Prod.mk.inj hold
      obtain ⟨-, rfl⟩ := Prod.mk.inj hnew
      decide +kernel
  have hprev : Previous (readings (callsAt t busyTexts)) 1 "sda" 0 (busySample 0) :=
    .of_mem (hmem 0)
  have hdisk := hrange 1 (by decide) _ (messagesAt_eq _ 1 ▸ List.mem_map_of_mem (hmem 1))
  rw [(tracks_cacheAt _).eq_some hprev] at hdisk
  have hle := (utilPercent_mem_iff 1 0 ("sda", busySample 1900) (busySample 0)).1 hdisk
  revert hle
  decide +kernel

end DiskMonitor

end MonitorSystem
