import MonitorSystem.Library.CachedLoop
import MonitorSystem.Proto.Messages
import MonitorSystem.Worker.NetStats

/-!
# `NetEbpfMonitor`

`UpdateOnce` walks over the BPF map from interfaces to counters and reports the growth of each
counter since the last call, for each second, in integer arithmetic.  The names of the interfaces
are kept once they are known.
-/

namespace MonitorSystem

namespace NetEbpfMonitor

open Function (update update_self update_of_ne)
open NetEbpf (NetStats)

/-! ### The program -/

/-- `NetStatCache`; the timestamp counts the nanoseconds of `steady_clock`. -/
structure NetStatCache extends NetStats where
  timestamp : ℤ

/-- `cache_` and `ifname_cache_`. -/
structure State where
  cache : UInt32 → Option NetStatCache := fun _ => none
  ifnameCache : UInt32 → Option String := fun _ => none

/-- `GetIfName`, with what `if_indextoname` knows: the name and the cache it leaves. -/
def getIfName (indexToName : UInt32 → Option String) (ifnameCache : UInt32 → Option String)
    (ifindex : UInt32) : String × (UInt32 → Option String) :=
  match ifnameCache ifindex with
  | some name => (name, ifnameCache)
  | none =>
    match indexToName ifindex with
    | some name => (name, update ifnameCache ifindex (some name))
    | none => ("", ifnameCache)

/-- The rate of a counter: the difference is read as signed, a counter that decreased counts from
zero, and the quotient is cut.  The product is taken exactly; it is an `int64_t` in the source. -/
def rate (curr old : UInt64) (oldDuration : ℤ) : ℤ :=
  let diff := (curr - old).toInt64
  let diff := if diff < 0 then curr.toInt64 else diff
  (diff.toInt * 1000).tdiv oldDuration

/-- The message for an interface. -/
def netInfo (now : ℤ) (ifname : String) (stats : NetStats) (cacheIt : Option NetStatCache) :
    NetInfo ℚ :=
  -- zero at first sight, and unset when less than a millisecond has passed
  let value (field : NetStats → UInt64) : ℚ :=
    match cacheIt with
    | none => 0
    | some old =>
      let oldDuration := (now - old.timestamp).tdiv 1000000
      if 0 < oldDuration then rate (field stats) (field old.toNetStats) oldDuration else 0
  { name := ifname
    rcvRate := value (·.rcvBytes)
    sendRate := value (·.sndBytes)
    rcvPacketsRate := value (·.rcvPackets)
    sendPacketsRate := value (·.sndPackets)
    errIn := 0
    errOut := 0
    dropIn := 0
    dropOut := 0 }

/-- The keys of the map in the order of `bpf_map_get_next_key`, each with what
`bpf_map_lookup_elem` returns for it. -/
abbrev Entries := List (UInt32 × Option NetStats)

/-- The loop over the map. -/
def walk (indexToName : UInt32 → Option String) (now : ℤ) :
    Entries → State → List (NetInfo ℚ) × State
  | [], s => ([], s)
  | (_, none) :: rest, s => walk indexToName now rest s
  | (key, some stats) :: rest, s =>
    let (ifname, ifnameCache) := getIfName indexToName s.ifnameCache key
    if ifname = "" ∨ ifname = "lo" then
      walk indexToName now rest { s with ifnameCache := ifnameCache }
    else
      let (messages, s') := walk indexToName now rest
        { cache := update s.cache key (some { stats with timestamp := now })
          ifnameCache := ifnameCache }
      (netInfo now ifname stats (s.cache key) :: messages, s')

/-- `UpdateOnce`; `loaded` says that the program is loaded and the map open. -/
def updateOnce (loaded : Bool) (indexToName : UInt32 → Option String) (now : ℤ) (entries : Entries)
    (s : State) : List (NetInfo ℚ) × State :=
  if loaded then walk indexToName now entries s else ([], s)

/-! ### The walk as a loop over the visible interfaces -/

section Walk

variable {indexToName : UInt32 → Option String}

/-- The name of an interface. -/
def resolve (indexToName : UInt32 → Option String) (ifnameCache : UInt32 → Option String)
    (ifindex : UInt32) : String := (getIfName indexToName ifnameCache ifindex).1

theorem resolve_eq (ifnameCache : UInt32 → Option String) (ifindex : UInt32) :
    resolve indexToName ifnameCache ifindex =
      (ifnameCache ifindex).getD ((indexToName ifindex).getD "") := by
  unfold resolve getIfName
  cases ifnameCache ifindex with
  | some name => rfl
  | none => cases indexToName ifindex <;> rfl

variable (indexToName) in
/-- Keeping a name changes none. -/
theorem resolve_getIfName (ifnameCache : UInt32 → Option String) (key other : UInt32) :
    resolve indexToName (getIfName indexToName ifnameCache key).2 other =
      resolve indexToName ifnameCache other := by
  rw [resolve_eq, resolve_eq]
  unfold getIfName
  cases hcache : ifnameCache key with
  | some name => rfl
  | none =>
    cases hname : indexToName key with
    | none => rfl
    | some name =>
      show (update ifnameCache key (some name) other).getD _ = _
      by_cases hother : other = key
      · rw [hother, update_self, hcache, hname]
        rfl
      · rw [update_of_ne hother]

/-- The interfaces that get a message, with their names. -/
def visible (indexToName : UInt32 → Option String) (ifnameCache : UInt32 → Option String)
    (entries : Entries) : List (UInt32 × String × NetStats) :=
  entries.filterMap fun e => e.2.bind fun stats =>
    let ifname := resolve indexToName ifnameCache e.1
    if ifname = "" ∨ ifname = "lo" then none else some (e.1, ifname, stats)

theorem of_mem_visible {ifnameCache : UInt32 → Option String} {entries : Entries} {key : UInt32}
    {name : String} {stats : NetStats}
    (h : (key, name, stats) ∈ visible indexToName ifnameCache entries) :
    (key, some stats) ∈ entries ∧ resolve indexToName ifnameCache key = name := by
  obtain ⟨⟨key', found⟩, hmem, hsome⟩ := List.mem_filterMap.1 h
  cases found with
  | none => cases hsome
  | some stats' =>
    simp only [Option.bind_some] at hsome
    split_ifs at hsome
    cases hsome
    exact ⟨hmem, rfl⟩

theorem mem_visible {ifnameCache : UInt32 → Option String} {entries : Entries} {key : UInt32}
    {name : String} {stats : NetStats} (hne : name ≠ "") (hlo : name ≠ "lo")
    (hmem : (key, some stats) ∈ entries) (hname : resolve indexToName ifnameCache key = name) :
    (key, name, stats) ∈ visible indexToName ifnameCache entries := by
  subst hname
  refine List.mem_filterMap.2 ⟨(key, some stats), hmem, ?_⟩
  simp [hne, hlo]

theorem visible_skip {ifnameCache : UInt32 → Option String} {key : UInt32} {stats : NetStats}
    (h : resolve indexToName ifnameCache key = "" ∨ resolve indexToName ifnameCache key = "lo")
    (rest : Entries) : visible indexToName ifnameCache ((key, some stats) :: rest) =
      visible indexToName ifnameCache rest := by
  simp [visible, h]

theorem visible_keep {ifnameCache : UInt32 → Option String} {key : UInt32} {stats : NetStats}
    (h : ¬ (resolve indexToName ifnameCache key = "" ∨ resolve indexToName ifnameCache key = "lo"))
    (rest : Entries) : visible indexToName ifnameCache ((key, some stats) :: rest) =
      (key, resolve indexToName ifnameCache key, stats) ::
        visible indexToName ifnameCache rest := by
  simp [visible, h]

theorem nodup_visible {ifnameCache : UInt32 → Option String} {entries : Entries}
    (h : (entries.map Prod.fst).Nodup) :
    ((visible indexToName ifnameCache entries).map Prod.fst).Nodup := by
  refine h.sublist ?_
  clear h
  induction entries with
  | nil => exact .slnil
  | cons e rest ih =>
    obtain ⟨key, found⟩ := e
    cases found with
    | none => exact ih.cons key
    | some stats =>
      by_cases hskip : resolve indexToName ifnameCache key = "" ∨
          resolve indexToName ifnameCache key = "lo"
      · rw [visible_skip hskip]
        exact ih.cons key
      · rw [visible_keep hskip]
        exact ih.cons_cons key

theorem visible_congr {ifnameCache ifnameCache' : UInt32 → Option String}
    (h : ∀ key, resolve indexToName ifnameCache' key = resolve indexToName ifnameCache key)
    (entries : Entries) :
    visible indexToName ifnameCache' entries = visible indexToName ifnameCache entries := by
  unfold visible
  simp only [h]

theorem walk_eq_loop (now : ℤ) (entries : Entries) (s : State) :
    let loop := CachedLoop.loop Prod.fst
      (fun (e : UInt32 × String × NetStats) old => some (netInfo now e.2.1 e.2.2 old))
      (fun e => { e.2.2 with timestamp := now }) (visible indexToName s.ifnameCache entries) s.cache
    (walk indexToName now entries s).1 = loop.1 ∧
      (walk indexToName now entries s).2.cache = loop.2 ∧
      ∀ key, resolve indexToName (walk indexToName now entries s).2.ifnameCache key =
        resolve indexToName s.ifnameCache key := by
  induction entries generalizing s with
  | nil => exact ⟨rfl, rfl, fun _ => rfl⟩
  | cons e rest ih =>
    obtain ⟨key, found⟩ := e
    cases found with
    | none => exact ih s
    | some stats =>
      have hnames := resolve_getIfName indexToName s.ifnameCache key
      by_cases hskip : resolve indexToName s.ifnameCache key = "" ∨
          resolve indexToName s.ifnameCache key = "lo"
      · have hwalk : walk indexToName now ((key, some stats) :: rest) s =
            walk indexToName now rest
              { s with ifnameCache := (getIfName indexToName s.ifnameCache key).2 } := if_pos hskip
        obtain ⟨ih₁, ih₂, ih₃⟩ :=
          ih { s with ifnameCache := (getIfName indexToName s.ifnameCache key).2 }
        rw [visible_congr hnames] at ih₁ ih₂
        rw [hwalk, visible_skip hskip]
        exact ⟨ih₁, ih₂, fun k => (ih₃ k).trans (hnames k)⟩
      · have hwalk : walk indexToName now ((key, some stats) :: rest) s =
            (netInfo now (resolve indexToName s.ifnameCache key) stats (s.cache key) ::
              (walk indexToName now rest
                { cache := update s.cache key (some { stats with timestamp := now })
                  ifnameCache := (getIfName indexToName s.ifnameCache key).2 }).1,
              (walk indexToName now rest
                { cache := update s.cache key (some { stats with timestamp := now })
                  ifnameCache := (getIfName indexToName s.ifnameCache key).2 }).2) := if_neg hskip
        obtain ⟨ih₁, ih₂, ih₃⟩ := ih
          { cache := update s.cache key (some { stats with timestamp := now })
            ifnameCache := (getIfName indexToName s.ifnameCache key).2 }
        rw [visible_congr hnames] at ih₁ ih₂
        rw [hwalk, visible_keep hskip, CachedLoop.loop_cons]
        exact ⟨congrArg (List.cons _) ih₁, ih₂, fun k => (ih₃ k).trans (hnames k)⟩

/-- With distinct keys, the messages are those of the visible interfaces. -/
theorem walk_messages {entries : Entries} (hnodup : (entries.map Prod.fst).Nodup) (now : ℤ)
    (s : State) : (walk indexToName now entries s).1 =
      (visible indexToName s.ifnameCache entries).map fun e =>
        netInfo now e.2.1 e.2.2 (s.cache e.1) := by
  rw [(walk_eq_loop now entries s).1, CachedLoop.loop_messages (nodup_visible hnodup)]
  exact congrFun List.filterMap_eq_map _

/-- The cache afterwards holds every visible interface. -/
theorem walk_cache {entries : Entries} (hnodup : (entries.map Prod.fst).Nodup) (now : ℤ)
    (s : State) {key : UInt32} {name : String} {stats : NetStats}
    (hmem : (key, name, stats) ∈ visible indexToName s.ifnameCache entries) :
    (walk indexToName now entries s).2.cache key = some { stats with timestamp := now } := by
  rw [(walk_eq_loop now entries s).2.1]
  exact CachedLoop.loop_cache_of_mem (nodup_visible hnodup) hmem

end Walk

/-! ### An interface over two calls -/

/-- The interface with the index `key` and the name `name`, and no other of that name, is in the map
with the counters `c`. -/
structure Observes (indexToName ifnameCache : UInt32 → Option String) (entries : Entries)
    (name : String) (key : UInt32) (c : NetStats) : Prop where
  nodup : (entries.map Prod.fst).Nodup
  mem : (key, some c) ∈ entries
  resolve_eq : resolve indexToName ifnameCache key = name
  only : ∀ other stats, (other, some stats) ∈ entries →
    resolve indexToName ifnameCache other = name → other = key

/-- After two calls the message for an interface compares the counters of the two. -/
theorem walk_second {indexToName₀ indexToName₁ : UInt32 → Option String}
    {entries₀ entries₁ : Entries} {name : String} {key : UInt32} {c₀ c₁ : NetStats} {s : State}
    {t₀ : ℤ} (t₁ : ℤ)
    (hne : name ≠ "") (hlo : name ≠ "lo")
    (h₀ : Observes indexToName₀ s.ifnameCache entries₀ name key c₀)
    (h₁ : Observes indexToName₁ (walk indexToName₀ t₀ entries₀ s).2.ifnameCache entries₁ name key
      c₁) :
    netInfo t₁ name c₁ (some { c₀ with timestamp := t₀ }) ∈
        (walk indexToName₁ t₁ entries₁ (walk indexToName₀ t₀ entries₀ s).2).1 ∧
      ∀ m ∈ (walk indexToName₁ t₁ entries₁ (walk indexToName₀ t₀ entries₀ s).2).1, m.name = name ↔
        m = netInfo t₁ name c₁ (some { c₀ with timestamp := t₀ }) := by
  have hvisible₀ := mem_visible hne hlo h₀.mem h₀.resolve_eq
  have hvisible₁ := mem_visible hne hlo h₁.mem h₁.resolve_eq
  have hcache := walk_cache h₀.nodup t₀ s hvisible₀
  rw [walk_messages h₁.nodup]
  refine ⟨List.mem_map.2 ⟨_, hvisible₁, by rw [hcache]⟩, fun m hm => ?_⟩
  obtain ⟨⟨other, ifname, stats⟩, hother, rfl⟩ := List.mem_map.1 hm
  constructor
  · intro hname
    obtain ⟨hmem, hresolve⟩ := of_mem_visible hother
    obtain rfl : ifname = name := hname
    obtain rfl := h₁.only other stats hmem hresolve
    have hsame := List.inj_on_of_nodup_map h₁.nodup hmem h₁.mem rfl
    obtain rfl : stats = c₁ := Option.some.inj (congrArg Prod.snd hsame)
    rw [hcache]
  · intro heq
    rw [heq]
    rfl

end NetEbpfMonitor

end MonitorSystem
