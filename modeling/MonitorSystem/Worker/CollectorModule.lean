import MonitorSystem.Library.Transition
import MonitorSystem.Worker.CpuStatCollector
import MonitorSystem.Worker.SoftirqCollector

/-!
# Loading and unloading the kernel modules

`cpu_stat_collector.c` and `softirq_collector.c` differ in what they write into their tables.  Their
init functions, with the `goto` paths of their failures, their exit functions, their timers and
their file operations are the same, and `step` interleaves them with the processes that open the
device, map the table, read it and close it again, in any order and for any number of loads.

The kernel holds an open or mapped file of a module against `rmmod`, and opens none while the
module is going; it does not wait for open files when an init function fails.  Whether that matters
depends on where a file can come from: `Event.open` may happen as soon as `cdev_add` has made the
device number valid, whereas the node that `device_create` makes appears only behind the last
failure (`ThroughNode`).

The loop with which an update writes the table is one step here, so the table is looked at between
two updates only; the modules put no lock around the loop, and a reader of the mapping may see a
part of it.
-/

namespace MonitorSystem

namespace CollectorModule

open Function (update update_self update_of_ne)
open Transition (run run_invariant run_invariant_along Along)

/-! ### The system -/

/-- What the modules differ in: the possible CPUs, and the counters that an update writes for a CPU
when it finds `C` in the kernel. -/
structure Module where
  T : Type
  C : Type
  zero : T
  cpus : List Cpu
  counters : C → Cpu → T

/-- `cpu_stat_collector.c`. -/
def cpuStatModule (K : CpuStatCollector.Kernel) (cpus : List Cpu) : Module where
  T := CpuStatCollector.CpuTimes
  C := Cpu → CpuStatCollector.KernelCpustat
  zero := {}
  cpus := cpus
  counters kcs cpu := CpuStatCollector.cpuTimes K (kcs cpu)

/-- `softirq_collector.c`. -/
def softirqModule (cpus : List Cpu) : Module where
  T := SoftirqCollector.SoftirqStat
  C := Cpu → SoftirqCollector.KstatSoftirqs
  zero := {}
  cpus := cpus
  counters kstat cpu := SoftirqCollector.softirqStat (kstat cpu)

/-- `update_cpu_stats` or `update_softirq_stats`. -/
def Module.update (m : Module) (c : m.C) (table : KernelTable m.T) : KernelTable m.T :=
  table.refill (m.cpus.map fun cpu => (cpu, m.counters c cpu))

example (K : CpuStatCollector.Kernel) (cpus : List Cpu) :
    (cpuStatModule K cpus).update = CpuStatCollector.updateCpuStats K cpus := rfl

example (cpus : List Cpu) :
    (softirqModule cpus).update = SoftirqCollector.updateSoftirqStats cpus := rfl

/-- `data_size`: 256 rows of 96 bytes, rounded up to whole pages. -/
def dataSize (pageSize : ℕ) : ℕ := (96 * maxCpus + pageSize - 1) / pageSize * pageSize

/-- The statement of the init or the exit function that comes next. -/
inductive Pc
  | unloaded
  | getFreePages
  | allocChrdevRegion
  | cdevAdd
  | classCreate
  | deviceCreate
  | firstUpdate
  | hrtimerStart
  | errClassDestroy
  | errCdevDel
  | errUnregister
  | errFreeMem
  /-- the init function has returned 0 -/
  | loaded
  | hrtimerCancel
  | deviceDestroy
  | classDestroy
  | cdevDel
  | unregisterChrdevRegion
  | freePages
  deriving DecidableEq

/-- The exit function is running. -/
def Pc.going : Pc → Bool
  | .hrtimerCancel | .deviceDestroy | .classDestroy | .cdevDel | .unregisterChrdevRegion
  | .freePages => true
  | _ => false

/-- What a module acquires and has to release. -/
inductive Resource
  | pages
  | region
  | cdev
  | class_
  | device
  | timer
  deriving DecidableEq

/-- What may go wrong. -/
inductive Fault
  /-- a resource is acquired that is held already -/
  | acquiredTwice
  /-- a resource is released that is not held -/
  | releasedTwice
  /-- the table is written when its pages have been freed -/
  | writeAfterFree
  /-- a process reads pages that have been freed -/
  | readAfterFree
  /-- the kernel calls a file operation of a module that has been removed -/
  | codeGone
  deriving DecidableEq

/-- An open file, and the load of the module in which it was opened. -/
structure File where
  id : ℕ
  load : ℕ
  deriving DecidableEq

/-- A mapping of the table. -/
structure Mapping where
  file : File
  size : ℕ
  deriving DecidableEq

structure State (m : Module) where
  pc : Pc := .unloaded
  held : Resource → Bool := fun _ => false
  table : KernelTable m.T := .zero m.zero
  /-- how often pages have been allocated -/
  loads : ℕ := 0
  /-- the files that are open -/
  fds : List File := []
  maps : List Mapping := []
  fault : Option Fault := none
  /-- what the updates of this load have found, latest first -/
  updates : List m.C := []

/-- The files that the kernel counts as users of the module. -/
def State.references {m : Module} (s : State m) : List File := s.fds ++ s.maps.map (·.file)

inductive Event (m : Module)
  | insmod
  /-- the next statement of the init or the exit function; `ok` is the success of what it calls -/
  | next (ok : Bool)
  /-- the update in the init function -/
  | firstUpdate (c : m.C)
  /-- `timer_callback` -/
  | tick (c : m.C)
  | rmmod
  | open (id : ℕ)
  | close (f : File)
  /-- `mmap`; `ok` is the success of `remap_pfn_range` -/
  | mmap (f : File) (size : ℕ) (ok : Bool)
  | munmap (j : ℕ)
  /-- a process reads mapping `j` -/
  | read (j : ℕ)

namespace State

variable {m : Module} (s : State m)

def acquire (r : Resource) (pc : Pc) : State m :=
  if s.held r then { s with fault := some .acquiredTwice }
  else { s with held := update s.held r true, pc := pc }

def release (r : Resource) (pc : Pc) : State m :=
  if s.held r then { s with held := update s.held r false, pc := pc }
  else { s with fault := some .releasedTwice }

/-- Write the table. -/
def write (c : m.C) (pc : Pc) : State m :=
  if s.held .pages then
    { s with table := m.update c s.table, updates := c :: s.updates, pc := pc }
  else { s with fault := some .writeAfterFree }

/-- The module is the one that the file was opened in. -/
def Current (f : File) : Prop := s.pc ≠ .unloaded ∧ f.load = s.loads

instance (f : File) : Decidable (s.Current f) := inferInstanceAs (Decidable (_ ∧ _))

/-- Call a file operation. -/
def call (f : File) (after : State m) : State m :=
  if s.Current f then after else { s with fault := some .codeGone }

/-- Drop a reference to a file; `release` is called with the last one. -/
def drop (f : File) (after : State m) : State m :=
  if f ∈ after.references then after else s.call f after

end State

/-- The statements of the init and the exit function. -/
def next {m : Module} (s : State m) (ok : Bool) : Option (State m) :=
  match s.pc with
  | .getFreePages =>
    if ok then
      some (({ s with table := .zero m.zero, loads := s.loads + 1, updates := [] }).acquire .pages
        .allocChrdevRegion)
    else some { s with pc := .unloaded }
  | .allocChrdevRegion =>
    some (if ok then s.acquire .region .cdevAdd else { s with pc := .errFreeMem })
  | .cdevAdd => some (if ok then s.acquire .cdev .classCreate else { s with pc := .errUnregister })
  | .classCreate =>
    some (if ok then s.acquire .class_ .deviceCreate else { s with pc := .errCdevDel })
  | .deviceCreate =>
    some (if ok then s.acquire .device .firstUpdate else { s with pc := .errClassDestroy })
  | .hrtimerStart => some (s.acquire .timer .loaded)
  | .errClassDestroy => some (s.release .class_ .errCdevDel)
  | .errCdevDel => some (s.release .cdev .errUnregister)
  | .errUnregister => some (s.release .region .errFreeMem)
  | .errFreeMem => some (s.release .pages .unloaded)
  | .hrtimerCancel => some (s.release .timer .deviceDestroy)
  | .deviceDestroy => some (s.release .device .classDestroy)
  | .classDestroy => some (s.release .class_ .cdevDel)
  | .cdevDel => some (s.release .cdev .unregisterChrdevRegion)
  | .unregisterChrdevRegion => some (s.release .region .freePages)
  | .freePages => some (s.release .pages .unloaded)
  | .unloaded | .firstUpdate | .loaded => none

/-- The effect of an event, as long as nothing has gone wrong. -/
def move {m : Module} (pageSize : ℕ) (s : State m) : Event m → Option (State m)
  | .insmod => if s.pc = .unloaded then some { s with pc := .getFreePages } else none
  | .next ok => next s ok
  | .firstUpdate c => if s.pc = .firstUpdate then some (s.write c .hrtimerStart) else none
  | .tick c => if s.held .timer then some (s.write c s.pc) else none
  | .rmmod =>
    -- the kernel refuses to remove a module that has users
    if s.pc = .loaded ∧ s.references = [] then some { s with pc := .hrtimerCancel } else none
  | .open id =>
    if s.held .cdev ∧ s.pc.going = false ∧ id ∉ s.references.map (·.id) then
      some { s with fds := ⟨id, s.loads⟩ :: s.fds }
    else none
  | .close f => if f ∈ s.fds then some (s.drop f { s with fds := s.fds.erase f }) else none
  | .mmap f size ok =>
    if f ∈ s.fds then
      some (s.call f
        (if size ≤ dataSize pageSize ∧ ok then { s with maps := ⟨f, size⟩ :: s.maps } else s))
    else none
  | .munmap j => (s.maps[j]?).map fun map => s.drop map.file { s with maps := s.maps.eraseIdx j }
  | .read j => (s.maps[j]?).map fun map =>
    if s.held .pages ∧ map.file.load = s.loads then s
    else { s with fault := some .readAfterFree }

/-- One step; an update of the whole table is one, and nothing follows a fault. -/
def step {m : Module} (pageSize : ℕ) (s : State m) (e : Event m) : Option (State m) :=
  if s.fault = none then move pageSize s e else none

/-! ### What a step can do -/

/-- The order in which the init function acquires. -/
def Resource.index : Resource → ℕ
  | .pages => 0
  | .region => 1
  | .cdev => 2
  | .class_ => 3
  | .device => 4
  | .timer => 5

/-- How many resources are held. -/
def Pc.level : Pc → ℕ
  | .unloaded | .getFreePages => 0
  | .allocChrdevRegion | .errFreeMem | .freePages => 1
  | .cdevAdd | .errUnregister | .unregisterChrdevRegion => 2
  | .classCreate | .errCdevDel | .cdevDel => 3
  | .deviceCreate | .errClassDestroy | .classDestroy => 4
  | .firstUpdate | .hrtimerStart | .deviceDestroy => 5
  | .loaded | .hrtimerCancel => 6

/-- The resources that are held before a statement. -/
def heldAt (pc : Pc) (r : Resource) : Bool := r.index < pc.level

theorem Resource.index_injective : Function.Injective Resource.index := by
  intro r r' h
  cases r <;> cases r' <;> first | rfl | cases h

/-- One level up one resource more is held. -/
theorem heldAt_eq_update {pc pc' : Pc} {r : Resource} (hr : r.index = pc.level)
    (hpc : pc'.level = pc.level + 1) (b : Bool) :
    update (heldAt pc) r b = update (heldAt pc') r b := by
  funext r'
  by_cases h : r' = r
  · rw [h, update_self, update_self]
  · have hne : r'.index ≠ pc.level := fun heq => h (Resource.index_injective (heq.trans hr.symm))
    rw [update_of_ne h, update_of_ne h, heldAt, heldAt, hpc, decide_eq_decide]
    omega

/-- The statements that may follow one another, the allocation of the pages apart. -/
inductive Leads : Pc → Pc → Prop
  | noPages : Leads .getFreePages .unloaded
  | region : Leads .allocChrdevRegion .cdevAdd
  | noRegion : Leads .allocChrdevRegion .errFreeMem
  | cdev : Leads .cdevAdd .classCreate
  | noCdev : Leads .cdevAdd .errUnregister
  | class_ : Leads .classCreate .deviceCreate
  | noClass : Leads .classCreate .errCdevDel
  | device : Leads .deviceCreate .firstUpdate
  | noDevice : Leads .deviceCreate .errClassDestroy
  | timer : Leads .hrtimerStart .loaded
  | errClassDestroy : Leads .errClassDestroy .errCdevDel
  | errCdevDel : Leads .errCdevDel .errUnregister
  | errUnregister : Leads .errUnregister .errFreeMem
  | errFreeMem : Leads .errFreeMem .unloaded
  | hrtimerCancel : Leads .hrtimerCancel .deviceDestroy
  | deviceDestroy : Leads .deviceDestroy .classDestroy
  | classDestroy : Leads .classDestroy .cdevDel
  | cdevDel : Leads .cdevDel .unregisterChrdevRegion
  | unregisterChrdevRegion : Leads .unregisterChrdevRegion .freePages
  | freePages : Leads .freePages .unloaded

/-- The timer is started behind the first update, and then the init function returns. -/
theorem Leads.timer_last {pc pc' : Pc} (h : Leads pc pc') :
    pc' ≠ .hrtimerStart ∧ (pc' = .loaded → pc = .hrtimerStart) := by
  cases h <;> simp

section Next

variable {m : Module} {s s' : State m}

theorem acquire_eq (hs : s.held = heldAt s.pc) {r : Resource} {pc : Pc}
    (hr : r.index = s.pc.level) (hpc : pc.level = s.pc.level + 1) :
    s.acquire r pc = { s with held := heldAt pc, pc := pc } := by
  have hfree : s.held r = false := by rw [hs, heldAt, hr]; simp
  have hheld : heldAt pc r = true := by rw [heldAt, hr, hpc]; simp
  rw [State.acquire, if_neg (by simp [hfree]), hs, heldAt_eq_update hr hpc, ← hheld,
    Function.update_eq_self]

theorem release_eq (hs : s.held = heldAt s.pc) {r : Resource} {pc : Pc}
    (hr : r.index = pc.level) (hpc : s.pc.level = pc.level + 1) :
    s.release r pc = { s with held := heldAt pc, pc := pc } := by
  have hheld : s.held r = true := by rw [hs, heldAt, hr, hpc]; simp
  have hfree : heldAt pc r = false := by rw [heldAt, hr]; simp
  rw [State.release, if_pos hheld, hs, ← heldAt_eq_update hr hpc, ← hfree,
    Function.update_eq_self]

/-- A statement of the init function that may fail. -/
theorem attempt_cases (hs : s.held = heldAt s.pc) {ok : Bool} {r : Resource} {pc pc' : Pc}
    (h : some (if ok then s.acquire r pc else { s with pc := pc' }) = some s')
    (hr : r.index = s.pc.level) (hpc : pc.level = s.pc.level + 1) (hpc' : pc'.level = s.pc.level)
    (hlead : Leads s.pc pc) (hlead' : Leads s.pc pc') :
    ∃ pc, Leads s.pc pc ∧ s' = { s with held := heldAt pc, pc := pc } := by
  cases ok with
  | true =>
    rw [if_pos rfl, acquire_eq hs hr hpc] at h
    exact ⟨pc, hlead, (Option.some.inj h).symm⟩
  | false =>
    have hheld : s.held = heldAt pc' := by
      rw [hs]
      funext r'
      rw [heldAt, heldAt, hpc']
    rw [if_neg Bool.false_ne_true] at h
    exact ⟨pc', hlead', by rw [← hheld]; exact (Option.some.inj h).symm⟩

/-- A statement that gives something back. -/
theorem release_cases (hs : s.held = heldAt s.pc) {r : Resource} {pc : Pc}
    (h : some (s.release r pc) = some s') (hr : r.index = pc.level)
    (hpc : s.pc.level = pc.level + 1) (hlead : Leads s.pc pc) :
    ∃ pc, Leads s.pc pc ∧ s' = { s with held := heldAt pc, pc := pc } := by
  rw [release_eq hs hr hpc] at h
  exact ⟨pc, hlead, (Option.some.inj h).symm⟩

/-- Each statement finds held what it releases, and free what it acquires. -/
theorem next_cases (hs : s.held = heldAt s.pc) {ok : Bool} (h : next s ok = some s') :
    (s.pc = .getFreePages ∧ s' =
      { s with
        table := .zero m.zero
        loads := s.loads + 1
        updates := []
        held := heldAt .allocChrdevRegion
        pc := .allocChrdevRegion }) ∨
    ∃ pc, Leads s.pc pc ∧ s' = { s with held := heldAt pc, pc := pc } := by
  obtain ⟨pc, held, table, loads, fds, maps, fault, updates⟩ := s
  cases pc with
  | getFreePages =>
    cases ok with
    | true =>
      refine .inl ⟨rfl, (Option.some.inj h).symm.trans ?_⟩
      refine acquire_eq ?_ rfl rfl
      exact hs
    | false =>
      refine .inr ⟨.unloaded, .noPages, (Option.some.inj h).symm.trans ?_⟩
      exact congrArg (fun held => State.mk .unloaded held table loads fds maps fault updates) hs
  | allocChrdevRegion => exact .inr (attempt_cases hs h rfl rfl rfl .region .noRegion)
  | cdevAdd => exact .inr (attempt_cases hs h rfl rfl rfl .cdev .noCdev)
  | classCreate => exact .inr (attempt_cases hs h rfl rfl rfl .class_ .noClass)
  | deviceCreate => exact .inr (attempt_cases hs h rfl rfl rfl .device .noDevice)
  | hrtimerStart =>
    refine .inr ⟨.loaded, .timer, (Option.some.inj h).symm.trans ?_⟩
    exact acquire_eq hs rfl rfl
  | errClassDestroy => exact .inr (release_cases hs h rfl rfl .errClassDestroy)
  | errCdevDel => exact .inr (release_cases hs h rfl rfl .errCdevDel)
  | errUnregister => exact .inr (release_cases hs h rfl rfl .errUnregister)
  | errFreeMem => exact .inr (release_cases hs h rfl rfl .errFreeMem)
  | hrtimerCancel => exact .inr (release_cases hs h rfl rfl .hrtimerCancel)
  | deviceDestroy => exact .inr (release_cases hs h rfl rfl .deviceDestroy)
  | classDestroy => exact .inr (release_cases hs h rfl rfl .classDestroy)
  | cdevDel => exact .inr (release_cases hs h rfl rfl .cdevDel)
  | unregisterChrdevRegion => exact .inr (release_cases hs h rfl rfl .unregisterChrdevRegion)
  | freePages => exact .inr (release_cases hs h rfl rfl .freePages)
  | unloaded | firstUpdate | loaded => cases h

end Next

/-! ### Every resource once -/

section Runs

variable {m : Module} {pageSize : ℕ} {s s' : State m}

/-- The faults of a process that uses what the module has given back. -/
def Fault.OfUser (fault : Fault) : Prop := fault = .readAfterFree ∨ fault = .codeGone

/-- The module holds what it should, has not gone wrong itself, and has written the table since it
was allocated. -/
structure Sound (s : State m) : Prop where
  held : s.held = heldAt s.pc
  fault : ∀ fault, s.fault = some fault → fault.OfUser
  table : s.table = s.updates.foldr m.update (.zero m.zero)
  updated : s.pc = .hrtimerStart ∨ s.pc = .loaded → s.updates ≠ []

theorem sound_start : Sound ({} : State m) where
  held := by
    funext r
    simp [heldAt, Pc.level]
  fault := nofun
  table := rfl
  updated := by simp

theorem sound_write (hs : Sound s) {c : m.C} {pc : Pc} (hlevel : 0 < s.pc.level)
    (hpc : pc.level = s.pc.level) : Sound (s.write c pc) := by
  have hpages : s.held .pages = true := by
    rw [hs.held]
    exact decide_eq_true hlevel
  rw [State.write, if_pos hpages]
  refine ⟨?_, hs.fault, ?_, fun _ => List.cons_ne_nil c _⟩
  · rw [hs.held]
    funext r
    rw [heldAt, heldAt, hpc]
  · show m.update c s.table = _
    rw [hs.table]
    rfl

/-- A file operation changes neither the statement nor the resources nor the table. -/
theorem sound_call (hs : Sound s) {f : File} {after : State m} (hafter : Sound after) :
    Sound (s.call f after) := by
  unfold State.call
  split_ifs
  · exact hafter
  · exact ⟨hs.held, fun fault h => .inr (Option.some.inj h).symm, hs.table, hs.updated⟩

theorem sound_drop (hs : Sound s) {f : File} {after : State m} (hafter : Sound after) :
    Sound (s.drop f after) := by
  unfold State.drop
  split_ifs
  · exact hafter
  · exact sound_call hs hafter

/-- The files and the mappings are no concern of the module. -/
theorem Sound.users (hs : Sound s) (fds : List File) (maps : List Mapping) :
    Sound { s with fds := fds, maps := maps } :=
  ⟨hs.held, hs.fault, hs.table, hs.updated⟩

theorem sound_step {e : Event m} (hs : Sound s) (h : step pageSize s e = some s') : Sound s' := by
  unfold step at h
  split_ifs at h with hfault
  cases e with
  | insmod =>
    simp only [move] at h
    split_ifs at h with hpc
    cases h
    refine ⟨?_, hs.fault, hs.table, by simp⟩
    show s.held = _
    rw [hs.held, hpc]
    rfl
  | next ok =>
    rcases next_cases hs.held h with ⟨-, rfl⟩ | ⟨pc, hlead, rfl⟩
    · exact ⟨rfl, hs.fault, rfl, by simp⟩
    · obtain ⟨hne, hloaded⟩ := hlead.timer_last
      exact ⟨rfl, hs.fault, hs.table, fun hpc =>
        hs.updated (.inl (hloaded (hpc.resolve_left hne)))⟩
  | firstUpdate c =>
    simp only [move] at h
    split_ifs at h with hpc
    cases h
    exact sound_write hs (by simp [hpc, Pc.level]) (by simp [hpc, Pc.level])
  | tick c =>
    simp only [move] at h
    split_ifs at h with htimer
    cases h
    rw [hs.held] at htimer
    have hlevel : 5 < s.pc.level := of_decide_eq_true htimer
    exact sound_write hs (by omega) rfl
  | rmmod =>
    simp only [move] at h
    split_ifs at h with hpc
    cases h
    refine ⟨?_, hs.fault, hs.table, by simp⟩
    show s.held = _
    rw [hs.held, hpc.1]
    rfl
  | «open» id =>
    simp only [move] at h
    split_ifs at h
    cases h
    exact hs.users _ _
  | close f =>
    simp only [move] at h
    split_ifs at h
    cases h
    exact sound_drop hs (hs.users _ _)
  | mmap f size ok =>
    simp only [move] at h
    split_ifs at h
    · cases h
      exact sound_call hs (hs.users _ _)
    · cases h
      exact sound_call hs hs
  | munmap j =>
    obtain ⟨map, -, rfl⟩ := Option.map_eq_some_iff.1 h
    exact sound_drop hs (hs.users _ _)
  | read j =>
    obtain ⟨map, -, hmap⟩ := Option.map_eq_some_iff.1 h
    split_ifs at hmap
    · exact hmap ▸ hs
    · rw [← hmap]
      exact ⟨hs.held, fun fault h => .inl (Option.some.inj h).symm, hs.table, hs.updated⟩

theorem sound_run {es : List (Event m)} (h : run (step pageSize) {} es = some s) : Sound s :=
  run_invariant (fun _ _ _ => sound_step) h sound_start

/-- **The module keeps its accounts.**  In every run of loads, failing loads and unloads, with
processes that open, map, read, unmap and close at any time: the module acquires nothing twice,
releases nothing twice and never writes the table without its pages; when it is not loaded it holds
nothing, and once its init function has returned 0 it holds everything, and the table lists the
possible CPUs it has room for, each with the counters that one update has found. -/
theorem module_keeps_accounts {es : List (Event m)} (h : run (step pageSize) {} es = some s) :
    (∀ fault, s.fault = some fault → fault = .readAfterFree ∨ fault = .codeGone) ∧
    (s.pc = .unloaded → ∀ r, s.held r = false) ∧
    (s.held .timer = true → s.held .pages = true) ∧
    (s.pc = .loaded → (∀ r, s.held r = true) ∧ ∃ c ∈ s.updates, s.table.entries =
      (listed m.cpus).map fun cpu => (cpuName cpu, m.counters c cpu)) := by
  have hs := sound_run h
  refine ⟨hs.fault, fun hpc r => ?_, fun htimer => ?_, fun hpc => ⟨fun r => ?_, ?_⟩⟩
  · rw [hs.held, heldAt, hpc]
    exact decide_eq_false (Nat.not_lt_zero _)
  · rw [hs.held] at htimer ⊢
    exact decide_eq_true ((Nat.zero_lt_succ _).trans (of_decide_eq_true htimer))
  · rw [hs.held, heldAt, hpc]
    cases r <;> rfl
  · cases hupdates : s.updates with
    | nil => exact absurd hupdates (hs.updated (.inr hpc))
    | cons c older =>
      refine ⟨c, List.mem_cons_self, ?_⟩
      rw [hs.table, hupdates]
      exact KernelTable.entries_refill _ _ _

/-! ### Processes that use the node -/

/-- The device is opened through the node that `device_create` has made. -/
def ThroughNode (s : State m) : Event m → Prop
  | .open _ => s.held .device = true
  | .insmod | .next _ | .firstUpdate _ | .tick _ | .rmmod | .close _ | .mmap .. | .munmap _
  | .read _ => True

instance (s : State m) : (e : Event m) → Decidable (ThroughNode s e)
  | .open _ => inferInstanceAs (Decidable (_ = _))
  | .insmod | .next _ | .firstUpdate _ | .tick _ | .rmmod | .close _ | .mmap .. | .munmap _
  | .read _ => isTrue trivial

/-- The init function is past its last failure, and the exit function has not begun. -/
def Pc.serving : Pc → Bool
  | .firstUpdate | .hrtimerStart | .loaded => true
  | _ => false

theorem Pc.serving_of_level {pc : Pc} (hlevel : 5 ≤ pc.level) (hgoing : pc.going = false) :
    pc.serving = true := by
  cases pc <;> simp_all [Pc.level, Pc.going, Pc.serving]

theorem Leads.serving {pc pc' : Pc} (h : Leads pc pc') (hpc : pc.serving = true) :
    pc'.serving = true := by
  cases h <;> first | rfl | cases hpc

/-- Whoever refers to the module has it, and its table. -/
structure Served (pageSize : ℕ) (s : State m) : Prop extends Sound s where
  noFault : s.fault = none
  users : ∀ f ∈ s.references, f.load = s.loads ∧ s.pc.serving = true
  sizes : ∀ map ∈ s.maps, map.size ≤ dataSize pageSize

theorem Served.pages (hs : Served pageSize s) {f : File} (hf : f ∈ s.references) :
    s.held .pages = true := by
  have hserving := (hs.users f hf).2
  rw [hs.held]
  cases hpc : s.pc <;> first | rfl | (rw [hpc] at hserving; cases hserving)

theorem Served.call_eq (hs : Served pageSize s) {f : File} (hf : f ∈ s.references)
    (after : State m) : s.call f after = after := by
  obtain ⟨hload, hserving⟩ := hs.users f hf
  refine if_pos ⟨fun hpc => ?_, hload⟩
  rw [hpc] at hserving
  cases hserving

theorem Served.drop_eq (hs : Served pageSize s) {f : File} (hf : f ∈ s.references)
    (after : State m) : s.drop f after = after := by
  rw [State.drop, hs.call_eq hf, ite_self]

/-- A step that leaves no more users than there were. -/
theorem Served.users_sub (hs : Served pageSize s) {fds : List File} {maps : List Mapping}
    (hfds : ∀ f ∈ fds, f ∈ s.references) (hmaps : ∀ map ∈ maps, map.file ∈ s.references)
    (hsizes : ∀ map ∈ maps, map.size ≤ dataSize pageSize) :
    Served pageSize { s with fds := fds, maps := maps } where
  toSound := hs.toSound.users _ _
  noFault := hs.noFault
  users f hf := by
    rcases List.mem_append.1 hf with hf | hf
    · exact hs.users f (hfds f hf)
    · obtain ⟨map, hmap, rfl⟩ := List.mem_map.1 hf
      exact hs.users _ (hmaps map hmap)
  sizes := hsizes

theorem mem_references_of_fds {f : File} (h : f ∈ s.fds) : f ∈ s.references :=
  List.mem_append_left _ h

theorem mem_references_of_maps {map : Mapping} (h : map ∈ s.maps) : map.file ∈ s.references :=
  List.mem_append_right _ (List.mem_map_of_mem h)

theorem served_write (hs : Served pageSize s) {c : m.C} {pc : Pc}
    (hsound : Sound (s.write c pc)) (hpages : s.held .pages = true)
    (hpc : s.pc.serving = true → pc.serving = true) : Served pageSize (s.write c pc) := by
  rw [State.write, if_pos hpages] at hsound ⊢
  exact ⟨hsound, hs.noFault, fun f hf => ⟨(hs.users f hf).1, hpc (hs.users f hf).2⟩, hs.sizes⟩

theorem served_step {e : Event m} (hs : Served pageSize s) (hnode : ThroughNode s e)
    (h : step pageSize s e = some s') : Served pageSize s' := by
  have hsound := sound_step hs.toSound h
  have hmove : move pageSize s e = some s' := by
    unfold step at h
    rwa [if_pos hs.noFault] at h
  -- a user in a state that does not serve
  have hnone {pc : Pc} (hpc : s.pc = pc) (hserving : pc.serving = false) (f : File)
      (hf : f ∈ s.references) : False := by
    have huser := (hs.users f hf).2
    rw [hpc, hserving] at huser
    cases huser
  cases e with
  | insmod =>
    simp only [move] at hmove
    split_ifs at hmove with hpc
    cases hmove
    exact ⟨hsound, hs.noFault, fun f hf => (hnone hpc rfl f hf).elim, hs.sizes⟩
  | next ok =>
    rcases next_cases hs.held hmove with ⟨hpc, rfl⟩ | ⟨pc, hlead, rfl⟩
    · exact ⟨hsound, hs.noFault, fun f hf => (hnone hpc rfl f hf).elim, hs.sizes⟩
    · exact ⟨hsound, hs.noFault,
        fun f hf => ⟨(hs.users f hf).1, hlead.serving (hs.users f hf).2⟩, hs.sizes⟩
  | firstUpdate c =>
    simp only [move] at hmove
    split_ifs at hmove with hpc
    cases hmove
    exact served_write hs hsound (by rw [hs.held, hpc]; rfl) fun _ => rfl
  | tick c =>
    simp only [move] at hmove
    split_ifs at hmove with htimer
    cases hmove
    refine served_write hs hsound ?_ id
    rw [hs.held] at htimer ⊢
    exact decide_eq_true ((Nat.zero_lt_succ _).trans (of_decide_eq_true htimer))
  | rmmod =>
    simp only [move] at hmove
    split_ifs at hmove with hpc
    cases hmove
    refine ⟨hsound, hs.noFault, fun f hf => ?_, hs.sizes⟩
    have hempty : f ∈ s.references := hf
    rw [hpc.2] at hempty
    cases hempty
  | «open» id =>
    simp only [move] at hmove
    split_ifs at hmove with hg
    cases hmove
    have hlevel : 5 ≤ s.pc.level := by
      have hdevice : s.held .device = true := hnode
      rw [hs.held] at hdevice
      exact of_decide_eq_true hdevice
    refine ⟨hsound, hs.noFault, fun f hf => ?_, hs.sizes⟩
    rcases List.mem_cons.1 hf with rfl | hf
    · exact ⟨rfl, Pc.serving_of_level hlevel hg.2.1⟩
    · exact hs.users f hf
  | close f =>
    simp only [move] at hmove
    split_ifs at hmove with hf
    rw [hs.drop_eq (mem_references_of_fds hf)] at hmove
    cases hmove
    exact hs.users_sub (fun g hg => mem_references_of_fds (List.mem_of_mem_erase hg))
      (fun _ => mem_references_of_maps) hs.sizes
  | mmap f size ok =>
    simp only [move] at hmove
    split_ifs at hmove with hf hsize
    · rw [hs.call_eq (mem_references_of_fds hf)] at hmove
      cases hmove
      refine hs.users_sub (fun _ => mem_references_of_fds) (fun map hmap => ?_) fun map hmap => ?_
      · rcases List.mem_cons.1 hmap with rfl | hmap
        · exact mem_references_of_fds hf
        · exact mem_references_of_maps hmap
      · rcases List.mem_cons.1 hmap with rfl | hmap
        · exact hsize.1
        · exact hs.sizes map hmap
    · rw [hs.call_eq (mem_references_of_fds hf)] at hmove
      cases hmove
      exact hs
  | munmap j =>
    obtain ⟨map, hmap, rfl⟩ := Option.map_eq_some_iff.1 hmove
    rw [hs.drop_eq (mem_references_of_maps (List.mem_of_getElem? hmap))]
    exact hs.users_sub (fun _ => mem_references_of_fds)
      (fun _ hmem => mem_references_of_maps (List.mem_of_mem_eraseIdx hmem))
      fun map hmem => hs.sizes map (List.mem_of_mem_eraseIdx hmem)
  | read j =>
    obtain ⟨map, hmap, hread⟩ := Option.map_eq_some_iff.1 hmove
    have hf := mem_references_of_maps (List.mem_of_getElem? hmap)
    rw [if_pos ⟨hs.pages hf, (hs.users _ hf).1⟩] at hread
    exact hread ▸ hs

/-- **No process outlives the module.**  In every run in which the device is only opened through its
node, and whichever loads fail before: no process reads pages that have been freed or calls into a
module that has been removed, and every mapping is one of the pages that the module holds now and
not longer than the table. -/
theorem no_use_after_unload {es : List (Event m)} (h : run (step pageSize) {} es = some s)
    (hnode : Along (step pageSize) ThroughNode {} es) :
    s.fault = none ∧ (∀ f ∈ s.fds, s.pc ≠ .unloaded ∧ f.load = s.loads) ∧
    ∀ map ∈ s.maps, s.held .pages = true ∧ map.file.load = s.loads ∧
      map.size ≤ dataSize pageSize := by
  have hs : Served pageSize s := by
    refine run_invariant_along (fun _ _ _ => served_step) h hnode ⟨sound_start, rfl, nofun, nofun⟩
  refine ⟨hs.noFault, fun f hf => ⟨fun hpc => ?_, ?_⟩, fun map hmap => ?_⟩
  · have hserving := (hs.users f (mem_references_of_fds hf)).2
    rw [hpc] at hserving
    cases hserving
  · exact (hs.users f (mem_references_of_fds hf)).1
  · have hf := mem_references_of_maps hmap
    exact ⟨hs.pages hf, (hs.users _ hf).1, hs.sizes map hmap⟩

end Runs

/-- `softirq_collector.c` on a host with one CPU. -/
abbrev oneCpu : Module := softirqModule [bootCpu]

/-- A load in which a process maps the table through the node before its first update. -/
def mappedEarly : List (Event oneCpu) :=
  [.insmod, .next true, .next true, .next true, .next true, .next true, .open 0,
    .mmap ⟨0, 1⟩ 4096 true, .firstUpdate fun _ => { hi := 1 }, .next true, .read 0]

theorem run_mappedEarly : ∃ s : State oneCpu, run (step 4096) {} mappedEarly = some s ∧
    s.pc = .loaded ∧ s.maps = [⟨⟨0, 1⟩, 4096⟩] := by
  have hrun : (run (step 4096) ({} : State oneCpu) mappedEarly).map (fun s => (s.pc, s.maps)) =
      some (.loaded, [⟨⟨0, 1⟩, 4096⟩]) := by
    decide +kernel
  obtain ⟨s, hs, heq⟩ := Option.map_eq_some_iff.1 hrun
  exact ⟨s, hs, congrArg Prod.fst heq, congrArg Prod.snd heq⟩

theorem module_keeps_accounts_mappedEarly : ∃ s : State oneCpu,
    run (step 4096) {} mappedEarly = some s ∧ s.pc = .loaded ∧
    ∃ c ∈ s.updates, s.table.entries = [(cpuName bootCpu, oneCpu.counters c bootCpu)] := by
  obtain ⟨s, hs, hpc, -⟩ := run_mappedEarly
  exact ⟨s, hs, hpc, ((module_keeps_accounts hs).2.2.2 hpc).2⟩

theorem throughNode_mappedEarly :
    Along (step 4096) ThroughNode ({} : State oneCpu) mappedEarly := by
  decide +kernel

theorem no_use_after_unload_mappedEarly : ∃ s : State oneCpu,
    run (step 4096) {} mappedEarly = some s ∧ s.fault = none ∧ s.maps = [⟨⟨0, 1⟩, 4096⟩] ∧
    s.held .pages = true := by
  obtain ⟨s, hs, -, heq⟩ := run_mappedEarly
  obtain ⟨hfault, -, hmaps⟩ := no_use_after_unload hs throughNode_mappedEarly
  have hmapped : ⟨⟨0, 1⟩, 4096⟩ ∈ s.maps := heq ▸ List.mem_singleton_self _
  exact ⟨s, hs, hfault, heq, (hmaps _ hmapped).1⟩

/-- A process that opens the device by its number, before there is a node, keeps its mapping when
`class_create` fails. -/
example : (run (step 4096) ({} : State oneCpu)
    [.insmod, .next true, .next true, .next true, .open 0, .mmap ⟨0, 1⟩ 4096 true, .next false,
      .next true, .next true, .next true, .read 0]).map (·.fault) = some (some .readAfterFree) := by
  decide +kernel

end CollectorModule

end MonitorSystem
