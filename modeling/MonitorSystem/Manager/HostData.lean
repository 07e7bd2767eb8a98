import MonitorSystem.Library.LastSeen
import MonitorSystem.Library.UnorderedMap
import MonitorSystem.Manager.GrpcServer

/-!
# Reading `host_data_`

`GrpcServerImpl` keeps one report for each key that `SetMonitorInfo` has computed, and three
functions read them: `GetHostData` finds one, `GetAllHostData` copies all, and `GetMonitorInfo`
answers with the entry that an iterator meets first.  Each holds the lock from beginning to end, so
that what they see is the map between two calls of `SetMonitorInfo`; `host_data_reads` says what
that is after any number of them.
-/

namespace MonitorSystem

namespace GrpcServer

open LastSeen (Previous Tracks)

variable {F : Type}

/-! ### The program -/

/-- `host_data_`. -/
abbrev HostDataMap (F : Type) := UnorderedMap String (HostData F)

/-- A call of `SetMonitorInfo`: the report and the time at which it is stored. -/
abbrev SetCall (F : Type) := MonitorInfo F × ℤ

/-- What `SetMonitorInfo` may leave of the map. -/
def SetLeaves (call : SetCall F) (m m' : HostDataMap F) : Prop :=
  if Accepted call.1 then m.Assigned (setMonitorInfoKey call.1) ⟨call.1, call.2⟩ m' else m' = m

/-- `GetMonitorInfo`; the response is empty before the call. -/
def getMonitorInfo (m : HostDataMap F) : MonitorInfo F :=
  match m.entries with
  | [] => {}
  | (_, data) :: _ => data.info

/-- `GetAllHostData`. -/
def getAllHostData (m : HostDataMap F) : HostDataMap F := m

/-- `GetHostData`: what it puts into `*data`, when it returns true. -/
def getHostData (hostname : String) (m : HostDataMap F) : Option (HostData F) := m.find hostname

/-- The map behind the table of `setMonitorInfo`. -/
theorem lists_setMonitorInfo {call : SetCall F} {m m' : HostDataMap F} {server : Server F}
    (hm : m.Lists server.hostData) (h : SetLeaves call m m') :
    m'.Lists (setMonitorInfo none call.2 (some call.1) server).2.hostData := by
  unfold SetLeaves at h
  unfold setMonitorInfo
  by_cases hkey : setMonitorInfoKey call.1 = ""
  · have hacc : ¬ Accepted call.1 := not_not.2 hkey
    rw [if_neg hacc] at h
    simpa [hkey, h] using hm
  · have hacc : Accepted call.1 := hkey
    rw [if_pos hacc] at h
    simpa [hkey] using hm.assigned h

/-! ### What is read -/

/-- The entry that a call writes. -/
def written (calls : ℕ → SetCall F) (i : ℕ) : List (String × SetCall F) :=
  if Accepted (calls i).1 then [(setMonitorInfoKey (calls i).1, calls i)] else []

theorem mem_written {calls : ℕ → SetCall F} {i : ℕ} {key : String} {call : SetCall F} :
    (key, call) ∈ written calls i ↔
      Accepted (calls i).1 ∧ key = setMonitorInfoKey (calls i).1 ∧ call = calls i := by
  unfold written
  split_ifs with hacc <;> simp [hacc]

variable {calls : ℕ → SetCall F} {m : ℕ → HostDataMap F} (hstart : m 0 = .empty)
  (hset : ∀ i, SetLeaves (calls i) (m i) (m (i + 1)))
include hstart hset

/-- The entries are those of the last calls. -/
theorem tracks_hostData : Tracks (written calls) (fun _ _ call => ⟨call.1, call.2⟩)
    fun n key => getHostData key (m n) where
  start key := by rw [hstart]; rfl
  seen n key call hmem := by
    obtain ⟨hacc, rfl, rfl⟩ := mem_written.1 hmem
    have hleaves := hset n
    rw [SetLeaves, if_pos hacc] at hleaves
    exact UnorderedMap.find_eq_some.2 ((hleaves _ _).2 (.inl ⟨rfl, rfl⟩))
  unseen n key hkey := by
    have hleaves := hset n
    unfold SetLeaves at hleaves
    split_ifs at hleaves with hacc
    · have hne : key ≠ setMonitorInfoKey (calls n).1 := fun heq =>
        hkey (List.mem_map_of_mem (mem_written.2 ⟨hacc, heq, rfl⟩))
      refine Option.ext fun data => ?_
      show (m (n + 1)).find key = some data ↔ (m n).find key = some data
      rw [UnorderedMap.find_eq_some, UnorderedMap.find_eq_some, hleaves]
      simp [hne]
    · rw [hleaves]

/-- **Reads of `host_data_`.**  After any number of calls of `SetMonitorInfo`, accepted or not, and
in whichever order the map keeps its entries: `GetHostData` returns the report and the time of the
last accepted call with that key, and false if there was none; `GetAllHostData` has one entry for
each key that was accepted; and `GetMonitorInfo` answers with the last report of some key, or with
an empty message if no call was accepted. -/
theorem host_data_reads (n : ℕ) :
    (∀ key data, getHostData key (m n) = some data ↔
      ∃ i call, Previous (written calls) n key i call ∧ data = ⟨call.1, call.2⟩) ∧
    (getAllHostData (m n)).entries.length =
      (((Finset.range n).filter fun i => Accepted (calls i).1).image fun i =>
        setMonitorInfoKey (calls i).1).card ∧
    ((∃ key i call, Previous (written calls) n key i call ∧ getMonitorInfo (m n) = call.1) ∨
      (∀ i < n, ¬ Accepted (calls i).1) ∧ getMonitorInfo (m n) = {}) := by
  have htracks := tracks_hostData hstart hset
  have hfind (key : String) (data : HostData F) : getHostData key (m n) = some data ↔
      ∃ i call, Previous (written calls) n key i call ∧ data = ⟨call.1, call.2⟩ :=
    ⟨htracks.exists_previous, fun ⟨_, _, hprev, hdata⟩ => hdata ▸ htracks.eq_some hprev⟩
  have hseen {i : ℕ} (hi : i < n) (hacc : Accepted (calls i).1) :
      ∃ data, (setMonitorInfoKey (calls i).1, data) ∈ (m n).entries := by
    obtain ⟨j, call, hprev⟩ :=
      LastSeen.exists_previous_of_mem (mem_written.2 ⟨hacc, rfl, rfl⟩) hi
    exact ⟨_, UnorderedMap.find_eq_some.1 ((hfind _ _).2 ⟨j, call, hprev, rfl⟩)⟩
  refine ⟨hfind, ?_, ?_⟩
  · have hkeys : ((m n).entries.map Prod.fst).toFinset =
        (((Finset.range n).filter fun i => Accepted (calls i).1).image fun i =>
          setMonitorInfoKey (calls i).1) := by
      ext key
      rw [List.mem_toFinset, List.mem_map, Finset.mem_image]
      constructor
      · rintro ⟨⟨_, data⟩, hmem, rfl⟩
        obtain ⟨i, call, hprev, -⟩ := (hfind _ _).1 (UnorderedMap.find_eq_some.2 hmem)
        obtain ⟨hacc, hkey, -⟩ := mem_written.1 hprev.mem
        exact ⟨i, Finset.mem_filter.2 ⟨Finset.mem_range.2 hprev.lt, hacc⟩, hkey.symm⟩
      · rintro ⟨i, hi, rfl⟩
        obtain ⟨hlt, hacc⟩ := Finset.mem_filter.1 hi
        obtain ⟨data, hmem⟩ := hseen (Finset.mem_range.1 hlt) hacc
        exact ⟨_, hmem, rfl⟩
    rw [← hkeys, List.toFinset_card_of_nodup (m n).nodup, List.length_map]
    rfl
  · cases hentries : (m n).entries with
    | nil =>
      refine .inr ⟨fun i hi hacc => ?_, by rw [getMonitorInfo, hentries]⟩
      obtain ⟨data, hmem⟩ := hseen hi hacc
      rw [hentries] at hmem
      cases hmem
    | cons e rest =>
      have hmem : (e.1, e.2) ∈ (m n).entries := by rw [hentries]; exact List.mem_cons_self
      obtain ⟨i, call, hprev, hdata⟩ := (hfind _ _).1 (UnorderedMap.find_eq_some.2 hmem)
      refine .inl ⟨e.1, i, call, hprev, ?_⟩
      rw [getMonitorInfo, hentries]
      exact congrArg HostData.info hdata

omit hstart hset

/-- The first report has no name; all others come from the host `web`. -/
def namelessFirst : ℕ → SetCall ℚ
  | 0 => ({}, 0)
  | i + 1 => ({ name := "web" }, i)

/-- The maps that these calls leave. -/
def namelessFirstMaps : ℕ → HostDataMap ℚ
  | 0 | 1 => .empty
  | i + 2 => ⟨[("web", ⟨{ name := "web" }, i⟩)], List.nodup_singleton _⟩

theorem setLeaves_namelessFirst (i : ℕ) :
    SetLeaves (namelessFirst i) (namelessFirstMaps i) (namelessFirstMaps (i + 1)) := by
  rcases i with - | - | i
  · rfl
  · intro j w
    simp [namelessFirst, namelessFirstMaps, setMonitorInfoKey, UnorderedMap.empty]
  · intro j w
    simpa [namelessFirst, namelessFirstMaps, setMonitorInfoKey] using
      fun hne heq => absurd heq hne

theorem host_data_reads_namelessFirst :
    (getAllHostData (namelessFirstMaps 3)).entries.length =
      (((Finset.range 3).filter fun i => Accepted (namelessFirst i).1).image fun i =>
        setMonitorInfoKey (namelessFirst i).1).card :=
  (host_data_reads rfl setLeaves_namelessFirst 3).2.1

end GrpcServer

end MonitorSystem
