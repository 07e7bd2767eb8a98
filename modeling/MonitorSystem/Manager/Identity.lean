import MonitorSystem.Proto.Messages

/-!
# The names of a report

A report is named three times on its way through the manager, each time by other rules:

* `setMonitorInfoKey`: the key under which `GrpcServerImpl::SetMonitorInfo` stores it, `name`
  before `hostname`;
* `routingName`: the string that `HostManager::OnDataReceived` hashes to choose a queue,
  `hostname` before `name`;
* `serverIdentifier`: the string that `HostManager::ProcessData` computes and hashes to choose a
  shard of the histories, `hostname_ip`, `hostname`, `ip` or `name`.

`routeIndex` and `shardIndex` are the two hashes modulo the number of threads.
-/

namespace MonitorSystem

variable {F : Type}

/-- The key of `host_data_` in `SetMonitorInfo`. -/
def setMonitorInfoKey (info : MonitorInfo F) : String :=
  if info.name = "" ∧ info.hostInfo.isSome then info.hostname else info.name

/-- The reports `SetMonitorInfo` accepts; the others are answered `INVALID_ARGUMENT`. -/
def Accepted (info : MonitorInfo F) : Prop := setMonitorInfoKey info ≠ ""

instance (info : MonitorInfo F) : Decidable (Accepted info) := inferInstanceAs (Decidable (_ ≠ _))

/-- `host_name` in `OnDataReceived`. -/
def routingName (info : MonitorInfo F) : String :=
  if info.hostInfo.isSome ∧ info.hostname ≠ "" then info.hostname else info.name

/-- `host_name` in `ProcessData`. -/
def serverIdentifier (info : MonitorInfo F) : String :=
  let hostName :=
    if info.hostInfo.isSome then
      if info.hostname ≠ "" ∧ info.ipAddress ≠ "" then info.hostname ++ "_" ++ info.ipAddress
      else if info.hostname ≠ "" then info.hostname
      else if info.ipAddress ≠ "" then info.ipAddress
      else ""
    else ""
  if hostName = "" then info.name else hostName

/-- The queue `OnDataReceived` pushes to: queue 0 as a last resort for a report without a name,
otherwise the hash modulo the thread count, when that queue exists. -/
def routeIndex (hash : String → ℕ) (threadCount queuesSize : ℕ) (info : MonitorInfo F) :
    Option ℕ :=
  if routingName info = "" then
    if queuesSize ≠ 0 then some 0 else none
  else
    let index := hash (routingName info) % threadCount
    if index < queuesSize then some index else none

/-- `shard_idx` in `ProcessData` and `WriteToMysql`. -/
def shardIndex (hash : String → ℕ) (threadCount : ℕ) (hostName : String) : ℕ :=
  hash hostName % threadCount

/-! ### How the names relate -/

theorem hostname_of_none {info : MonitorInfo F} (h : info.hostInfo.isSome = false) :
    info.hostname = "" := by
  cases hi : info.hostInfo <;> simp_all [MonitorInfo.hostname]

theorem ipAddress_of_none {info : MonitorInfo F} (h : info.hostInfo.isSome = false) :
    info.ipAddress = "" := by
  cases hi : info.hostInfo <;> simp_all [MonitorInfo.ipAddress]

/-- The routing name no longer mentions `has_host_info()`: an absent message reads as empty. -/
theorem routingName_eq (info : MonitorInfo F) :
    routingName info = if info.hostname ≠ "" then info.hostname else info.name := by
  cases h : info.hostInfo.isSome with
  | false => simp [routingName, h, hostname_of_none h]
  | true => simp [routingName, h]

/-- The four cases of the server identifier. -/
theorem serverIdentifier_eq (info : MonitorInfo F) :
    serverIdentifier info =
      if info.hostname ≠ "" then
        if info.ipAddress ≠ "" then info.hostname ++ "_" ++ info.ipAddress else info.hostname
      else if info.ipAddress ≠ "" then info.ipAddress else info.name := by
  cases h : info.hostInfo.isSome with
  | false => simp [serverIdentifier, h, hostname_of_none h, ipAddress_of_none h]
  | true =>
    by_cases hh : info.hostname = "" <;> by_cases hi : info.ipAddress = "" <;>
      simp [serverIdentifier, h, hh, hi]

/-- An accepted report has a name or a hostname. -/
theorem accepted_iff (info : MonitorInfo F) :
    Accepted info ↔ info.name ≠ "" ∨ info.hostname ≠ "" := by
  unfold Accepted setMonitorInfoKey
  cases h : info.hostInfo.isSome with
  | false => simp [hostname_of_none h]
  | true => by_cases hn : info.name = "" <;> simp [hn]

/-- An accepted report is never routed to the last-resort queue. -/
theorem routingName_ne_empty {info : MonitorInfo F} (h : Accepted info) :
    routingName info ≠ "" := by
  rw [routingName_eq]
  rcases (accepted_iff info).1 h with hn | hh
  · split_ifs with hh
    · exact hh
    · exact hn
  · rwa [if_pos hh]

/-- `ProcessData` finds an identifier in every accepted report. -/
theorem serverIdentifier_ne_empty {info : MonitorInfo F} (h : Accepted info) :
    serverIdentifier info ≠ "" := by
  rw [serverIdentifier_eq]
  split_ifs with hh hi hi
  · simp [String.append_eq_empty_iff]
  · exact hh
  · exact hi
  · exact ((accepted_iff info).1 h).resolve_right hh

section Index

variable (hash : String → ℕ) {n : ℕ} (hn : 0 < n) (info : MonitorInfo F)
include hn

/-- With all `n` queues in place every report has a queue. -/
theorem exists_routeIndex : ∃ i, routeIndex hash n n info = some i ∧ i < n := by
  unfold routeIndex
  have hlt := Nat.mod_lt (hash (routingName info)) hn
  split_ifs with h0 h1
  · exact ⟨0, rfl, hn⟩
  · exact absurd hn.ne' (by simpa using h1)
  · exact ⟨_, if_pos hlt, hlt⟩

theorem routeIndex_of_accepted (h : Accepted info) :
    routeIndex hash n n info = some (hash (routingName info) % n) := by
  unfold routeIndex
  rw [if_neg (routingName_ne_empty h)]
  exact if_pos (Nat.mod_lt _ hn)

end Index

/-- The queue depends on the routing name only. -/
theorem routeIndex_congr (hash : String → ℕ) (n m : ℕ) {info info' : MonitorInfo F}
    (h : routingName info = routingName info') :
    routeIndex hash n m info = routeIndex hash n m info' := by
  unfold routeIndex
  rw [h]

end MonitorSystem
