import MonitorSystem.Manager.LiveStores
import MonitorSystem.Proto.Status

/-!
# `SetMonitorInfo`

An RPC from the answer to the queue: `SetMonitorInfo` takes a report or refuses it, and a report
that it takes goes to the callback, which `main` sets to `OnDataReceived`.  The three functions
that a report passes name it by three rules (`Manager/Identity.lean`);
`set_monitor_info_all_or_nothing` is what their compatibility is good for.
-/

namespace MonitorSystem

namespace GrpcServer

open Function (update)

variable {F : Type}

/-! ### The program -/

/-- `host_data_` of the service, and the queues of the manager behind it. -/
structure Server (F : Type) where
  hostData : String → Option (HostData F) := fun _ => none
  queues : List (SafeQueue (MonitorInfo F)) := []

/-- `DataReceivedCallback`, as what it does to the queues. -/
abbrev Callback (F : Type) :=
  MonitorInfo F → List (SafeQueue (MonitorInfo F)) → List (SafeQueue (MonitorInfo F))

/-- `OnDataReceived`. -/
def onDataReceived (hash : String → ℕ) (threadCount : ℕ) : Callback F := fun info queues =>
  (routeIndex hash threadCount queues.length info).elim queues fun i =>
    queues.modify i (·.push info)

/-- `SetMonitorInfo`, at the time `now`; `none` stands for a null pointer. -/
def setMonitorInfo (callback : Option (Callback F)) (now : ℤ) (request : Option (MonitorInfo F))
    (server : Server F) : Status × Server F :=
  match request with
  | none => (⟨.invalidArgument, "Empty request"⟩, server)
  | some info =>
    let hostname := setMonitorInfoKey info
    if hostname = "" then (⟨.invalidArgument, "Missing hostname"⟩, server)
    else
      let server := { server with hostData := update server.hostData hostname (some ⟨info, now⟩) }
      match callback with
      | none => (.ok, server)
      | some callback => (.ok, { server with queues := callback info server.queues })

/-! ### What becomes of the queues -/

/-- Queue `i` gains `value` at its end, and nothing else changes. -/
def Gains {T : Type} (queues queues' : List (SafeQueue T)) (i : ℕ) (value : T) : Prop :=
  queues'.length = queues.length ∧
    ∀ j, queues'[j]? = if j = i then queues[j]?.map (fun q => ⟨q.queue ++ [value], q.stop⟩)
      else queues[j]?

theorem gains_modify {T : Type} (queues : List (SafeQueue T)) (i : ℕ) (value : T) :
    Gains queues (queues.modify i (·.push value)) i value := by
  refine ⟨List.length_modify _ _ _, fun j => ?_⟩
  rw [List.getElem?_modify]
  by_cases hj : j = i
  · simp [hj, SafeQueue.push]
  · simp [hj, Ne.symm hj]

/-- With all queues in place a report with a name is pushed to the queue that its name hashes
to. -/
theorem gains_onDataReceived (hash : String → ℕ) {n : ℕ} (hn : 0 < n) {info : MonitorInfo F}
    (hinfo : Accepted info) {queues : List (SafeQueue (MonitorInfo F))}
    (hqueues : queues.length = n) :
    Gains queues (onDataReceived hash n info queues) (hash (routingName info) % n) info := by
  have hroute := routeIndex_of_accepted hash hn info hinfo
  simp only [onDataReceived, hqueues, hroute, Option.elim_some]
  exact gains_modify queues _ info

/-- The answer is `OK` for the accepted reports and `INVALID_ARGUMENT`, with nothing changed, for
the others. -/
theorem setMonitorInfo_eq (callback : Callback F) (now : ℤ) (info : MonitorInfo F)
    (server : Server F) : setMonitorInfo (some callback) now (some info) server =
      if Accepted info then
        (.ok,
          { hostData := update server.hostData (setMonitorInfoKey info) (some ⟨info, now⟩)
            queues := callback info server.queues })
      else (⟨.invalidArgument, "Missing hostname"⟩, server) := by
  unfold setMonitorInfo Accepted
  by_cases hkey : setMonitorInfoKey info = ""
  · simp [hkey]
  · simp [hkey]

/-- A report has a name, or host information with a hostname. -/
theorem accepted_iff_exists (info : MonitorInfo F) :
    Accepted info ↔
      info.name ≠ "" ∨ ∃ host, info.hostInfo = some host ∧ host.hostname ≠ "" := by
  rw [accepted_iff]
  cases hhost : info.hostInfo with
  | none => simp [MonitorInfo.hostname, hhost]
  | some host => simp [MonitorInfo.hostname, hhost]

/-- What `ProcessData` does with an accepted report: it does not discard it. -/
theorem processData_of_accepted [CxxFloat F] (env : Env) (thread : ℕ) (store : Store F)
    {job : Job F} (hinfo : Accepted job.info) :
    serverIdentifier job.info ≠ "" ∧
      (processData env thread store job).1.hostScores (serverIdentifier job.info) =
        some ⟨job.info, calcScore job.info, job.now⟩ := by
  have hid := serverIdentifier_ne_empty hinfo
  refine ⟨hid, ?_⟩
  rw [LiveStores.hostScores_processData env thread store hid, Function.update_self]

/-- **All or nothing.**  For every report, every hash function and every state in which the queues
are as many as the threads: `SetMonitorInfo` answers `OK` if and only if the report has a name or a
hostname.  If it does, one queue gains this report and nothing else, and whenever the report is
processed it has an identifier and enters the table of the scores; otherwise the answer is
`INVALID_ARGUMENT` and nothing has changed. -/
theorem set_monitor_info_all_or_nothing [CxxFloat F] (hash : String → ℕ) (now : ℤ)
    (info : MonitorInfo F) {server : Server F} (hqueues : 1 ≤ server.queues.length) :
    let result := setMonitorInfo (some (onDataReceived hash server.queues.length)) now (some info)
      server
    (result.1.code = .ok ↔
      info.name ≠ "" ∨ ∃ host, info.hostInfo = some host ∧ host.hostname ≠ "") ∧
    (result.1.code = .ok →
      (∃ i < server.queues.length, Gains server.queues result.2.queues i info) ∧
      ∀ (env : Env) (thread : ℕ) (store : Store F) (job : Job F), job.info = info →
        serverIdentifier job.info ≠ "" ∧
        (processData env thread store job).1.hostScores (serverIdentifier job.info) =
          some ⟨job.info, calcScore job.info, job.now⟩) ∧
    (result.1.code ≠ .ok → result.1.code = .invalidArgument ∧ result.2 = server) := by
  intro result
  have hresult : result = _ := setMonitorInfo_eq _ now info server
  rw [← accepted_iff_exists]
  by_cases hinfo : Accepted info
  · rw [if_pos hinfo] at hresult
    rw [hresult]
    refine ⟨iff_of_true rfl hinfo, fun _ => ⟨?_, ?_⟩, fun hne => absurd rfl hne⟩
    · exact ⟨_, Nat.mod_lt _ hqueues, gains_onDataReceived hash hqueues hinfo rfl⟩
    · rintro env thread store job rfl
      exact processData_of_accepted env thread store hinfo
  · rw [if_neg hinfo] at hresult
    rw [hresult]
    exact ⟨iff_of_false nofun hinfo, nofun, fun _ => ⟨rfl, rfl⟩⟩

/-- Four empty queues, as in `main`. -/
def fourQueues : Server ℚ where
  queues := List.replicate 4 {}

/-- A report that has no name of its own goes through with its hostname. -/
theorem set_monitor_info_fourQueues :
    let info : MonitorInfo ℚ := { hostInfo := some { hostname := "web", ipAddress := "" } }
    let result := setMonitorInfo (some (onDataReceived String.length 4)) 0 (some info) fourQueues
    ∃ i < 4, Gains fourQueues.queues result.2.queues i info := by
  intro info result
  have hall := set_monitor_info_all_or_nothing String.length 0 info
    (show 1 ≤ fourQueues.queues.length by decide)
  exact (hall.2.1 (hall.1.2 (.inr ⟨_, rfl, by decide⟩))).1

end GrpcServer

end MonitorSystem
