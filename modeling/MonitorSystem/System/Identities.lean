import MonitorSystem.Manager.Identity
import MonitorSystem.Worker.MetricCollector

/-!
# The identity of a worker

What the three rules of the manager (`Manager/Identity.lean`) make of the reports of a worker.  A
worker looks its hostname and address up once, so that all its reports have the same key, the same
routing name and the same server identifier; and as an address in dotted decimal has no
underscore, the identifier `hostname_ip` tells apart what the hostname and the address tell apart.
-/

namespace MonitorSystem

namespace MetricCollector

namespace Worker

open HostInfoMonitor (InAddr dotted)

/-- The key of the worker in `host_data_`. -/
def key (w : Worker) : String := if w.name = "" then w.hostInfo.hostname else w.name

/-- The string that chooses the queue of the worker. -/
def routingName (w : Worker) : String :=
  if w.hostInfo.hostname ≠ "" then w.hostInfo.hostname else w.name

/-- The server identifier of the worker. -/
def identifier (w : Worker) : String :=
  if w.hostInfo.hostname ≠ "" then
    if w.hostInfo.ipAddress ≠ "" then w.hostInfo.hostname ++ "_" ++ w.hostInfo.ipAddress
    else w.hostInfo.hostname
  else if w.hostInfo.ipAddress ≠ "" then w.hostInfo.ipAddress else w.name

section Report

variable {w : Worker} {n : ℕ} {info : MonitorInfo ℚ} (h : w.report n = some info)
include h

theorem hostname_of_report : info.hostname = w.hostInfo.hostname := by
  simp [MonitorInfo.hostname, hostInfo_of_report h]

theorem ipAddress_of_report : info.ipAddress = w.hostInfo.ipAddress := by
  simp [MonitorInfo.ipAddress, hostInfo_of_report h]

/-- **One identity.**  Every report of a worker, whichever call of `CollectAll` it comes from and
whatever the host is called or addressed by then, has the same key, the same routing name and the
same server identifier, and it is accepted if and only if that key is not empty. -/
theorem identity_of_report : setMonitorInfoKey info = w.key ∧
    MonitorSystem.routingName info = w.routingName ∧ serverIdentifier info = w.identifier ∧
    (Accepted info ↔ w.key ≠ "") := by
  have hname := name_of_report h
  have hhost := hostInfo_of_report h
  have hhostname := hostname_of_report h
  have hip := ipAddress_of_report h
  have hkey : setMonitorInfoKey info = w.key := by
    simp [setMonitorInfoKey, key, hname, hhost, hhostname]
  refine ⟨hkey, ?_, ?_, ?_⟩
  · rw [routingName_eq, hhostname, hname, routingName]
  · rw [serverIdentifier_eq, hhostname, hip, hname, identifier]
  · rw [Accepted, hkey]

end Report

/-! ### Different hosts -/

/-- The address that the worker found in its first call. -/
def Addressed (w : Worker) (addr : InAddr) : Prop :=
  ∃ ifaddr, (w.readings 0).ifaddr = some ifaddr ∧
    ifaddr.findSome? HostInfoMonitor.Ifaddrs.address = some addr

theorem ipAddress_of_addressed {w : Worker} {addr : InAddr} (h : w.Addressed addr) :
    w.hostInfo.ipAddress = String.ofList (dotted addr) := by
  obtain ⟨ifaddr, hread, hfind⟩ := h
  show HostInfoMonitor.getPrimaryIpAddress (w.readings 0).ifaddr = _
  rw [hread, HostInfoMonitor.getPrimaryIpAddress_eq hfind]

theorem toList_ofList_dotted_ne (addr : InAddr) : String.ofList (dotted addr) ≠ "" := by
  intro h
  have hnil := congrArg String.toList h
  rw [String.toList_ofList] at hnil
  exact HostInfoMonitor.dotted_ne_nil addr hnil

/-- The characters of the identifier of a worker that has an address. -/
theorem toList_identifier {w : Worker} {addr : InAddr} (h : w.Addressed addr) :
    w.identifier.toList =
      if w.hostInfo.hostname ≠ "" then w.hostInfo.hostname.toList ++ '_' :: dotted addr
      else dotted addr := by
  have hip := ipAddress_of_addressed h
  have hne := toList_ofList_dotted_ne addr
  unfold identifier
  rw [hip, if_pos hne]
  split_ifs with hhost
  · simp [String.toList_append]
  · exact String.toList_ofList

/-- The text behind the last underscore, and what stands before it. -/
theorem append_underscore_inj {front front' back back' : List Char} (h : '_' ∉ back)
    (h' : '_' ∉ back') (heq : front ++ '_' :: back = front' ++ '_' :: back') :
    front = front' ∧ back = back' := by
  rcases List.append_eq_append_iff.1 heq with ⟨mid, hfront, hback⟩ | ⟨mid, hfront, hback⟩
  · cases mid with
    | nil => simp_all
    | cons c mid =>
      rw [List.cons_append, List.cons.injEq] at hback
      exact absurd (hback.2 ▸ List.mem_append_right _ List.mem_cons_self) h
  · cases mid with
    | nil => simp_all
    | cons c mid =>
      rw [List.cons_append, List.cons.injEq] at hback
      exact absurd (hback.2 ▸ List.mem_append_right _ List.mem_cons_self) h'

/-- **Different hosts have different identifiers.**  Two workers that have found an address have the
same server identifier if and only if they have the same hostname and the same address, whatever
characters the hostnames consist of. -/
theorem identifier_eq_iff {w w' : Worker} {addr addr' : InAddr} (h : w.Addressed addr)
    (h' : w'.Addressed addr') :
    w.identifier = w'.identifier ↔ w.hostInfo.hostname = w'.hostInfo.hostname ∧ addr = addr' := by
  have hfree := HostInfoMonitor.underscore_notMem_dotted addr
  have hfree' := HostInfoMonitor.underscore_notMem_dotted addr'
  rw [← String.toList_inj, toList_identifier h, toList_identifier h']
  constructor
  · intro heq
    split_ifs at heq with hhost hhost' hhost'
    · obtain ⟨hfront, hback⟩ := append_underscore_inj hfree hfree' heq
      exact ⟨String.toList_inj.1 hfront, HostInfoMonitor.dotted_injective hback⟩
    · exact absurd (heq ▸ List.mem_append_right _ List.mem_cons_self) hfree'
    · exact absurd (heq ▸ List.mem_append_right _ List.mem_cons_self) hfree
    · rw [not_not] at hhost hhost'
      exact ⟨hhost.trans hhost'.symm, HostInfoMonitor.dotted_injective heq⟩
  · rintro ⟨hhost, rfl⟩
    rw [hhost]

/-- A worker with one interface, which has this address. -/
def addressed (hostname : String) (addr : InAddr) : Worker :=
  plain hostname [⟨"eth0".toList, some (.inet addr)⟩]

theorem addressed_addressed (hostname : String) (addr : InAddr) :
    (addressed hostname addr).Addressed addr :=
  ⟨_, rfl, rfl⟩

/-- An underscore in a hostname does not help it to the identifier of another host. -/
theorem identifier_eq_iff_underscore :
    (addressed "web" ⟨10, 0, 0, 1⟩).identifier ≠ (addressed "web_10" ⟨0, 0, 1, 0⟩).identifier := by
  intro heq
  have hsame := (identifier_eq_iff (addressed_addressed "web" ⟨10, 0, 0, 1⟩)
    (addressed_addressed "web_10" ⟨0, 0, 1, 0⟩)).1 heq
  exact absurd hsame.2 (by decide)

end Worker

end MetricCollector

end MonitorSystem
