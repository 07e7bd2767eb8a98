import MonitorSystem.Library.DecimalText
import MonitorSystem.Proto.Messages

/-!
# `HostInfoMonitor`

The hostname and the primary IP address that identify a worker.  `GetPrimaryIpAddress` takes the
first IPv4 address in the list of `getifaddrs` whose interface is neither the loopback nor a
virtual one; `UpdateOnce` looks both up once and repeats them in every later report.

An IPv4 address is written in dotted decimal, which has no underscore, fits the buffer and
determines the address.
-/

namespace MonitorSystem

namespace HostInfoMonitor

open DecimalText (natText)

/-! ### The program -/

/-- `in_addr`: the four bytes of an IPv4 address. -/
structure InAddr where
  a : UInt8
  b : UInt8
  c : UInt8
  d : UInt8
  deriving DecidableEq

/-- What `ifa_addr` points to. -/
inductive Sockaddr
  /-- `AF_INET` -/
  | inet (sinAddr : InAddr)
  /-- another family -/
  | other

/-- An entry of the list of `getifaddrs`. -/
structure Ifaddrs where
  ifaName : List Char
  ifaAddr : Option Sockaddr

/-- `INET_ADDRSTRLEN`. -/
def inetAddrstrlen : ℕ := 16

/-- An IPv4 address in dotted decimal. -/
def dotted (addr : InAddr) : List Char :=
  ['.'].intercalate [natText addr.a.toNat, natText addr.b.toNat, natText addr.c.toNat,
    natText addr.d.toNat]

/-- `inet_ntop` for `AF_INET`: `none` when the text does not fit the buffer with its null. -/
def inetNtop (addr : InAddr) (size : ℕ) : Option (List Char) :=
  if (dotted addr).length < size then some (dotted addr) else none

/-- The test for docker and other virtual interfaces. -/
def isVirtual (ifname : List Char) : Bool :=
  "docker".toList.isPrefixOf ifname || "veth".toList.isPrefixOf ifname ||
    "br-".toList.isPrefixOf ifname || "virbr".toList.isPrefixOf ifname

/-- The loop over the interfaces. -/
def firstAddress : List Ifaddrs → List Char
  | [] => []
  | ifa :: rest =>
    match ifa.ifaAddr with
    | none => firstAddress rest
    | some .other => firstAddress rest
    | some (.inet sinAddr) =>
      if ifa.ifaName = "lo".toList then firstAddress rest
      else if isVirtual ifa.ifaName then firstAddress rest
      else
        match inetNtop sinAddr inetAddrstrlen with
        | some ip => ip
        | none => firstAddress rest

/-- `GetPrimaryIpAddress`; there is no list when `getifaddrs` fails. -/
def getPrimaryIpAddress : Option (List Ifaddrs) → String
  | none => ""
  | some ifaddr => String.ofList (firstAddress ifaddr)

/-- `GetHostname`; there is no name when `gethostname` fails. -/
def getHostname (hostname : Option String) : String := hostname.getD "unknown"

/-- The members. -/
structure State where
  cachedHostname : String := ""
  cachedIp : String := ""
  infoCached : Bool := false

/-- `UpdateOnce`: the message it fills and the members it leaves. -/
def updateOnce (hostname : Option String) (ifaddr : Option (List Ifaddrs)) (state : State) :
    HostInfo × State :=
  let state :=
    if state.infoCached then state
    else
      { cachedHostname := getHostname hostname
        cachedIp := getPrimaryIpAddress ifaddr
        infoCached := true }
  ({ hostname := state.cachedHostname, ipAddress := state.cachedIp }, state)

/-! ### Dotted decimal -/

theorem notMem_natText {c : Char} (hc : c.isDigit = false) (n : ℕ) : c ∉ natText n := fun hmem => by
  have hdigit : c.isDigit = true := Nat.isDigit_of_mem_toDigits (by decide) (by decide) hmem
  rw [hc] at hdigit
  cases hdigit

/-- The four numbers of an address can be read off its text. -/
theorem splitOn_dotted (addr : InAddr) : (dotted addr).splitOn '.' =
    [natText addr.a.toNat, natText addr.b.toNat, natText addr.c.toNat, natText addr.d.toNat] := by
  refine List.splitOn_intercalate '.' ?_ (List.cons_ne_nil _ _)
  simp [notMem_natText]

theorem dotted_injective : Function.Injective dotted := by
  intro addr addr' h
  have hsplit := congrArg (List.splitOn '.') h
  rw [splitOn_dotted, splitOn_dotted] at hsplit
  simp only [List.cons.injEq, and_true] at hsplit
  obtain ⟨ha, hb, hc, hd⟩ := hsplit
  have hbyte : ∀ {x y : UInt8}, natText x.toNat = natText y.toNat → x = y :=
    fun hxy => UInt8.toNat_inj.1 (DecimalText.natText_injective hxy)
  cases addr
  cases addr'
  simp_all only [InAddr.mk.injEq]
  exact ⟨hbyte ha, hbyte hb, hbyte hc, hbyte hd⟩

/-- The characters of an address. -/
theorem mem_dotted {addr : InAddr} {c : Char} (h : c ∈ dotted addr) :
    c.isDigit = true ∨ c = '.' := by
  have hnat : ∀ n, c ∈ natText n → c.isDigit = true :=
    fun n hmem => Nat.isDigit_of_mem_toDigits (by decide) (by decide) hmem
  simp only [dotted, List.intercalate, List.intersperse, List.flatten_cons, List.mem_append,
    List.mem_singleton, List.flatten_nil, List.append_nil] at h
  rcases h with h | rfl | h | rfl | h | rfl | h
  · exact .inl (hnat _ h)
  · exact .inr rfl
  · exact .inl (hnat _ h)
  · exact .inr rfl
  · exact .inl (hnat _ h)
  · exact .inr rfl
  · exact .inl (hnat _ h)

theorem underscore_notMem_dotted (addr : InAddr) : '_' ∉ dotted addr := fun hmem => by
  rcases mem_dotted hmem with hdigit | hdot
  · exact absurd hdigit (by decide)
  · exact absurd hdot (by decide)

theorem dotted_ne_nil (addr : InAddr) : dotted addr ≠ [] := by
  intro hnil
  have hsplit := splitOn_dotted addr
  rw [hnil] at hsplit
  simp at hsplit

theorem length_natText_byte (x : UInt8) : (natText x.toNat).length ≤ 3 :=
  (Nat.length_toDigits_le_iff (by decide) (by decide)).2 (by have := x.toNat_lt; omega)

/-- The buffer is large enough for every address. -/
theorem inetNtop_eq (addr : InAddr) : inetNtop addr inetAddrstrlen = some (dotted addr) := by
  have ha := length_natText_byte addr.a
  have hb := length_natText_byte addr.b
  have hc := length_natText_byte addr.c
  have hd := length_natText_byte addr.d
  refine if_pos ?_
  simp only [dotted, List.intercalate, List.intersperse, List.flatten_cons, List.length_append,
    List.length_singleton, List.flatten_nil, List.length_nil, inetAddrstrlen]
  omega

/-! ### The primary address -/

/-- The address of an interface that `GetPrimaryIpAddress` does not skip. -/
def Ifaddrs.address (ifa : Ifaddrs) : Option InAddr :=
  match ifa.ifaAddr with
  | some (.inet sinAddr) =>
    if ifa.ifaName = "lo".toList ∨ isVirtual ifa.ifaName = true then none else some sinAddr
  | _ => none

/-- The loop returns the first address that is not skipped. -/
theorem firstAddress_eq (ifaddr : List Ifaddrs) :
    firstAddress ifaddr = ((ifaddr.findSome? Ifaddrs.address).map dotted).getD [] := by
  induction ifaddr with
  | nil => rfl
  | cons ifa rest ih =>
    unfold firstAddress
    rw [List.findSome?_cons]
    cases haddr : ifa.ifaAddr with
    | none => simpa [Ifaddrs.address, haddr] using ih
    | some sockaddr =>
      cases sockaddr with
      | other => simpa [Ifaddrs.address, haddr] using ih
      | inet sinAddr =>
        by_cases hlo : ifa.ifaName = "lo".toList
        · simpa [Ifaddrs.address, haddr, hlo] using ih
        · by_cases hvirtual : isVirtual ifa.ifaName = true
          · simpa [Ifaddrs.address, haddr, hlo, hvirtual] using ih
          · have haddress : ifa.address = some sinAddr := by
              unfold Ifaddrs.address
              rw [haddr]
              exact if_neg (not_or.2 ⟨hlo, hvirtual⟩)
            simp only [if_neg hlo, if_neg hvirtual, inetNtop_eq, haddress, Option.map_some,
              Option.getD_some]

/-- A host with an address that is not skipped reports one in dotted decimal. -/
theorem getPrimaryIpAddress_eq {ifaddr : List Ifaddrs} {addr : InAddr}
    (h : ifaddr.findSome? Ifaddrs.address = some addr) :
    getPrimaryIpAddress (some ifaddr) = String.ofList (dotted addr) := by
  rw [getPrimaryIpAddress, firstAddress_eq, h]
  rfl

/-! ### The cache -/

/-- What is cached is reported, whatever the host is called by then. -/
theorem updateOnce_of_infoCached (hostname : Option String) (ifaddr : Option (List Ifaddrs))
    {state : State} (h : state.infoCached = true) : updateOnce hostname ifaddr state =
      ({ hostname := state.cachedHostname, ipAddress := state.cachedIp }, state) := by
  simp [updateOnce, h]

end HostInfoMonitor

end MonitorSystem
