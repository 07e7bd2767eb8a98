import MonitorSystem.Worker.DiskMonitor
import MonitorSystem.Worker.NetMonitor

/-!
# Reading `/proc/net/dev`

`get_net_stats_from_proc` skips two lines and takes from each further one a name, with its colon
removed, and twelve numbers, of which four are dropped.  The kernel prints sixteen counters for
each interface; `getNetStatsFromProc_text` says that the code takes the right eight of them.
-/

namespace MonitorSystem

namespace NetMonitor

open DiskMonitor (columns stops_columns readUInt64_columns isSpace_natText newline_notMem_columns
  newline_notMem_column)
open InputStream DecimalText

/-! ### The program -/

/-- The interface name without the colon at its end. -/
def popColon (iface : List Char) : List Char :=
  if iface.getLast? = some ':' then iface.dropLast else iface

/-- One turn of the loop; `stat` and `dummy` are what the variables hold before anything is
written to them, and `none` stands for `continue`. -/
def readStat (stat : NetStat) (dummy : UInt64) (line : List Char) : Option NetStat :=
  let iss : IStream := { rest := line }
  let (iface, iss) := readWord iss []
  if iface = [] then none
  else
    let iface := popColon iface
    if iface = "lo".toList then none
    else
      let (rcvBytes, iss) := readNumber convertUInt64 iss stat.rcvBytes
      let (rcvPackets, iss) := readNumber convertUInt64 iss stat.rcvPackets
      let (errIn, iss) := readNumber convertUInt64 iss stat.errIn
      let (dropIn, iss) := readNumber convertUInt64 iss stat.dropIn
      -- `fifo`, `frame`, `compressed` and `multicast`
      let (dummy, iss) := readNumber convertUInt64 iss dummy
      let (dummy, iss) := readNumber convertUInt64 iss dummy
      let (dummy, iss) := readNumber convertUInt64 iss dummy
      let (_dummy, iss) := readNumber convertUInt64 iss dummy
      let (sndBytes, iss) := readNumber convertUInt64 iss stat.sndBytes
      let (sndPackets, iss) := readNumber convertUInt64 iss stat.sndPackets
      let (errOut, iss) := readNumber convertUInt64 iss stat.errOut
      let (dropOut, _) := readNumber convertUInt64 iss stat.dropOut
      some
        { name := String.ofList iface
          rcvBytes := rcvBytes
          rcvPackets := rcvPackets
          sndBytes := sndBytes
          sndPackets := sndPackets
          errIn := errIn
          errOut := errOut
          dropIn := dropIn
          dropOut := dropOut }

/-- `get_net_stats_from_proc` on the text of `/proc/net/dev`, or on `none` when the file cannot be
opened.  The variables of the loop are not initialised: in turn `i` they hold `stat i` and
`dummy i`. -/
def getNetStatsFromProc (stat : ℕ → NetStat) (dummy : ℕ → UInt64) :
    Option (List Char) → List NetStat
  | none => []
  | some text => ((lines text).drop 2).zipIdx.filterMap fun (line, i) =>
      readStat (stat i) (dummy i) line

/-! ### The format of the kernel -/

/-- The counters of an interface. -/
structure InterfaceCounters where
  rxBytes : UInt64
  rxPackets : UInt64
  rxErrs : UInt64
  rxDrop : UInt64
  rxFifo : UInt64
  rxFrame : UInt64
  rxCompressed : UInt64
  rxMulticast : UInt64
  txBytes : UInt64
  txPackets : UInt64
  txErrs : UInt64
  txDrop : UInt64
  txFifo : UInt64
  txColls : UInt64
  txCarrier : UInt64
  txCompressed : UInt64

/-- The counters in the order in which the kernel prints them. -/
def InterfaceCounters.toList (c : InterfaceCounters) : List UInt64 :=
  [c.rxBytes, c.rxPackets, c.rxErrs, c.rxDrop, c.rxFifo, c.rxFrame, c.rxCompressed, c.rxMulticast,
    c.txBytes, c.txPackets, c.txErrs, c.txDrop, c.txFifo, c.txColls, c.txCarrier, c.txCompressed]

/-- An interface with its counters, and the number of spaces before its name and, beyond the one
that must be there, before each counter. -/
structure Interface where
  name : List Char
  counters : InterfaceCounters
  lead : ℕ := 0
  pads : ℕ → ℕ := fun _ => 0
  name_ne_nil : name ≠ []
  isSpace_name : ∀ c ∈ name, isSpace c = false
  colon_notMem_name : ':' ∉ name

/-- The line of an interface. -/
def Interface.line (i : Interface) : List Char :=
  column i.lead (i.name ++ [':']) ++ columns i.pads 0 i.counters.toList

/-- What is in `/proc/net/dev`: two lines of titles and the interfaces. -/
structure NetDev where
  title₁ : List Char
  title₂ : List Char
  interfaces : List Interface
  newline_notMem_title₁ : '\n' ∉ title₁
  newline_notMem_title₂ : '\n' ∉ title₂

/-- The lines of `/proc/net/dev`. -/
def NetDev.lines (d : NetDev) : List (List Char) :=
  d.title₁ :: d.title₂ :: d.interfaces.map Interface.line

/-- The text of `/proc/net/dev`. -/
def NetDev.text (d : NetDev) : List Char := d.lines.flatMap fun l => l ++ ['\n']

/-- What the fields of a `NetStat` are named after. -/
def Interface.stat (i : Interface) : NetStat where
  name := String.ofList i.name
  rcvBytes := i.counters.rxBytes
  rcvPackets := i.counters.rxPackets
  sndBytes := i.counters.txBytes
  sndPackets := i.counters.txPackets
  errIn := i.counters.rxErrs
  errOut := i.counters.txErrs
  dropIn := i.counters.rxDrop
  dropOut := i.counters.txDrop

/-! ### What is read -/

theorem popColon_append_colon (name : List Char) : popColon (name ++ [':']) = name := by
  simp [popColon]

theorem Interface.isSpace_label (i : Interface) : ∀ c ∈ i.name ++ [':'], isSpace c = false := by
  intro c hc
  rcases List.mem_append.1 hc with hc | hc
  · exact i.isSpace_name c hc
  · rw [List.mem_singleton.1 hc]
    decide

/-- The line of an interface is read as its name and the eight counters, whatever the variables
hold before; `lo` is passed over. -/
theorem readStat_line (i : Interface) (stat : NetStat) (dummy : UInt64) :
    readStat stat dummy i.line = if i.name = "lo".toList then none else some i.stat := by
  have hne : i.name ++ [':'] ≠ [] := by simp
  have hname := readWord_column i.lead [] hne i.isSpace_label
    (stops_columns (by decide) i.pads 0 i.counters.toList)
  simp only [readStat, Interface.line, hname, if_neg hne, popColon_append_colon]
  simp only [InterfaceCounters.toList, readUInt64_columns]
  rfl

theorem newline_notMem_line (i : Interface) : '\n' ∉ i.line := by
  intro h
  rcases List.mem_append.1 h with h | h
  · exact newline_notMem_column i.isSpace_label h
  · exact newline_notMem_columns i.pads _ 0 h

/-- The text of the kernel is read line by line. -/
theorem lines_text (d : NetDev) : lines d.text = d.lines := by
  refine lines_flatMap fun l hl => ?_
  rcases List.mem_cons.1 hl with rfl | hl
  · exact d.newline_notMem_title₁
  rcases List.mem_cons.1 hl with rfl | hl
  · exact d.newline_notMem_title₂
  · obtain ⟨i, -, rfl⟩ := List.mem_map.1 hl
    exact newline_notMem_line i

/-- A loop over numbered lines whose turns do not depend on the number. -/
theorem filterMap_zipIdx {α β : Type} {f : α × ℕ → Option β} {g : α → Option β} (l : List α)
    (h : ∀ x ∈ l, ∀ n, f (x, n) = g x) : l.zipIdx.filterMap f = l.filterMap g := by
  calc l.zipIdx.filterMap f
      = l.zipIdx.filterMap (g ∘ Prod.fst) :=
        List.filterMap_congr fun p hp => h p.1 (List.fst_mem_of_mem_zipIdx hp) p.2
    _ = (l.zipIdx.map Prod.fst).filterMap g := (List.filterMap_map).symm
    _ = l.filterMap g := by rw [List.zipIdx_map_fst]

/-- **`/proc/net/dev` is read as it was written.**  For every text that the kernel can print, the
code returns the interfaces other than `lo`, in order, each with the eight counters that the
fields are named after. -/
theorem getNetStatsFromProc_text (stat : ℕ → NetStat) (dummy : ℕ → UInt64) (d : NetDev) :
    getNetStatsFromProc stat dummy (some d.text) =
      (d.interfaces.filter fun i => i.name ≠ "lo".toList).map Interface.stat := by
  have hloop : ∀ l ∈ d.interfaces.map Interface.line, ∀ n,
      readStat (stat n) (dummy n) l = readStat { name := "" } 0 l := by
    intro l hl n
    obtain ⟨i, -, rfl⟩ := List.mem_map.1 hl
    rw [readStat_line, readStat_line]
  rw [getNetStatsFromProc, lines_text, NetDev.lines, List.drop_succ_cons, List.drop_succ_cons,
    List.drop_zero, filterMap_zipIdx _ hloop, List.filterMap_map, ← List.filterMap_eq_map,
    List.filterMap_filter]
  refine List.filterMap_congr fun i _ => ?_
  by_cases hlo : i.name = "lo".toList <;> simp [readStat_line, hlo]

/-- An interface with these numbers of bytes and packets. -/
def interfaceOf (name : String) (rxBytes rxPackets txBytes txPackets : UInt64)
    (hne : name.toList ≠ []) (hchars : ∀ c ∈ name.toList, isSpace c = false ∧ ':' ≠ c) :
    Interface where
  name := name.toList
  counters := ⟨rxBytes, rxPackets, 0, 0, 0, 0, 0, 0, txBytes, txPackets, 0, 0, 0, 0, 0, 0⟩
  lead := 2
  name_ne_nil := hne
  isSpace_name c hc := (hchars c hc).1
  colon_notMem_name hc := (hchars _ hc).2 rfl

/-- The loopback and one interface. -/
def loopbackAndEth0 : NetDev where
  title₁ := "Inter-|   Receive                            |  Transmit".toList
  title₂ := " face |bytes    packets errs drop |bytes    packets errs drop".toList
  interfaces := [interfaceOf "lo" 500 5 500 5 (by decide) (by simp [isSpace]),
    interfaceOf "eth0" 1000000 900 20000 300 (by decide) (by simp [isSpace])]
  newline_notMem_title₁ := by decide +kernel
  newline_notMem_title₂ := by decide +kernel

theorem getNetStatsFromProc_loopbackAndEth0 :
    getNetStatsFromProc (fun _ => { name := "" }) (fun _ => 7) (some loopbackAndEth0.text) =
      [{ name := "eth0", rcvBytes := 1000000, rcvPackets := 900, sndBytes := 20000,
          sndPackets := 300 }] := by
  rw [getNetStatsFromProc_text]
  rfl

end NetMonitor

end MonitorSystem
