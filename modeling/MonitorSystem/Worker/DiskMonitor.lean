import MonitorSystem.Library.InputStream
import MonitorSystem.Proto.Messages

/-!
# `DiskMonitor`

`UpdateOnce` reads `/proc/diskstats` line by line, takes a name and nine counters from each line
by position, and reports the counters with the rates since the last call.

A line of the kernel has eleven counters and more.  The nine that the code takes are the first
nine, but under the names of a selection: from the second one on they are not the counters that
the fields are named after.  `disk_counters_iff` says for which counters nobody notices.
-/

namespace MonitorSystem

namespace DiskMonitor

open CxxFloat (lit)
open Function (update)
open InputStream DecimalText

/-! ### The program -/

/-- `DiskSample`. -/
structure DiskSample where
  reads : UInt64 := 0
  writes : UInt64 := 0
  sectorsRead : UInt64 := 0
  sectorsWritten : UInt64 := 0
  readTimeMs : UInt64 := 0
  writeTimeMs : UInt64 := 0
  ioInProgress : UInt64 := 0
  ioTimeMs : UInt64 := 0
  weightedIoTimeMs : UInt64 := 0
  deriving DecidableEq

/-- `last_samples` and `last_time`. -/
structure State (F : Type) where
  lastSamples : String → Option DiskSample := fun _ => none
  lastTime : String → Option F := fun _ => none

/-- The extractions of one line: the name and the sample. -/
def readLine (line : List Char) : List Char × DiskSample :=
  let iss : IStream := { rest := line }
  let (_major, iss) := readNumber convertInt iss 0
  let (_minor, iss) := readNumber convertInt iss 0
  let (name, iss) := readWord iss []
  let (reads, iss) := readNumber convertUInt64 iss 0
  let (writes, iss) := readNumber convertUInt64 iss 0
  let (sectorsRead, iss) := readNumber convertUInt64 iss 0
  let (sectorsWritten, iss) := readNumber convertUInt64 iss 0
  let (readTimeMs, iss) := readNumber convertUInt64 iss 0
  let (writeTimeMs, iss) := readNumber convertUInt64 iss 0
  let (ioInProgress, iss) := readNumber convertUInt64 iss 0
  let (ioTimeMs, iss) := readNumber convertUInt64 iss 0
  let (weightedIoTimeMs, _) := readNumber convertUInt64 iss 0
  (name,
    { reads := reads
      writes := writes
      sectorsRead := sectorsRead
      sectorsWritten := sectorsWritten
      readTimeMs := readTimeMs
      writeTimeMs := writeTimeMs
      ioInProgress := ioInProgress
      ioTimeMs := ioTimeMs
      weightedIoTimeMs := weightedIoTimeMs })

/-- The names of virtual disks, which are skipped. -/
def isVirtual (name : List Char) : Bool :=
  "loop".toList.isPrefixOf name || "ram".toList.isPrefixOf name

variable {F : Type} [CxxFloat F]

/-- A counter as a `double`. -/
def double (n : UInt64) : F := (n.toNat : F)

/-- The message for a disk; differences of counters wrap around. -/
def diskInfo (now : F) (state : State F) (name : String) (curr : DiskSample) : DiskInfo F :=
  let dt := now - (state.lastTime name).getD 0
  let disk : DiskInfo F :=
    { name := name
      reads := curr.reads
      writes := curr.writes
      sectorsRead := curr.sectorsRead
      sectorsWritten := curr.sectorsWritten
      readTimeMs := curr.readTimeMs
      writeTimeMs := curr.writeTimeMs
      ioInProgress := curr.ioInProgress
      ioTimeMs := curr.ioTimeMs
      weightedIoTimeMs := curr.weightedIoTimeMs
      readBytesPerSec := 0
      writeBytesPerSec := 0
      readIops := 0
      writeIops := 0
      avgReadLatencyMs := 0
      avgWriteLatencyMs := 0
      utilPercent := 0 }
  match state.lastSamples name with
  | none => disk
  | some last =>
    if 0 < dt then
      let readIos : F := double (curr.reads - last.reads)
      let writeIos : F := double (curr.writes - last.writes)
      let readBytes := double (curr.sectorsRead - last.sectorsRead) * lit 512 1
      let writeBytes := double (curr.sectorsWritten - last.sectorsWritten) * lit 512 1
      let readTime := double (curr.readTimeMs - last.readTimeMs)
      let writeTime := double (curr.writeTimeMs - last.writeTimeMs)
      let ioTime := double (curr.ioTimeMs - last.ioTimeMs)
      { disk with
        readBytesPerSec := readBytes / dt
        writeBytesPerSec := writeBytes / dt
        readIops := readIos / dt
        writeIops := writeIos / dt
        avgReadLatencyMs := if 0 < readIos then readTime / readIos else 0
        avgWriteLatencyMs := if 0 < writeIos then writeTime / writeIos else 0
        utilPercent := ioTime / (dt * lit 10 1) }
    else disk

/-- `last_samples[name] = curr` and `last_time[name] = now`. -/
def State.remember (state : State F) (now : F) (name : String) (curr : DiskSample) : State F where
  lastSamples := update state.lastSamples name (some curr)
  lastTime := update state.lastTime name (some now)

/-- The loop of `UpdateOnce` over the lines: the messages it adds and the samples it leaves. -/
def updateLines (now : F) : List (List Char) → State F → List (DiskInfo F) × State F
  | [], state => ([], state)
  | line :: rest, state =>
    let (name, curr) := readLine line
    if isVirtual name then updateLines now rest state
    else
      let disk := diskInfo now state (String.ofList name) curr
      let (disks, state) :=
        updateLines now rest (state.remember now (String.ofList name) curr)
      (disk :: disks, state)

/-- `UpdateOnce`, on the text of `/proc/diskstats`. -/
def updateOnce (now : F) (text : List Char) (state : State F) : List (DiskInfo F) × State F :=
  updateLines now (lines text) state

/-! ### The format of the kernel -/

/-- The counters of a block device. -/
structure Counters where
  readsCompleted : UInt64
  readsMerged : UInt64
  sectorsRead : UInt64
  msReading : UInt64
  writesCompleted : UInt64
  writesMerged : UInt64
  sectorsWritten : UInt64
  msWriting : UInt64
  iosInProgress : UInt64
  msDoingIo : UInt64
  weightedMs : UInt64

/-- The counters in the order in which the kernel prints them. -/
def Counters.toList (c : Counters) : List UInt64 :=
  [c.readsCompleted, c.readsMerged, c.sectorsRead, c.msReading, c.writesCompleted, c.writesMerged,
    c.sectorsWritten, c.msWriting, c.iosInProgress, c.msDoingIo, c.weightedMs]

/-- What the fields of a `DiskSample` are named after. -/
def Counters.sample (c : Counters) : DiskSample where
  reads := c.readsCompleted
  writes := c.writesCompleted
  sectorsRead := c.sectorsRead
  sectorsWritten := c.sectorsWritten
  readTimeMs := c.msReading
  writeTimeMs := c.msWriting
  ioInProgress := c.iosInProgress
  ioTimeMs := c.msDoingIo
  weightedIoTimeMs := c.weightedMs

/-- A line of `/proc/diskstats`: a device, the counters after the eleven, and the number of
spaces, beyond the one that must be there, before each column. -/
structure Device where
  major : ℕ
  minor : ℕ
  name : List Char
  counters : Counters
  more : List UInt64 := []
  lead : ℕ := 0
  pads : ℕ → ℕ := fun _ => 0
  major_lt : major < 2 ^ 31
  minor_lt : minor < 2 ^ 31
  name_ne_nil : name ≠ []
  isSpace_name : ∀ c ∈ name, isSpace c = false

/-- Columns of counters, the first of which is column `i`. -/
def columns (pads : ℕ → ℕ) : ℕ → List UInt64 → List Char
  | _, [] => []
  | i, n :: ns => column (pads i + 1) (natText n.toNat) ++ columns pads (i + 1) ns

/-- The line of a device. -/
def Device.line (d : Device) : List Char :=
  column d.lead (natText d.major) ++ (column (d.pads 1 + 1) (natText d.minor) ++
    (column (d.pads 2 + 1) d.name ++ columns d.pads 3 (d.counters.toList ++ d.more)))

/-- The text of `/proc/diskstats`. -/
def procDiskstats (devices : List Device) : List Char :=
  devices.flatMap fun d => d.line ++ ['\n']

/-! ### What is read -/

/-- What `readLine` takes from a line: the first nine counters. -/
def Counters.firstNine (c : Counters) : DiskSample where
  reads := c.readsCompleted
  writes := c.readsMerged
  sectorsRead := c.sectorsRead
  sectorsWritten := c.msReading
  readTimeMs := c.writesCompleted
  writeTimeMs := c.writesMerged
  ioInProgress := c.sectorsWritten
  ioTimeMs := c.msWriting
  weightedIoTimeMs := c.iosInProgress

theorem stops_column {p : Char → Bool} (hp : p ' ' = false) (pad : ℕ) (word rest : List Char) :
    Stops p (column (pad + 1) word ++ rest) := by
  rw [column, List.replicate_succ, List.cons_append, List.cons_append]
  exact stops_cons hp

theorem stops_columns {p : Char → Bool} (hp : p ' ' = false) (pads : ℕ → ℕ) (i : ℕ)
    (ns : List UInt64) : Stops p (columns pads i ns) := by
  cases ns with
  | nil => intro c hc; cases hc
  | cons n ns => exact stops_column hp _ _ _

/-- One counter is read from the front of the columns. -/
theorem readUInt64_columns (pads : ℕ → ℕ) (i : ℕ) (n old : UInt64) (ns : List UInt64) :
    readNumber convertUInt64 { rest := columns pads i (n :: ns) } old =
      (n, { rest := columns pads (i + 1) ns }) :=
  readUInt64_column (stops_columns (by decide) pads (i + 1) ns)

/-- The line of a device is read as its name and its first nine counters. -/
theorem readLine_line (d : Device) : readLine d.line = (d.name, d.counters.firstNine) := by
  have hmajor := readInt_column d.lead 0 d.major_lt
    (stops_column (p := Char.isDigit) (by decide) (d.pads 1) (natText d.minor)
      (column (d.pads 2 + 1) d.name ++ columns d.pads 3 (d.counters.toList ++ d.more)))
  have hminor := readInt_column (d.pads 1 + 1) 0 d.minor_lt
    (stops_column (p := Char.isDigit) (by decide) (d.pads 2) d.name
      (columns d.pads 3 (d.counters.toList ++ d.more)))
  have hname := readWord_column (d.pads 2 + 1) [] d.name_ne_nil d.isSpace_name
    (stops_columns (by decide) d.pads 3 (d.counters.toList ++ d.more))
  simp only [readLine, Device.line, hmajor, hminor, hname]
  simp only [Counters.toList, List.cons_append, readUInt64_columns, Counters.firstNine]

/-! ### Lines -/

theorem newline_notMem_column {pad : ℕ} {word : List Char}
    (hword : ∀ c ∈ word, isSpace c = false) : '\n' ∉ column pad word := by
  intro h
  rcases List.mem_append.1 h with h | h
  · exact absurd (List.eq_of_mem_replicate h) (by decide)
  · exact absurd (hword _ h) (by decide)

theorem isSpace_natText (n : ℕ) : ∀ c ∈ natText n, isSpace c = false :=
  fun _ hc => isSpace_of_isDigit (isDigit_of_mem_natText hc)

theorem newline_notMem_columns (pads : ℕ → ℕ) (ns : List UInt64) :
    ∀ i, '\n' ∉ columns pads i ns := by
  induction ns with
  | nil => intro i h; cases h
  | cons n ns ih =>
    intro i h
    rcases List.mem_append.1 h with h | h
    · exact newline_notMem_column (isSpace_natText n.toNat) h
    · exact ih (i + 1) h

theorem newline_notMem_line (d : Device) : '\n' ∉ d.line := by
  intro h
  rcases List.mem_append.1 h with h | h
  · exact newline_notMem_column (isSpace_natText d.major) h
  rcases List.mem_append.1 h with h | h
  · exact newline_notMem_column (isSpace_natText d.minor) h
  rcases List.mem_append.1 h with h | h
  · exact newline_notMem_column d.isSpace_name h
  · exact newline_notMem_columns d.pads _ 3 h

/-- The text of the kernel is read device by device. -/
theorem lines_procDiskstats (devices : List Device) :
    lines (procDiskstats devices) = devices.map Device.line := by
  have hlines : ∀ l ∈ devices.map Device.line, '\n' ∉ l := by
    intro l hl
    obtain ⟨d, -, rfl⟩ := List.mem_map.1 hl
    exact newline_notMem_line d
  have h := lines_flatMap hlines
  rwa [List.flatMap_map] at h

/-! ### The messages -/

/-- The name and the counters of a message. -/
def report (disk : DiskInfo F) : String × DiskSample :=
  (disk.name,
    { reads := disk.reads
      writes := disk.writes
      sectorsRead := disk.sectorsRead
      sectorsWritten := disk.sectorsWritten
      readTimeMs := disk.readTimeMs
      writeTimeMs := disk.writeTimeMs
      ioInProgress := disk.ioInProgress
      ioTimeMs := disk.ioTimeMs
      weightedIoTimeMs := disk.weightedIoTimeMs })

theorem report_diskInfo (now : F) (state : State F) (name : String) (curr : DiskSample) :
    report (diskInfo now state name curr) = (name, curr) := by
  unfold diskInfo
  cases state.lastSamples name with
  | none => rfl
  | some last =>
    dsimp only
    split_ifs <;> rfl

/-- The devices whose name starts neither with `loop` nor with `ram`. -/
def physical (devices : List Device) : List Device :=
  devices.filter fun d => !isVirtual d.name

/-- The loop reports the devices that are not virtual, in order, with their first nine
counters. -/
theorem report_updateLines (now : F) (devices : List Device) (state : State F) :
    (updateLines now (devices.map Device.line) state).1.map report =
      (physical devices).map fun d => (String.ofList d.name, d.counters.firstNine) := by
  induction devices generalizing state with
  | nil => rfl
  | cons d devices ih =>
    simp only [List.map_cons, updateLines, readLine_line, physical, List.filter_cons]
    cases hvirtual : isVirtual d.name with
    | true => simpa [physical] using ih state
    | false =>
      have hrest := ih (state.remember now (String.ofList d.name) d.counters.firstNine)
      simpa [report_diskInfo, physical] using hrest

/-- The counters among which the fields of the message can be exchanged unnoticed. -/
structure Counters.Exchangeable (c : Counters) : Prop where
  readsMerged : c.readsMerged = c.writesCompleted
  msReading : c.msReading = c.writesCompleted
  sectorsWritten : c.sectorsWritten = c.writesCompleted
  iosInProgress : c.iosInProgress = c.writesCompleted
  weightedMs : c.weightedMs = c.writesCompleted
  writesMerged : c.writesMerged = c.msWriting
  msDoingIo : c.msDoingIo = c.msWriting

theorem Counters.firstNine_eq_sample_iff (c : Counters) :
    c.firstNine = c.sample ↔ c.Exchangeable := by
  simp only [firstNine, sample, DiskSample.mk.injEq, true_and]
  constructor
  · rintro ⟨hwrites, hsectors, hread, hwrite, hprogress, htime, hweighted⟩
    have hwritten : c.sectorsWritten = c.writesCompleted := hsectors.symm.trans hread.symm
    have hios : c.iosInProgress = c.writesCompleted := hprogress.symm.trans hwritten
    exact ⟨hwrites, hread.symm, hwritten, hios, hweighted.symm.trans hios, hwrite, htime.symm⟩
  · rintro ⟨hmerged, hread, hwritten, hprogress, hweighted, hwrite, htime⟩
    exact ⟨hmerged, hread.trans hwritten.symm, hread.symm, hwrite,
      hwritten.trans hprogress.symm, htime.symm, hprogress.trans hweighted.symm⟩

/-- **What `DiskMonitor` reports.**  The messages carry the counters that their fields are named
after if and only if, on every disk that is not virtual, the counters of two groups agree among
themselves: the merged reads, the reading time, the completed writes, the written sectors, the
operations in progress and the weighted time; the merged writes, the writing time and the time
spent on operations. -/
theorem disk_counters_iff (now : F) (state : State F) (devices : List Device) :
    (updateOnce now (procDiskstats devices) state).1.map report =
        (physical devices).map (fun d => (String.ofList d.name, d.counters.sample)) ↔
      ∀ d ∈ devices, isVirtual d.name = false → d.counters.Exchangeable := by
  rw [updateOnce, lines_procDiskstats, report_updateLines, physical, List.map_inj_left]
  simp only [Prod.mk.injEq, true_and, Counters.firstNine_eq_sample_iff, List.mem_filter,
    Bool.not_eq_true', and_imp]

/-- A disk that has read and written. -/
def sda : Device where
  major := 8
  minor := 0
  name := ['s', 'd', 'a']
  counters :=
    { readsCompleted := 100, readsMerged := 20, sectorsRead := 3000, msReading := 40,
      writesCompleted := 500, writesMerged := 60, sectorsWritten := 7000, msWriting := 80,
      iosInProgress := 0, msDoingIo := 90, weightedMs := 120 }
  lead := 3
  pads i := if i = 1 then 6 else 0
  major_lt := by decide
  minor_lt := by decide
  name_ne_nil := by simp
  isSpace_name := by simp [isSpace]

/-- The merged reads of `sda` are reported as its writes, and so on. -/
theorem sda_counters_misread :
    procDiskstats [sda] = "   8       0 sda 100 20 3000 40 500 60 7000 80 0 90 120\n".toList ∧
      (updateOnce (0 : ℚ) (procDiskstats [sda]) {}).1.map report =
        [("sda",
          { reads := 100, writes := 20, sectorsRead := 3000, sectorsWritten := 40,
            readTimeMs := 500, writeTimeMs := 60, ioInProgress := 7000, ioTimeMs := 80,
            weightedIoTimeMs := 0 })] ∧
      (updateOnce (0 : ℚ) (procDiskstats [sda]) {}).1.map report ≠
        (physical [sda]).map fun d => (String.ofList d.name, d.counters.sample) := by
  have hrun := report_updateLines (0 : ℚ) [sda] {}
  rw [← lines_procDiskstats] at hrun
  refine ⟨by decide +kernel, hrun.trans (by decide +kernel), ?_⟩
  rw [updateOnce, hrun]
  decide +kernel

end DiskMonitor

end MonitorSystem
