import MonitorSystem.Library.CxxInt
import MonitorSystem.Proto.Messages
import MonitorSystem.Worker.ReadFile

/-!
# `MemMonitor`

`UpdateOnce` reads `/proc/meminfo` line by line.  The first word of a line selects a field of
`MenInfo`, which gets the number in the second word.  Nothing is known of a field whose line does
not occur, and yet all fields are read for the message: there is no test that a second word is
there, that it is a number, that a field has been assigned, or that the total is not zero.
`mem_monitor_safe_iff` says for which files this goes well.
-/

namespace MonitorSystem

namespace MemMonitor

open CxxFloat (toFloat lit)
open Function (update update_self update_of_ne)
open InputStream (isSpace scanNumber)
open TextWords (words extracted extracted_eq)

/-! ### The program -/

/-- The fields of `MenInfo`. -/
inductive Field
  | total
  | free
  | avail
  | buffers
  | cached
  | swapCached
  | active
  | inActive
  | activeAnon
  | inactiveAnon
  | activeFile
  | inactiveFile
  | dirty
  | writeback
  | anonPages
  | mapped
  | kReclaimable
  | sReclaimable
  | sUnreclaim
  deriving DecidableEq

/-- The first word of the line for a field. -/
def Field.key : Field → String
  | .total => "MemTotal:"
  | .free => "MemFree:"
  | .avail => "MemAvailable:"
  | .buffers => "Buffers:"
  | .cached => "Cached:"
  | .swapCached => "SwapCached:"
  | .active => "Active:"
  | .inActive => "Inactive:"
  | .activeAnon => "Active(anon):"
  | .inactiveAnon => "Inactive(anon):"
  | .activeFile => "Active(file):"
  | .inactiveFile => "Inactive(file):"
  | .dirty => "Dirty:"
  | .writeback => "Writeback:"
  | .anonPages => "AnonPages:"
  | .mapped => "Mapped:"
  | .kReclaimable => "KReclaimable:"
  | .sReclaimable => "SReclaimable:"
  | .sUnreclaim => "SUnreclaim:"

/-- The fields in the order in which a word is compared with their keys. -/
def Field.all : List Field :=
  [.total, .free, .avail, .buffers, .cached, .swapCached, .active, .inActive, .activeAnon,
    .inactiveAnon, .activeFile, .inactiveFile, .dirty, .writeback, .anonPages, .mapped,
    .kReclaimable, .sReclaimable, .sUnreclaim]

/-- `MenInfo`; `none` stands for a field that has not been assigned. -/
abbrev MenInfo := Field → Option Int64

/-- What goes wrong: `mem_datas[i]` behind the last word, the two exceptions of `std::stoll`, the
value of a field that has not been assigned, and a division by zero. -/
inductive Fault
  | indexPastWords
  | invalidArgument
  | outOfRange
  | unassigned (field : Field)
  | zeroTotal
  deriving DecidableEq

/-- `mem_datas[i]`. -/
def wordAt (memDatas : List (List Char)) (i : ℕ) : Except Fault (List Char) :=
  memDatas[i]?.elim (.error .indexPastWords) .ok

/-- `std::stoll`. -/
def stoll (text : List Char) : Except Fault Int64 :=
  match (scanNumber (text.dropWhile isSpace)).1 with
  | none => .error .invalidArgument
  | some (negative, n) =>
    let value : ℤ := if negative then -n else n
    if CxxInt.InInt64 value then .ok (Int64.ofInt value) else .error .outOfRange

/-- The field that a word is the key of. -/
def fieldOf (word : List Char) : Option Field := Field.all.find? (·.key.toList = word)

/-- The body of the loop over the lines. -/
def updateLine (memInfo : MenInfo) (memDatas : List (List Char)) : Except Fault MenInfo := do
  match fieldOf (← wordAt memDatas 0) with
  | some field =>
    -- nobody has looked whether there is a second word
    let value ← stoll (← wordAt memDatas 1)
    return update memInfo field (some value)
  | none => return memInfo

/-- The loop over the lines of the file; `none` stands for a file that cannot be opened. -/
def readLines (file : Option (List Char)) : Except Fault MenInfo :=
  (ReadFile.readAll (file.getD [])).foldlM updateLine fun _ => none

/-- The value of a field. -/
def MenInfo.get (memInfo : MenInfo) (field : Field) : Except Fault Int64 :=
  (memInfo field).elim (.error (.unassigned field)) .ok

/-- The values of all fields, which are read in the order of `Field.all`. -/
def MenInfo.values (memInfo : MenInfo) : Except Fault (Field → Int64) :=
  match Field.all.find? fun field => (memInfo field).isNone with
  | some field => .error (.unassigned field)
  | none => .ok fun field => (memInfo field).getD 0

section Message

variable {F : Type} [CxxFloat F]

/-- An `int64_t` as a floating-point number. -/
def ofInt64 (n : Int64) : F :=
  if n.toInt < 0 then 0 - (n.toInt.natAbs : F) else (n.toInt.natAbs : F)

/-- `value / KBToGB`, in `float`. -/
def toGB (value : Int64) : F := toFloat (toFloat (ofInt64 value) / lit 1000000 1)

/-- The argument of `set_used_percent`, a `double`, as a `float`; a difference that overflows wraps
around. -/
def usedPercent (total avail : Int64) : Except Fault F :=
  if total = 0 then .error .zeroTotal
  else .ok (toFloat (ofInt64 (total - avail) * lit 1 1 / ofInt64 total * lit 100 1))

/-- The message for the values of the fields. -/
def memInfoOf (value : Field → Int64) (usedPercent : F) : MemInfo F where
  total := toGB (value .total)
  free := toGB (value .free)
  avail := toGB (value .avail)
  buffers := toGB (value .buffers)
  cached := toGB (value .cached)
  swapCached := toGB (value .swapCached)
  active := toGB (value .active)
  inactive := toGB (value .inActive)
  activeAnon := toGB (value .activeAnon)
  inactiveAnon := toGB (value .inactiveAnon)
  activeFile := toGB (value .activeFile)
  inactiveFile := toGB (value .inactiveFile)
  dirty := toGB (value .dirty)
  writeback := toGB (value .writeback)
  anonPages := toGB (value .anonPages)
  mapped := toGB (value .mapped)
  kReclaimable := toGB (value .kReclaimable)
  sReclaimable := toGB (value .sReclaimable)
  sUnreclaim := toGB (value .sUnreclaim)
  usedPercent := usedPercent

/-- The end of `UpdateOnce`, which fills the message. -/
def fillMessage (memInfo : MenInfo) : Except Fault (MemInfo F) := do
  let usedPercent ← usedPercent (← memInfo.get .total) (← memInfo.get .avail)
  let value ← memInfo.values
  return memInfoOf value usedPercent

/-- `UpdateOnce`. -/
def updateOnce (file : Option (List Char)) : Except Fault (MemInfo F) := do
  fillMessage (← readLines file)

end Message

/-! ### Without a fault -/

theorem bind_eq_ok {α β : Type} {x : Except Fault α} {f : α → Except Fault β} {b : β} :
    (x >>= f) = .ok b ↔ ∃ a, x = .ok a ∧ f a = .ok b := by
  cases x <;> simp [bind, Except.bind]

theorem mem_all (field : Field) : field ∈ Field.all := by
  cases field <;> decide

theorem get_eq_ok {memInfo : MenInfo} {field : Field} {value : Int64} :
    memInfo.get field = .ok value ↔ memInfo field = some value := by
  unfold MenInfo.get
  cases memInfo field <;> simp

/-- All fields are read when all have been assigned. -/
theorem values_eq_ok {memInfo : MenInfo} {value : Field → Int64} :
    memInfo.values = .ok value ↔ ∀ field, memInfo field = some (value field) := by
  unfold MenInfo.values
  cases hfind : Field.all.find? fun field => (memInfo field).isNone with
  | some field =>
    have hnone : memInfo field = none := by simpa using List.find?_some hfind
    refine iff_of_false (by simp) fun hall => ?_
    rw [hall field] at hnone
    cases hnone
  | none =>
    rw [List.find?_eq_none] at hfind
    have hsome : ∀ field, memInfo field = some ((memInfo field).getD 0) := by
      intro field
      obtain ⟨value, hvalue⟩ := Option.isSome_iff_exists.1
        (by simpa [Option.isSome_iff_ne_none] using hfind field (mem_all field))
      rw [hvalue, Option.getD_some]
    constructor
    · intro h
      cases h
      exact hsome
    · intro h
      refine congrArg Except.ok (funext fun field => ?_)
      rw [h field, Option.getD_some]

section Message

variable {F : Type} [CxxFloat F]

/-- There is a message when all fields have been assigned and the total is not zero. -/
theorem fillMessage_eq_ok {memInfo : MenInfo} {m : MemInfo F} :
    fillMessage memInfo = .ok m ↔ ∃ value percent, (∀ field, memInfo field = some (value field)) ∧
      usedPercent (value .total) (value .avail) = .ok percent ∧ m = memInfoOf value percent := by
  simp only [fillMessage, bind_eq_ok, get_eq_ok, values_eq_ok]
  constructor
  · rintro ⟨total, htotal, avail, havail, percent, hpercent, value, hvalue, hm⟩
    rw [hvalue, Option.some.injEq] at htotal havail
    subst htotal havail
    exact ⟨value, percent, hvalue, hpercent, (Except.ok.inj hm).symm⟩
  · rintro ⟨value, percent, hvalue, hpercent, rfl⟩
    exact ⟨_, hvalue .total, _, hvalue .avail, percent, hpercent, value, hvalue, rfl⟩

end Message

/-! ### The lines -/

/-- The first word of the line is the key of the field. -/
def HasKey (field : Field) (line : List Char) : Prop :=
  (words line).head? = some field.key.toList

instance (field : Field) (line : List Char) : Decidable (HasKey field line) :=
  inferInstanceAs (Decidable (_ = _))

/-- The number in the second word of the line, if `std::stoll` finds one. -/
def numberOf (line : List Char) : Option Int64 :=
  (words line)[1]?.bind fun word => (stoll word).toOption

theorem fieldOf_key (field : Field) : fieldOf field.key.toList = some field := by
  cases field <;> decide

theorem fieldOf_eq_some_iff {word : List Char} {field : Field} :
    fieldOf word = some field ↔ word = field.key.toList := by
  constructor
  · intro h
    simpa [eq_comm] using List.find?_some h
  · rintro rfl
    exact fieldOf_key field

/-- The first word that is found in a line is empty when the line has no words. -/
theorem head?_extracted (line : List Char) :
    (extracted line).head? = some ((words line).headD []) := by
  have hne : extracted line ≠ [] := by
    rw [extracted]
    exact List.cons_ne_nil _ _
  rw [extracted_eq] at hne ⊢
  cases hwords : words line with
  | nil =>
    rw [hwords] at hne
    split_ifs at hne ⊢
    · exact absurd rfl hne
    · rfl
  | cons word rest => rfl

theorem hasKey_iff {field : Field} {line : List Char} :
    HasKey field line ↔ fieldOf ((words line).headD []) = some field := by
  rw [HasKey, fieldOf_eq_some_iff]
  cases words line with
  | nil =>
    refine iff_of_false (by simp) ?_
    cases field <;> decide
  | cons word rest => simp

/-- The second word is missing, or it is empty, or it is the second word of the line. -/
theorem toOption_stoll_extracted {line : List Char} (h : words line ≠ []) :
    (wordAt (extracted line) 1 >>= stoll).toOption = numberOf line := by
  rw [extracted_eq, numberOf]
  obtain ⟨word, rest, hwords⟩ := List.exists_cons_of_ne_nil h
  cases rest with
  | nil =>
    rw [hwords]
    split_ifs <;> rfl
  | cons word' rest =>
    rw [hwords]
    rfl

theorem updateLine_extracted (memInfo : MenInfo) (line : List Char) :
    updateLine memInfo (extracted line) =
      (fieldOf ((words line).headD [])).elim (.ok memInfo) fun field =>
        (wordAt (extracted line) 1 >>= stoll) >>= fun value =>
          .ok (update memInfo field (some value)) := by
  have hword : wordAt (extracted line) 0 = .ok ((words line).headD []) := by
    rw [wordAt, ← List.head?_eq_getElem?, head?_extracted]
    rfl
  rw [updateLine, hword]
  show (match fieldOf ((words line).headD []) with
    | some field => _
    | none => _) = _
  cases fieldOf ((words line).headD []) with
  | none => rfl
  | some field =>
    rw [Option.elim_some, bind_assoc]
    rfl

/-- A line without a key is passed over. -/
theorem updateLine_of_not_hasKey {line : List Char} (h : ∀ field, ¬ HasKey field line)
    (memInfo : MenInfo) : updateLine memInfo (extracted line) = .ok memInfo := by
  have hnone : fieldOf ((words line).headD []) = none :=
    Option.eq_none_iff_forall_ne_some.2 fun field hfield => h field (hasKey_iff.2 hfield)
  rw [updateLine_extracted, hnone, Option.elim_none]

/-- A line with a key assigns its number to the field, and has no other outcome without a fault. -/
theorem updateLine_of_hasKey {field : Field} {line : List Char} (h : HasKey field line)
    (memInfo memInfo' : MenInfo) : updateLine memInfo (extracted line) = .ok memInfo' ↔
      ∃ value, numberOf line = some value ∧ memInfo' = update memInfo field (some value) := by
  have hne : words line ≠ [] := by
    intro hnil
    rw [HasKey, hnil] at h
    cases h
  rw [updateLine_extracted, hasKey_iff.1 h, Option.elim_some, bind_eq_ok,
    ← toOption_stoll_extracted hne]
  cases wordAt (extracted line) 1 >>= stoll with
  | error fault => simp [Except.toOption]
  | ok value => simp [Except.toOption, eq_comm]

theorem HasKey.unique {field field' : Field} {line : List Char} (h : HasKey field line)
    (h' : HasKey field' line) : field = field' :=
  Option.some.inj ((hasKey_iff.1 h).symm.trans (hasKey_iff.1 h'))

/-! ### The file -/

/-- The lines under the key of a field. -/
def linesOf (ls : List (List Char)) (field : Field) : List (List Char) := ls.filter (HasKey field ·)

/-- The number in the last line under the key of a field; without one the field keeps its value. -/
def lastNumber (ls : List (List Char)) (memInfo : MenInfo) (field : Field) : Option Int64 :=
  (linesOf ls field).getLast?.elim (memInfo field) numberOf

theorem linesOf_cons_of_hasKey {field : Field} {line : List Char} (h : HasKey field line)
    (ls : List (List Char)) : linesOf (line :: ls) field = line :: linesOf ls field :=
  List.filter_cons_of_pos (by simpa using h)

theorem linesOf_cons_of_not_hasKey {field : Field} {line : List Char} (h : ¬ HasKey field line)
    (ls : List (List Char)) : linesOf (line :: ls) field = linesOf ls field :=
  List.filter_cons_of_neg (by simpa using h)

/-- An assignment is the number of the line for all lines that follow. -/
theorem lastNumber_cons {field : Field} {line : List Char} (h : HasKey field line)
    {value : Int64} (hvalue : numberOf line = some value) (ls : List (List Char))
    (memInfo : MenInfo) :
    lastNumber (line :: ls) memInfo = lastNumber ls (update memInfo field (some value)) := by
  funext field'
  unfold lastNumber
  by_cases hfield : field' = field
  · subst hfield
    rw [linesOf_cons_of_hasKey h, List.getLast?_cons, Option.elim_some, update_self]
    cases (linesOf ls field').getLast? with
    | none => exact hvalue
    | some line' => rfl
  · rw [linesOf_cons_of_not_hasKey fun h' => hfield (h'.unique h), update_of_ne hfield]

theorem numbers_cons_iff (line : List Char) (ls : List (List Char)) :
    (∀ field, ∀ l ∈ linesOf (line :: ls) field, numberOf l ≠ none) ↔
      (∀ field, HasKey field line → numberOf line ≠ none) ∧
        ∀ field, ∀ l ∈ linesOf ls field, numberOf l ≠ none := by
  simp only [linesOf, List.mem_filter, decide_eq_true_eq, and_imp, List.forall_mem_cons,
    forall_and]

/-- The loop ends when there is a number in every line with a key, and every field then has its last
number. -/
theorem foldlM_updateLine_eq_ok (ls : List (List Char)) (memInfo memInfo' : MenInfo) :
    (ls.map extracted).foldlM updateLine memInfo = .ok memInfo' ↔
      (∀ field, ∀ line ∈ linesOf ls field, numberOf line ≠ none) ∧
        memInfo' = lastNumber ls memInfo := by
  induction ls generalizing memInfo with
  | nil =>
    show Except.ok memInfo = .ok memInfo' ↔ _
    simp [linesOf, lastNumber, funext_iff, eq_comm]
  | cons line ls ih =>
    rw [List.map_cons, List.foldlM_cons, bind_eq_ok, numbers_cons_iff]
    by_cases hkey : ∃ field, HasKey field line
    · obtain ⟨field, hkey⟩ := hkey
      simp only [updateLine_of_hasKey hkey, ih]
      constructor
      · rintro ⟨_, ⟨value, hvalue, rfl⟩, hnumbers, rfl⟩
        have hline : numberOf line ≠ none := by simp [hvalue]
        exact ⟨⟨fun _ _ => hline, hnumbers⟩, (lastNumber_cons hkey hvalue ls memInfo).symm⟩
      · rintro ⟨⟨hline, hnumbers⟩, rfl⟩
        obtain ⟨value, hvalue⟩ := Option.ne_none_iff_exists'.1 (hline field hkey)
        exact ⟨_, ⟨value, hvalue, rfl⟩, hnumbers, lastNumber_cons hkey hvalue ls memInfo⟩
    · have hnokey := not_exists.1 hkey
      have hlast : lastNumber (line :: ls) memInfo = lastNumber ls memInfo :=
        funext fun field => by
          rw [lastNumber, linesOf_cons_of_not_hasKey (hnokey field), lastNumber]
      simp only [updateLine_of_not_hasKey hnokey, Except.ok.injEq, exists_eq_left', ih, hlast,
        hnokey, false_imp_iff, implies_true, true_and]

/-- The lines that are read: all that end in a newline, up to the first empty one. -/
def linesRead (file : Option (List Char)) : List (List Char) :=
  (ReadFile.ended (file.getD [])).takeWhile (· ≠ [])

theorem readLines_eq (file : Option (List Char)) : readLines file =
    ((linesRead file).map extracted).foldlM updateLine fun _ => none := by
  rw [readLines, ReadFile.readAll_eq, linesRead]

/-! ### The percentage -/

theorem ofInt64_rat (n : Int64) : (ofInt64 n : ℚ) = n.toInt := by
  unfold ofInt64
  split_ifs with hneg
  · have habs : (n.toInt.natAbs : ℤ) = -n.toInt := by omega
    rw [← Int.cast_natCast, habs]
    push_cast
    ring
  · have habs : (n.toInt.natAbs : ℤ) = n.toInt := by omega
    rw [← Int.cast_natCast, habs]

/-- The difference does not overflow. -/
theorem toInt_sub_of_le {total avail : Int64} (havail : 0 ≤ avail) (hle : avail ≤ total) :
    (total - avail).toInt = total.toInt - avail.toInt := by
  rw [Int64.le_iff_toInt_le] at havail hle
  have hlow : (0 : Int64).toInt = 0 := rfl
  have hhigh := total.toInt_lt
  rw [Int64.toInt_sub]
  exact Int.bmod_eq_of_le (by omega) (by omega)

/-- In exact arithmetic the value is a percentage. -/
theorem usedPercent_mem_Icc {total avail : Int64} {percent : ℚ}
    (h : usedPercent total avail = .ok percent) (htotal : 0 < total) (havail : 0 ≤ avail)
    (hle : avail ≤ total) : percent ∈ Set.Icc 0 100 := by
  have hsub := toInt_sub_of_le havail hle
  have hpos : (0 : ℚ) < total.toInt := by exact_mod_cast Int64.lt_iff_toInt_lt.1 htotal
  have hnonneg : (0 : ℚ) ≤ avail.toInt := by exact_mod_cast Int64.le_iff_toInt_le.1 havail
  have hle' : (avail.toInt : ℚ) ≤ total.toInt := by exact_mod_cast Int64.le_iff_toInt_le.1 hle
  unfold usedPercent at h
  split_ifs at h with hzero
  obtain rfl := Except.ok.inj h
  simp only [CxxFloat.toFloat_rat, ofInt64_rat, hsub, lit]
  push_cast
  rw [Set.mem_Icc, div_one, mul_one, div_one, div_mul_eq_mul_div, le_div_iff₀ hpos,
    div_le_iff₀ hpos]
  constructor <;> linarith

/-! ### Which files are safe -/

/-- A call ends without a fault, and the percentage that it reports is one if the total is positive
and what is available is between zero and the total. -/
def Safe (file : Option (List Char)) : Prop :=
  ∃ m : MemInfo ℚ, updateOnce file = .ok m ∧
    ∀ memInfo total avail, readLines file = .ok memInfo →
      memInfo .total = some total → memInfo .avail = some avail →
      0 < total → 0 ≤ avail → avail ≤ total → m.usedPercent ∈ Set.Icc 0 100

/-- Among the lines that are read every key occurs, each line with a key has a number of 64 bits for
its second word, and the last total is not zero. -/
structure Complete (file : Option (List Char)) : Prop where
  keys : ∀ field, linesOf (linesRead file) field ≠ []
  numbers : ∀ field, ∀ line ∈ linesOf (linesRead file) field, numberOf line ≠ none
  total : (linesOf (linesRead file) .total).getLast?.bind numberOf ≠ some 0

theorem lastNumber_start (ls : List (List Char)) (field : Field) :
    lastNumber ls (fun _ => none) field = (linesOf ls field).getLast?.bind numberOf := by
  unfold lastNumber
  cases (linesOf ls field).getLast? <;> rfl

/-- What a call without a fault has read and reports. -/
theorem updateOnce_eq_ok {file : Option (List Char)} {m : MemInfo ℚ} :
    updateOnce file = .ok m ↔
      (∀ field, ∀ line ∈ linesOf (linesRead file) field, numberOf line ≠ none) ∧
      ∃ value percent,
        (∀ field, lastNumber (linesRead file) (fun _ => none) field = some (value field)) ∧
        usedPercent (value .total) (value .avail) = .ok percent ∧
        m = memInfoOf value percent := by
  simp only [updateOnce, bind_eq_ok, readLines_eq, foldlM_updateLine_eq_ok, fillMessage_eq_ok]
  constructor
  · rintro ⟨_, ⟨hnumbers, rfl⟩, hmessage⟩
    exact ⟨hnumbers, hmessage⟩
  · rintro ⟨hnumbers, hmessage⟩
    exact ⟨_, ⟨hnumbers, rfl⟩, hmessage⟩

/-- In a complete file every field has a number, and the total is not zero. -/
theorem Complete.exists_value {file : Option (List Char)} (h : Complete file) :
    ∃ value : Field → Int64,
      (∀ field, lastNumber (linesRead file) (fun _ => none) field = some (value field)) ∧
        value .total ≠ 0 := by
  have hassigned : ∀ field, ∃ value,
      lastNumber (linesRead file) (fun _ => none) field = some value := by
    intro field
    rw [lastNumber_start, List.getLast?_eq_some_getLast (h.keys field), Option.bind_some]
    exact Option.ne_none_iff_exists'.1 (h.numbers field _ (List.getLast_mem (h.keys field)))
  choose value hvalue using hassigned
  refine ⟨value, hvalue, fun hzero => h.total ?_⟩
  rw [← lastNumber_start, hvalue, hzero]

/-- **When `MemMonitor` is safe.**  For every content of `/proc/meminfo`, or none: a call never
reads behind the words of a line, lets no exception of `std::stoll` escape, reads no field that has
not been assigned and does not divide by zero, and its percentage is one, if and only if among the
lines that are read every key occurs, each with a number, and the last total is not zero. -/
theorem mem_monitor_safe_iff (file : Option (List Char)) : Safe file ↔ Complete file := by
  constructor
  · rintro ⟨m, hm, -⟩
    obtain ⟨hnumbers, value, percent, hvalue, hpercent, -⟩ := updateOnce_eq_ok.1 hm
    simp only [lastNumber_start] at hvalue
    refine ⟨fun field hnil => ?_, hnumbers, fun hzero => ?_⟩
    · have hnone := hvalue field
      rw [hnil] at hnone
      cases hnone
    · rw [hvalue, Option.some.injEq] at hzero
      rw [usedPercent, if_pos hzero] at hpercent
      cases hpercent
  · intro hcomplete
    obtain ⟨value, hvalue, htotal⟩ := hcomplete.exists_value
    obtain ⟨percent, hpercent⟩ : ∃ percent : ℚ,
        usedPercent (value .total) (value .avail) = .ok percent :=
      ⟨_, if_neg htotal⟩
    refine ⟨_, updateOnce_eq_ok.2 ⟨hcomplete.numbers, value, percent, hvalue, hpercent, rfl⟩, ?_⟩
    intro memInfo total avail hread hmemTotal hmemAvail hpos hnonneg hle
    -- the fields that the percentage is computed from are the ones of the message
    rw [readLines_eq, foldlM_updateLine_eq_ok] at hread
    rw [hread.2, hvalue, Option.some.injEq] at hmemTotal hmemAvail
    subst hmemTotal hmemAvail
    exact usedPercent_mem_Icc hpercent hpos hnonneg hle

/-! ### Files that are not -/

/-- The fault of a call. -/
def faultOf (file : Option (List Char)) : Option Fault :=
  match (updateOnce file : Except Fault (MemInfo ℚ)) with
  | .error fault => some fault
  | .ok _ => none

/-- A file with one line for each of the fields, all with the same number. -/
def memFile (fields : List Field) (number : String) : List Char :=
  fields.flatMap fun field => field.key.toList ++ ' ' :: number.toList ++ " kB\n".toList

/-- The words that are found in a line, without the loop that finds them. -/
theorem readLines_words (file : Option (List Char)) :
    readLines file = ((linesRead file).map fun line =>
      words line ++ if TextWords.EndsInWord line then [] else [[]]).foldlM updateLine
        fun _ => none := by
  rw [readLines_eq]
  simp only [funext extracted_eq]

theorem updateOnce_eq (file : Option (List Char)) :
    (updateOnce file : Except Fault (MemInfo ℚ)) = (((linesRead file).map fun line =>
      words line ++ if TextWords.EndsInWord line then [] else [[]]).foldlM updateLine
        fun _ => none) >>= fillMessage := by
  rw [updateOnce, readLines_words]

/-- Every fault occurs: on a file that cannot be opened, on a kernel that does not print
`KReclaimable:`, on a key without a second word, on a second word that is no number or does not fit,
and on a total of zero. -/
theorem mem_monitor_faults : (¬ ∀ file, Safe file) ∧
    faultOf none = some (.unassigned .total) ∧
    faultOf (memFile (Field.all.filter (· ≠ .kReclaimable)) "1") =
      some (.unassigned .kReclaimable) ∧
    faultOf "MemTotal:\n".toList = some .indexPastWords ∧
    faultOf "MemTotal: kB\n".toList = some .invalidArgument ∧
    faultOf "MemTotal: 9223372036854775808 kB\n".toList = some .outOfRange ∧
    faultOf (memFile Field.all "0") = some .zeroTotal := by
  refine ⟨fun hclaim => ?_, ?_⟩
  · obtain ⟨m, hm, -⟩ := hclaim none
    have hfault : faultOf none = some (.unassigned .total) := by
      rw [faultOf, updateOnce_eq]
      decide +kernel
    rw [faultOf, hm] at hfault
    cases hfault
  · simp only [faultOf, updateOnce_eq]
    decide +kernel

example : faultOf (memFile Field.all "1") = none := by
  rw [faultOf, updateOnce_eq]
  decide +kernel

end MemMonitor

end MonitorSystem
