import MonitorSystem.Library.DecimalText

/-!
# Reading text with a C++ input stream

`std::getline` on a whole file (`lines`), and the extractions `>>` of a word and of a decimal
number from a line.  An extraction skips white space, takes the longest prefix that fits, and
raises the failure flag when nothing fits or the value is out of range; once the flag is up, every
further extraction leaves its target as it is.

The lemmas at the end of each section say what is read from well-formed text.
-/

namespace InputStream

/-! ### Lines -/

/-- The lines that repeated calls of `getline` deliver. -/
def lines : List Char → List (List Char)
  | [] => []
  | c :: cs =>
    if c = '\n' then [] :: lines cs
    else
      match lines cs with
      | [] => [[c]]
      | l :: ls => (c :: l) :: ls

theorem lines_append_newline {l : List Char} (h : '\n' ∉ l) (rest : List Char) :
    lines (l ++ '\n' :: rest) = l :: lines rest := by
  induction l with
  | nil => rfl
  | cons c l ih =>
    have hc : c ≠ '\n' := fun hc => h (hc ▸ List.mem_cons_self)
    rw [List.cons_append, lines, if_neg hc, ih fun hl => h (List.mem_cons_of_mem c hl)]

/-- Text whose lines all end in a newline is read line by line. -/
theorem lines_flatMap {ls : List (List Char)} (h : ∀ l ∈ ls, '\n' ∉ l) :
    lines (ls.flatMap fun l => l ++ ['\n']) = ls := by
  induction ls with
  | nil => rfl
  | cons l ls ih =>
    rw [List.flatMap_cons, List.append_assoc, List.singleton_append,
      lines_append_newline (h l List.mem_cons_self),
      ih fun l' hl' => h l' (List.mem_cons_of_mem l hl')]

/-! ### Extraction -/

/-- `isspace` in the C locale. -/
def isSpace (c : Char) : Bool :=
  c = ' ' || c = '\t' || c = '\n' || c = '\x0b' || c = '\x0c' || c = '\r'

/-- What is left to read, and the failure flag. -/
structure IStream where
  rest : List Char
  fail : Bool := false

/-- `stream >> word`. -/
def readWord (s : IStream) (old : List Char) : List Char × IStream :=
  let text := s.rest.dropWhile isSpace
  if s.fail then (old, s)
  else if text = [] then (old, { rest := [], fail := true })
  else (text.takeWhile (!isSpace ·), { rest := text.dropWhile (!isSpace ·) })

/-- A sign and digits; `none` when there are no digits. -/
def scanNumber (text : List Char) : Option (Bool × ℕ) × List Char :=
  let (negative, body) :=
    match text with
    | '-' :: t => (true, t)
    | '+' :: t => (false, t)
    | t => (false, t)
  let digits := body.takeWhile Char.isDigit
  (if digits = [] then none else some (negative, Nat.ofDigitChars 10 digits 0),
    body.dropWhile Char.isDigit)

/-- `stream >> number`, where `convert` gives the value of what was scanned and whether it is a
number in range. -/
def readNumber {α : Type} (convert : Option (Bool × ℕ) → α × Bool) (s : IStream) (old : α) :
    α × IStream :=
  let text := s.rest.dropWhile isSpace
  if s.fail then (old, s)
  else if text = [] then (old, { rest := [], fail := true })
  else
    let (scanned, rest) := scanNumber text
    let (value, ok) := convert scanned
    (value, { rest := rest, fail := !ok })

/-- A `uint64_t`; a negative number is taken modulo `2 ^ 64`. -/
def convertUInt64 : Option (Bool × ℕ) → UInt64 × Bool
  | none => (0, false)
  | some (negative, n) =>
    if n < 2 ^ 64 then (if negative then -UInt64.ofNat n else UInt64.ofNat n, true)
    else (UInt64.ofNat (2 ^ 64 - 1), false)

/-- An `int`. -/
def convertInt : Option (Bool × ℕ) → ℤ × Bool
  | none => (0, false)
  | some (true, n) => if n ≤ 2 ^ 31 then (-(n : ℤ), true) else (-2 ^ 31, false)
  | some (false, n) => if n < 2 ^ 31 then ((n : ℤ), true) else (2 ^ 31 - 1, false)

/-! ### Reading what was written -/

/-- The text does not go on with a character of the class `p`. -/
def Stops (p : Char → Bool) (text : List Char) : Prop := ∀ c, text.head? = some c → p c = false

theorem stops_cons {p : Char → Bool} {c : Char} {text : List Char} (h : p c = false) :
    Stops p (c :: text) := by
  intro d hd
  cases hd
  exact h

theorem takeWhile_append {p : Char → Bool} {word rest : List Char} (hword : ∀ c ∈ word, p c = true)
    (hrest : Stops p rest) : (word ++ rest).takeWhile p = word := by
  rw [List.takeWhile_append_of_pos hword]
  cases rest with
  | nil => simp
  | cons c rest => simp [hrest c rfl]

theorem dropWhile_append {p : Char → Bool} {word rest : List Char} (hword : ∀ c ∈ word, p c = true)
    (hrest : Stops p rest) : (word ++ rest).dropWhile p = rest := by
  rw [List.dropWhile_append_of_pos hword]
  cases rest with
  | nil => rfl
  | cons c rest => simp [hrest c rfl]

/-- A column: some spaces and a word. -/
def column (pad : ℕ) (word : List Char) : List Char := List.replicate pad ' ' ++ word

/-- The spaces before a column are skipped. -/
theorem skip_column {pad : ℕ} {word rest : List Char} (hne : word ≠ [])
    (hword : ∀ c ∈ word, isSpace c = false) :
    (column pad word ++ rest).dropWhile isSpace = word ++ rest := by
  rw [column, List.append_assoc]
  refine dropWhile_append (fun c hc => ?_) ?_
  · rw [List.eq_of_mem_replicate hc]
    rfl
  · cases word with
    | nil => exact absurd rfl hne
    | cons c word => exact stops_cons (hword c List.mem_cons_self)

theorem readWord_column (pad : ℕ) {word rest : List Char} (old : List Char) (hne : word ≠ [])
    (hword : ∀ c ∈ word, isSpace c = false) (hrest : Stops (!isSpace ·) rest) :
    readWord { rest := column pad word ++ rest } old = (word, { rest := rest }) := by
  have hword' : ∀ c ∈ word, (!isSpace c) = true := fun c hc => by rw [hword c hc]; rfl
  have htext : word ++ rest ≠ [] := fun h => hne (List.append_eq_nil_iff.1 h).1
  simp only [readWord, skip_column hne hword]
  rw [if_neg Bool.false_ne_true, if_neg htext, takeWhile_append hword' hrest,
    dropWhile_append hword' hrest]

theorem isDigit_of_mem_natText {n : ℕ} {c : Char} (h : c ∈ DecimalText.natText n) :
    c.isDigit = true :=
  Nat.isDigit_of_mem_toDigits (by decide) (by decide) h

theorem isSpace_of_isDigit {c : Char} (h : c.isDigit = true) : isSpace c = false := by
  by_contra hspace
  simp only [isSpace, Bool.not_eq_false, Bool.or_eq_true, decide_eq_true_eq] at hspace
  rcases hspace with ((((rfl | rfl) | rfl) | rfl) | rfl) | rfl <;> simp [Char.isDigit] at h

theorem natText_ne_nil (n : ℕ) : DecimalText.natText n ≠ [] := Nat.toDigits_ne_nil

/-- The digits of a number are scanned as that number. -/
theorem scanNumber_natText (n : ℕ) {rest : List Char} (hrest : Stops Char.isDigit rest) :
    scanNumber (DecimalText.natText n ++ rest) = (some (false, n), rest) := by
  have hdigits : ∀ c ∈ DecimalText.natText n, c.isDigit = true := fun c => isDigit_of_mem_natText
  have hbody : (match DecimalText.natText n ++ rest with
      | '-' :: t => (true, t)
      | '+' :: t => (false, t)
      | t => (false, t)) = (false, DecimalText.natText n ++ rest) := by
    obtain ⟨c, t, hct⟩ := List.exists_cons_of_ne_nil (natText_ne_nil n)
    have hc : c.isDigit = true := hdigits c (hct ▸ List.mem_cons_self)
    rw [hct, List.cons_append]
    split
    next hsign => cases hsign; simp [Char.isDigit] at hc
    next hsign => cases hsign; simp [Char.isDigit] at hc
    next => rfl
  simp only [scanNumber, hbody, takeWhile_append hdigits hrest, dropWhile_append hdigits hrest]
  rw [if_neg (natText_ne_nil n), DecimalText.natText, Nat.ofDigitChars_ten_toDigits]

theorem readNumber_column {α : Type} (convert : Option (Bool × ℕ) → α × Bool) {pad n : ℕ}
    {rest : List Char} {old value : α} (hvalue : convert (some (false, n)) = (value, true))
    (hrest : Stops Char.isDigit rest) :
    readNumber convert { rest := column pad (DecimalText.natText n) ++ rest } old =
      (value, { rest := rest }) := by
  have hword : ∀ c ∈ DecimalText.natText n, isSpace c = false :=
    fun c hc => isSpace_of_isDigit (isDigit_of_mem_natText hc)
  have htext : DecimalText.natText n ++ rest ≠ [] :=
    fun h => natText_ne_nil n (List.append_eq_nil_iff.1 h).1
  simp only [readNumber, skip_column (natText_ne_nil n) hword, scanNumber_natText n hrest, hvalue]
  rw [if_neg Bool.false_ne_true, if_neg htext]
  rfl

theorem readUInt64_column {pad : ℕ} {n old : UInt64} {rest : List Char}
    (hrest : Stops Char.isDigit rest) :
    readNumber convertUInt64 { rest := column pad (DecimalText.natText n.toNat) ++ rest } old =
      (n, { rest := rest }) := by
  have hconvert : convertUInt64 (some (false, n.toNat)) = (n, true) := by
    rw [convertUInt64, if_pos n.toNat_lt]
    simp
  exact readNumber_column convertUInt64 hconvert hrest

theorem readInt_column (pad : ℕ) (old : ℤ) {n : ℕ} {rest : List Char} (hn : n < 2 ^ 31)
    (hrest : Stops Char.isDigit rest) :
    readNumber convertInt { rest := column pad (DecimalText.natText n) ++ rest } old =
      ((n : ℤ), { rest := rest }) := by
  have hconvert : convertInt (some (false, n)) = ((n : ℤ), true) := by rw [convertInt, if_pos hn]
  exact readNumber_column convertInt hconvert hrest

end InputStream
