import Mathlib.Data.List.TakeWhile
import MonitorSystem.Library.InputStream

/-!
# Broken-down time

The fields of `std::tm`, the order of two such times, in which a database compares them, and the
format `"%Y-%m-%d %H:%M:%S"` as `strftime` writes it and as `std::get_time` reads it.  Years of four
digits are read as they were written (`getTime_strftime`), longer ones are not.
-/

namespace ClockText

/-- `std::tm`, with the full year and with January as month 1. -/
structure Tm where
  year : ℤ
  month : ℕ
  day : ℕ
  hour : ℕ
  minute : ℕ
  second : ℕ

/-- The fields, the first of them the most significant. -/
def Tm.fields (t : Tm) : ℤ ×ₗ ℕ ×ₗ ℕ ×ₗ ℕ ×ₗ ℕ ×ₗ ℕ :=
  toLex (t.year, toLex (t.month, toLex (t.day, toLex (t.hour, toLex (t.minute, t.second)))))

theorem Tm.fields_injective : Function.Injective Tm.fields := by
  rintro ⟨_, _, _, _, _, _⟩ ⟨_, _, _, _, _, _⟩ h
  simpa [Tm.fields] using h

instance : LinearOrder Tm := LinearOrder.lift' Tm.fields Tm.fields_injective

/-- Two digits at least. -/
def twoDigits (n : ℕ) : List Char :=
  (if n < 10 then ['0'] else []) ++ DecimalText.natText n

/-- The text of `"%Y-%m-%d %H:%M:%S"`. -/
def strftime (t : Tm) : List Char :=
  DecimalText.intText t.year ++ '-' :: twoDigits t.month ++ '-' :: twoDigits t.day ++
    ' ' :: twoDigits t.hour ++ ':' :: twoDigits t.minute ++ ':' :: twoDigits t.second

/-- The characters of a printed time. -/
def IsClockChar (c : Char) : Prop := DecimalText.IsNumeric c ∨ c = ' ' ∨ c = ':'

theorem isNumeric_twoDigits (n : ℕ) : DecimalText.AllNumeric (twoDigits n) := by
  refine DecimalText.allNumeric_append.2 ⟨?_, DecimalText.isNumeric_natText n⟩
  split_ifs <;> simp [DecimalText.AllNumeric, DecimalText.IsNumeric, Char.isDigit]

theorem isClockChar_strftime (t : Tm) : ∀ c ∈ strftime t, IsClockChar c := by
  have hyear : ∀ c ∈ DecimalText.intText t.year, IsClockChar c :=
    fun c hc => .inl (DecimalText.isNumeric_intText t.year c hc)
  have htwo : ∀ n, ∀ c ∈ twoDigits n, IsClockChar c :=
    fun n c hc => .inl (isNumeric_twoDigits n c hc)
  have hdash : IsClockChar '-' := .inl (.inr (.inl rfl))
  intro c hc
  simp only [strftime, List.mem_append, List.mem_cons] at hc
  rcases hc with ((((hc | rfl | hc) | rfl | hc) | rfl | hc) | rfl | hc) | rfl | hc
  · exact hyear c hc
  · exact hdash
  · exact htwo _ c hc
  · exact hdash
  · exact htwo _ c hc
  · exact .inr (.inl rfl)
  · exact htwo _ c hc
  · exact .inr (.inr rfl)
  · exact htwo _ c hc
  · exact .inr (.inr rfl)
  · exact htwo _ c hc

/-! ### Reading -/

open InputStream (Stops)

/-- A directive of a format. -/
inductive Directive
  | year
  | month
  | day
  | hour
  | minute
  | second
  | space
  | char (c : Char)

/-- The format `"%Y-%m-%d %H:%M:%S"`. -/
def clockFormat : List Directive :=
  [.year, .char '-', .month, .char '-', .day, .space, .hour, .char ':', .minute, .char ':', .second]

/-- A number of at most `width` digits between two bounds. -/
def getNumber (width low high : ℕ) (text : List Char) : Option (ℕ × List Char) :=
  let digits := (text.take width).takeWhile Char.isDigit
  let n := Nat.ofDigitChars 10 digits 0
  if digits ≠ [] ∧ low ≤ n ∧ n ≤ high then some (n, text.drop digits.length) else none

/-- What a directive reads, and the text behind it. -/
def Directive.get (t : Tm) (text : List Char) : Directive → Option (Tm × List Char)
  | .year => (getNumber 4 0 9999 text).map fun r => ({ t with year := r.1 }, r.2)
  | .month => (getNumber 2 1 12 text).map fun r => ({ t with month := r.1 }, r.2)
  | .day => (getNumber 2 1 31 text).map fun r => ({ t with day := r.1 }, r.2)
  | .hour => (getNumber 2 0 23 text).map fun r => ({ t with hour := r.1 }, r.2)
  | .minute => (getNumber 2 0 59 text).map fun r => ({ t with minute := r.1 }, r.2)
  | .second => (getNumber 2 0 60 text).map fun r => ({ t with second := r.1 }, r.2)
  | .space => some (t, text.dropWhile InputStream.isSpace)
  | .char c =>
    match text with
    | [] => none
    | d :: rest => if d = c then some (t, rest) else none

/-- `get_time`; the fields before a failure stay as they were read. -/
def getTime : List Directive → Tm → List Char → Tm
  | [], t, _ => t
  | d :: ds, t, text =>
    match d.get t text with
    | none => t
    | some (t', rest) => getTime ds t' rest

/-- The fields other than the year are in range. -/
structure Tm.InRange (t : Tm) : Prop where
  month : 1 ≤ t.month ∧ t.month ≤ 12
  day : 1 ≤ t.day ∧ t.day ≤ 31
  hour : t.hour ≤ 23
  minute : t.minute ≤ 59
  second : t.second ≤ 59

/-- Digits that fit are read up to what follows them. -/
theorem getNumber_append {width low high : ℕ} {digits rest : List Char}
    (hdigits : ∀ c ∈ digits, c.isDigit = true) (hne : digits ≠ []) (hwidth : digits.length ≤ width)
    (hrest : Stops Char.isDigit rest) (hlow : low ≤ Nat.ofDigitChars 10 digits 0)
    (hhigh : Nat.ofDigitChars 10 digits 0 ≤ high) :
    getNumber width low high (digits ++ rest) = some (Nat.ofDigitChars 10 digits 0, rest) := by
  have htake : ((digits ++ rest).take width).takeWhile Char.isDigit = digits := by
    rw [List.take_append, List.take_of_length_le hwidth]
    refine InputStream.takeWhile_append hdigits fun c hc => ?_
    rw [List.head?_take] at hc
    split_ifs at hc
    exact hrest c hc
  simp only [getNumber, htake]
  rw [if_pos ⟨hne, hlow, hhigh⟩, List.drop_left]

theorem isDigit_of_mem_twoDigits {n : ℕ} {c : Char} (hc : c ∈ twoDigits n) : c.isDigit = true := by
  rw [twoDigits, List.mem_append] at hc
  rcases hc with hzero | hc
  · split_ifs at hzero
    · rw [List.mem_singleton.1 hzero]
      rfl
    · cases hzero
  · exact InputStream.isDigit_of_mem_natText hc

theorem twoDigits_ne_nil (n : ℕ) : twoDigits n ≠ [] := by
  simp [twoDigits, InputStream.natText_ne_nil]

theorem ofDigitChars_twoDigits (n : ℕ) : Nat.ofDigitChars 10 (twoDigits n) 0 = n := by
  rw [twoDigits, Nat.ofDigitChars_append]
  split_ifs <;> exact Nat.ofDigitChars_ten_toDigits

theorem length_twoDigits_le {n : ℕ} (hn : n < 100) : (twoDigits n).length ≤ 2 := by
  rw [twoDigits, List.length_append]
  split_ifs with hsmall
  · have hone : (DecimalText.natText n).length ≤ 1 :=
      (Nat.length_toDigits_le_iff (by decide) one_pos).2 hsmall
    exact Nat.add_le_add_left hone 1
  · rw [List.length_nil, Nat.zero_add]
    exact (Nat.length_toDigits_le_iff (by decide) two_pos).2 hn

/-- Two digits are read as they were written. -/
theorem getNumber_twoDigits {low high n : ℕ} {rest : List Char} (hlow : low ≤ n) (hhigh : n ≤ high)
    (hn : n < 100) (hrest : Stops Char.isDigit rest) :
    getNumber 2 low high (twoDigits n ++ rest) = some (n, rest) := by
  have hvalue := ofDigitChars_twoDigits n
  rw [getNumber_append (fun c => isDigit_of_mem_twoDigits) (twoDigits_ne_nil n)
    (length_twoDigits_le hn) hrest (hvalue.symm ▸ hlow) (hvalue.symm ▸ hhigh), hvalue]

theorem getNumber_year {y : ℕ} {rest : List Char} (hy : y ≤ 9999)
    (hrest : Stops Char.isDigit rest) :
    getNumber 4 0 9999 (DecimalText.natText y ++ rest) = some (y, rest) := by
  have hvalue : Nat.ofDigitChars 10 (DecimalText.natText y) 0 = y := Nat.ofDigitChars_ten_toDigits
  have hwidth : (DecimalText.natText y).length ≤ 4 :=
    (Nat.length_toDigits_le_iff (by decide) (by decide)).2 (by omega)
  rw [getNumber_append (fun c => InputStream.isDigit_of_mem_natText) (InputStream.natText_ne_nil y)
    hwidth hrest (Nat.zero_le _) (hvalue.symm ▸ hy), hvalue]

theorem intText_natCast (n : ℕ) : DecimalText.intText n = DecimalText.natText n := by
  rw [DecimalText.intText, if_neg (by omega), Int.natAbs_natCast]

/-- **Reading what was written.**  A time with a year of at most four digits is read back. -/
theorem getTime_strftime {t : Tm} (ht : t.InRange) (hyear : 0 ≤ t.year) (hyear' : t.year ≤ 9999)
    (start : Tm) : getTime clockFormat start (strftime t) = t := by
  obtain ⟨y, hy⟩ := Int.eq_ofNat_of_zero_le hyear
  obtain ⟨hmonth, hday, hhour, hminute, hsecond⟩ := ht
  have hdash : ∀ text, Stops Char.isDigit ('-' :: text) := fun _ => InputStream.stops_cons rfl
  have hcolon : ∀ text, Stops Char.isDigit (':' :: text) := fun _ => InputStream.stops_cons rfl
  have hspace : ∀ text, Stops Char.isDigit (' ' :: text) := fun _ => InputStream.stops_cons rfl
  have hend : Stops Char.isDigit [] := fun c hc => nomatch hc
  have hskip : ∀ rest, (' ' :: (twoDigits t.hour ++ rest)).dropWhile InputStream.isSpace =
      twoDigits t.hour ++ rest := by
    intro rest
    show (InputStream.column 1 (twoDigits t.hour) ++ rest).dropWhile InputStream.isSpace = _
    exact InputStream.skip_column (twoDigits_ne_nil _)
      fun c hc => InputStream.isSpace_of_isDigit (isDigit_of_mem_twoDigits hc)
  have hlast := getNumber_twoDigits (Nat.zero_le _) (hsecond.trans (by decide : 59 ≤ 60))
    (by omega) hend
  rw [List.append_nil] at hlast
  simp only [strftime, hy, intText_natCast, List.append_assoc,
    List.cons_append, clockFormat, getTime, Directive.get, Option.map_some, if_true,
    getNumber_year (by omega : y ≤ 9999) (hdash _),
    getNumber_twoDigits hmonth.1 hmonth.2 (by omega) (hdash _),
    getNumber_twoDigits hday.1 hday.2 (by omega) (hspace _), hskip,
    getNumber_twoDigits (Nat.zero_le _) hhour (by omega) (hcolon _),
    getNumber_twoDigits (Nat.zero_le _) hminute (by omega) (hcolon _), hlast]
  rw [← hy]

theorem le_of_getNumber {width low high n : ℕ} {text rest : List Char}
    (h : getNumber width low high text = some (n, rest)) :
    n ≤ high ∧ rest = text.drop ((text.take width).takeWhile Char.isDigit).length := by
  simp only [getNumber] at h
  split_ifs at h with hok
  obtain ⟨rfl, rfl⟩ := Prod.mk.inj (Option.some.inj h)
  exact ⟨hok.2.2, rfl⟩

/-- Of a longer year four digits are read, and nothing behind them. -/
theorem getTime_strftime_of_long {t : Tm} (hyear : 10000 ≤ t.year) {start : Tm}
    (hstart : start.year ≤ 9999) :
    ∃ y ≤ 9999, getTime clockFormat start (strftime t) = { start with year := y } := by
  obtain ⟨n, hn⟩ := Int.eq_ofNat_of_zero_le (by omega : 0 ≤ t.year)
  obtain ⟨rest, htext⟩ : ∃ rest, strftime t = DecimalText.natText n ++ rest := by
    simp only [strftime, hn, intText_natCast, List.append_assoc]
    exact ⟨_, rfl⟩
  have hlength : 4 < (DecimalText.natText n).length := by
    by_contra hshort
    have hlt := (Nat.length_toDigits_le_iff (by decide) (by decide)).1 (not_lt.1 hshort)
    omega
  have hdigit : ∀ c ∈ DecimalText.natText n, c.isDigit = true :=
    fun c => InputStream.isDigit_of_mem_natText
  have hfour : ((strftime t).take 4).takeWhile Char.isDigit = (DecimalText.natText n).take 4 := by
    rw [htext, List.take_append_of_le_length hlength.le]
    exact List.takeWhile_eq_self_iff.2 fun c hc => hdigit c (List.mem_of_mem_take hc)
  rw [clockFormat, getTime, Directive.get]
  cases hget : getNumber 4 0 9999 (strftime t) with
  | none => exact ⟨start.year, hstart, rfl⟩
  | some r =>
    obtain ⟨y, text⟩ := r
    obtain ⟨hy, hrest⟩ := le_of_getNumber hget
    -- the fifth digit stands where the format has a dash
    have hfifth : text = (DecimalText.natText n)[4] ::
        ((DecimalText.natText n).drop 5 ++ rest) := by
      rw [hrest, hfour, List.length_take, min_eq_left hlength.le, htext,
        List.drop_append_of_le_length hlength.le, List.drop_eq_getElem_cons hlength,
        List.cons_append]
    have hdash : (DecimalText.natText n)[4] ≠ '-' := by
      intro h
      have hc := hdigit _ (List.getElem_mem hlength)
      rw [h] at hc
      exact absurd hc (by decide)
    refine ⟨y, by exact_mod_cast hy, ?_⟩
    simp only [Option.map_some, getTime, Directive.get, hfifth, if_neg hdash]

end ClockText
