import MonitorSystem.Library.ClockText

/-!
# The civil calendar

Days and seconds are counted from the first day of 1970.  A count is converted to a date of the
Gregorian calendar, extended to all years, and to broken-down time (`ofSeconds`), and back
(`seconds`); `seconds_ofSeconds` says that nothing is lost, and the order is kept.
-/

namespace CivilCalendar

open ClockText (Tm)

/-! ### Years -/

/-- A year with 366 days. -/
def IsLeap (y : ℤ) : Prop := y % 4 = 0 ∧ (y % 100 ≠ 0 ∨ y % 400 = 0)

instance (y : ℤ) : Decidable (IsLeap y) := inferInstanceAs (Decidable (_ ∧ _))

def yearLength (y : ℤ) : ℕ := if IsLeap y then 366 else 365

/-- The leap years up to a year, from the year 1 on. -/
def leapsUpTo (y : ℤ) : ℤ := y / 4 - y / 100 + y / 400

/-- The first day of a year. -/
def yearStart (y : ℤ) : ℤ := 365 * (y - 1970) + (leapsUpTo (y - 1) - leapsUpTo 1969)

theorem yearStart_succ (y : ℤ) : yearStart (y + 1) = yearStart y + yearLength y := by
  simp only [yearStart, leapsUpTo, yearLength]
  split_ifs with hleap <;> rw [IsLeap] at hleap <;> push_cast <;> omega

theorem yearStart_strictMono : StrictMono yearStart := by
  refine strictMono_int_of_lt_succ fun y => ?_
  rw [yearStart_succ, yearLength]
  split_ifs <;> omega

/-- The year in which a day lies, by cycles of 400, 100, 4 and 1 years. -/
def yearOf (day : ℤ) : ℤ :=
  let n := day + 719162
  let inCycle := n % 146097
  let centuries := min (inCycle / 36524) 3
  let inCentury := inCycle - 36524 * centuries
  let years := min (inCentury % 1461 / 365) 3
  400 * (n / 146097) + 100 * centuries + 4 * (inCentury / 1461) + years + 1

/-- The first day of a year, by cycles. -/
theorem yearStart_cycles {c q f o : ℤ} (hq : 0 ≤ q ∧ q ≤ 3) (hf : 0 ≤ f ∧ f ≤ 24)
    (ho : 0 ≤ o ∧ o ≤ 3) : yearStart (400 * c + 100 * q + 4 * f + o + 1) =
      146097 * c + 36524 * q + 1461 * f + 365 * o - 719162 := by
  simp only [yearStart, leapsUpTo]
  omega

theorem yearStart_yearOf (day : ℤ) :
    yearStart (yearOf day) ≤ day ∧ day < yearStart (yearOf day + 1) := by
  obtain ⟨c, r, hr, hday⟩ : ∃ c r, (0 ≤ r ∧ r < 146097) ∧ day + 719162 = 146097 * c + r :=
    ⟨(day + 719162) / 146097, (day + 719162) % 146097, by omega, by omega⟩
  have hc : (day + 719162) / 146097 = c := by omega
  have hmod : (day + 719162) % 146097 = r := by omega
  simp only [yearOf, hc, hmod]
  generalize hq : min (r / 36524) 3 = q
  generalize hk : r - 36524 * q = k
  generalize hf : k / 1461 = f
  generalize ho : min (k % 1461 / 365) 3 = o
  have hq3 : 0 ≤ q ∧ q ≤ 3 := by omega
  have hf24 : 0 ≤ f ∧ f ≤ 24 := by omega
  have ho3 : 0 ≤ o ∧ o ≤ 3 := by omega
  refine ⟨by rw [yearStart_cycles hq3 hf24 ho3]; omega, ?_⟩
  -- the next year lies in the same cycle of 4, of 100 or of 400 years, or begins a new one
  have hnext : ∀ c' q' f' o' : ℤ, 0 ≤ q' ∧ q' ≤ 3 → 0 ≤ f' ∧ f' ≤ 24 → 0 ≤ o' ∧ o' ≤ 3 →
      400 * c + 100 * q + 4 * f + o + 1 = 400 * c' + 100 * q' + 4 * f' + o' →
      day + 719162 < 146097 * c' + 36524 * q' + 1461 * f' + 365 * o' →
      day < yearStart (400 * c + 100 * q + 4 * f + o + 1 + 1) := by
    intro c' q' f' o' hq' hf' ho' hyear hlt
    rw [hyear, yearStart_cycles hq' hf' ho']
    omega
  by_cases hlast : o < 3
  · exact hnext c q f (o + 1) hq3 hf24 (by omega) (by ring) (by omega)
  by_cases hcentury : f < 24
  · exact hnext c q (f + 1) 0 hq3 (by omega) (by omega) (by omega) (by omega)
  by_cases hcycle : q < 3
  · exact hnext c (q + 1) 0 0 (by omega) (by omega) (by omega) (by omega) (by omega)
  · exact hnext (c + 1) 0 0 0 (by omega) (by omega) (by omega) (by omega) (by omega)

/-- The year of a day is the only one whose days include it. -/
theorem yearOf_le_iff {day y : ℤ} : yearOf day ≤ y ↔ day < yearStart (y + 1) := by
  obtain ⟨hstart, hend⟩ := yearStart_yearOf day
  constructor
  · intro hle
    exact hend.trans_le (yearStart_strictMono.monotone (by omega))
  · intro hlt
    have hyear := yearStart_strictMono.lt_iff_lt.1 (hstart.trans_lt hlt)
    omega

theorem yearOf_mono : Monotone yearOf := fun day day' h => by
  have hend := (yearStart_yearOf day').2
  exact yearOf_le_iff.2 (by omega)

/-! ### Months -/

def monthLengths (leap : Bool) : List ℕ :=
  [31, if leap then 29 else 28, 31, 30, 31, 30, 31, 31, 30, 31, 30, 31]

/-- The span, of some that follow each other, in which a number lies, and how far it lies in it. -/
def locate : List ℕ → ℕ → ℕ × ℕ
  | [], n => (0, n)
  | l :: ls, n => if n < l then (0, n) else ((locate ls (n - l)).1 + 1, (locate ls (n - l)).2)

theorem locate_spec {spans : List ℕ} {n : ℕ} (hn : n < spans.sum) :
    ∃ l, spans[(locate spans n).1]? = some l ∧ (locate spans n).2 < l ∧
      (spans.take (locate spans n).1).sum + (locate spans n).2 = n := by
  induction spans generalizing n with
  | nil => exact absurd hn (Nat.not_lt_zero n)
  | cons l ls ih =>
    rw [locate]
    split_ifs with hlt
    · exact ⟨l, rfl, hlt, Nat.zero_add n⟩
    · rw [List.sum_cons] at hn
      obtain ⟨m, hm, hlt', hsum⟩ := ih (n := n - l) (by omega)
      refine ⟨m, by simpa using hm, hlt', ?_⟩
      rw [List.take_succ_cons, List.sum_cons]
      omega

/-- A greater number lies in a later span, or farther in the same one. -/
theorem locate_lt (spans : List ℕ) {n n' : ℕ} (h : n < n') :
    (locate spans n).1 < (locate spans n').1 ∨
      (locate spans n).1 = (locate spans n').1 ∧ (locate spans n).2 < (locate spans n').2 := by
  induction spans generalizing n n' with
  | nil => exact .inr ⟨rfl, h⟩
  | cons l ls ih =>
    rw [locate, locate]
    split_ifs with hn hn'
    · exact .inr ⟨rfl, h⟩
    · exact .inl (Nat.succ_pos _)
    · omega
    · have := ih (show n - l < n' - l by omega)
      dsimp only
      omega

/-- The number of a day; a day 0 is the last one of the month before. -/
def dayNumber (year : ℤ) (month day : ℕ) : ℤ :=
  yearStart year + ((monthLengths (IsLeap year)).take (month - 1)).sum + day - 1

/-- The month and the day of the month of a day of a year. -/
def monthAndDay (year day : ℤ) : ℕ × ℕ :=
  let place := locate (monthLengths (IsLeap year)) (day - yearStart year).toNat
  (place.1 + 1, place.2 + 1)

theorem sum_monthLengths (year : ℤ) :
    (monthLengths (IsLeap year)).sum = yearLength year := by
  rw [yearLength]
  split_ifs with hleap <;> simp [hleap, monthLengths]

theorem le_of_mem_monthLengths {leap : Bool} {l : ℕ} (hl : l ∈ monthLengths leap) : l ≤ 31 := by
  revert l
  cases leap <;> decide

/-- The date of a day has its number. -/
theorem dayNumber_monthAndDay (day : ℤ) :
    dayNumber (yearOf day) (monthAndDay (yearOf day) day).1 (monthAndDay (yearOf day) day).2 = day ∧
      (1 ≤ (monthAndDay (yearOf day) day).1 ∧ (monthAndDay (yearOf day) day).1 ≤ 12) ∧
      (1 ≤ (monthAndDay (yearOf day) day).2 ∧ (monthAndDay (yearOf day) day).2 ≤ 31) := by
  obtain ⟨hstart, hend⟩ := yearStart_yearOf day
  rw [yearStart_succ, ← sum_monthLengths] at hend
  have hlt : (day - yearStart (yearOf day)).toNat < (monthLengths (IsLeap (yearOf day))).sum := by
    omega
  obtain ⟨l, hl, hlt, hsum⟩ := locate_spec hlt
  obtain ⟨hindex, -⟩ := List.getElem?_eq_some_iff.1 hl
  have hmonth : (monthLengths (IsLeap (yearOf day))).length = 12 := rfl
  have hday := le_of_mem_monthLengths (List.mem_of_getElem? hl)
  simp only [monthAndDay, dayNumber, Nat.add_sub_cancel]
  generalize locate _ _ = place at *
  exact ⟨by omega, by omega, by omega⟩

/-- Within a year, a later day has a later date. -/
theorem monthAndDay_lt {year day day' : ℤ} (hstart : yearStart year ≤ day) (h : day < day') :
    toLex (monthAndDay year day) < toLex (monthAndDay year day') := by
  have hlocate := locate_lt (monthLengths (IsLeap year))
    (show (day - yearStart year).toNat < (day' - yearStart year).toNat by omega)
  rw [Prod.Lex.toLex_lt_toLex]
  simp only [monthAndDay]
  omega

/-! ### Broken-down time -/

/-- The seconds that a broken-down time counts, without a zone. -/
def seconds (t : Tm) : ℤ :=
  dayNumber t.year t.month t.day * 86400 + t.hour * 3600 + t.minute * 60 + t.second

/-- The broken-down time of a number of seconds, without a zone. -/
def ofSeconds (s : ℤ) : Tm :=
  let year := yearOf (s / 86400)
  let date := monthAndDay year (s / 86400)
  let rest := (s % 86400).toNat
  ⟨year, date.1, date.2, rest / 3600, rest / 60 % 60, rest % 60⟩

/-- **The calendar loses nothing.** -/
theorem seconds_ofSeconds (s : ℤ) : seconds (ofSeconds s) = s := by
  simp only [seconds, ofSeconds, (dayNumber_monthAndDay (s / 86400)).1]
  push_cast
  omega

example : (ofSeconds 951782400).month = 2 ∧ (ofSeconds 951782400).day = 29 := by decide

/-- Later seconds have later broken-down times. -/
theorem ofSeconds_strictMono : StrictMono ofSeconds := by
  intro s s' h
  show (ofSeconds s).fields < (ofSeconds s').fields
  simp only [Tm.fields, Prod.Lex.toLex_lt_toLex, ofSeconds]
  rcases (Int.ediv_le_ediv (by decide : (0 : ℤ) < 86400) h.le).eq_or_lt with hday | hday
  · rw [hday]
    omega
  · rcases (yearOf_mono hday.le).lt_or_eq with hyear | hyear
    · exact .inl hyear
    · have hdate := monthAndDay_lt (yearStart_yearOf (s / 86400)).1 hday
      rw [Prod.Lex.toLex_lt_toLex] at hdate
      rw [← hyear]
      omega

/-- The date and the time of day are in range. -/
theorem inRange_ofSeconds (s : ℤ) : (ofSeconds s).InRange := by
  obtain ⟨-, hmonth, hday⟩ := dayNumber_monthAndDay (s / 86400)
  refine ⟨hmonth, hday, ?_, ?_, ?_⟩ <;> simp only [ofSeconds] <;> omega

theorem year_ofSeconds_le_iff {s y : ℤ} :
    (ofSeconds s).year ≤ y ↔ s < yearStart (y + 1) * 86400 := by
  show yearOf (s / 86400) ≤ y ↔ _
  rw [yearOf_le_iff]
  omega

end CivilCalendar
