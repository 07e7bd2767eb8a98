import MonitorSystem.Library.CivilCalendar
import MonitorSystem.Manager.ClusterStatistics

/-!
# Timestamps and the database

A timestamp is written as local time, by `HostManager` and in `FormatTime`, and `ParseTime` reads it
with a `std::tm` of zeros, in which `tm_isdst` says that the time is standard time.  So what was
written while daylight saving time is in force is read as an instant an hour later, and a server
that has just reported has a negative age.  `timestamp_survives_iff` says when a timestamp is read
back as it was written.
-/

namespace MonitorSystem

open CivilCalendar (dayNumber ofSeconds seconds yearStart)
open ClockText (Tm clockFormat getTime strftime)
open QueryManager (formatTime)

/-- A local time zone, as the C library has it. -/
structure Zone where
  /-- the offset from UTC in seconds at an instant -/
  offset : ℤ → ℤ
  /-- daylight saving time is in force at an instant -/
  isDst : ℤ → Bool
  /-- the offset with which `mktime` reads a local time when `tm_isdst` is 0 -/
  standard : ℤ → ℤ
  /-- offsets are less than two days -/
  offset_mem : ∀ t, -172800 < offset t ∧ offset t < 172800
  standard_mem : ∀ s, -172800 < standard s ∧ standard s < 172800
  /-- a local time that is a standard time, and the local time of one instant only, is read as it -/
  standard_eq : ∀ t, isDst t = false → (∀ u, u + offset u = t + offset t → u = t) →
    standard (t + offset t) = offset t

/-- `std::tm tm = {}`. -/
def zeroTm : Tm := ⟨1900, 1, 0, 0, 0, 0⟩

namespace Zone

variable (zone : Zone)

/-- `localtime_r`. -/
def localtime (t : ℤ) : Tm := ofSeconds (t + zone.offset t)

/-- `mktime`, when `tm_isdst` is 0. -/
def mktime (tm : Tm) : ℤ := seconds tm - zone.standard (seconds tm)

/-- `ParseTime`. -/
def parseTime (str : List Char) : ℤ :=
  zone.mktime (getTime clockFormat zeroTm str) * 1000000000

/-- MySQL and the C library in this zone. -/
def mysql {F : Type} (db : Mysql F) : Mysql F :=
  { db with
    localtime := zone.localtime
    parseTime := fun tm => zone.parseTime (strftime tm) }

/-- No other instant has the same local time. -/
def Unrepeated (t : ℤ) : Prop := ∀ u, u + zone.offset u = t + zone.offset t → u = t

/-- The offset that is in force is the one of standard time. -/
def StandardAt (t : ℤ) : Prop := zone.standard (t + zone.offset t) = zone.offset t

/-- The timestamp `t`, in nanoseconds, is read back in whole seconds, and a row that is written at
the time `t` has the age 0 then. -/
structure Survives (t : ℕ) : Prop where
  parse_format : zone.parseTime (formatTime zone.localtime t) =
    (t : ℤ).tdiv 1000000000 * 1000000000
  age_eq : ∀ (db : Mysql ℚ) (row : SqlRow ℚ),
    row.timestamp = zone.localtime ((t : ℤ).tdiv 1000000000) →
    (scoreSummary (zone.mysql db) t (row.fetch Mysql.scoreColumns)).age t = 0

/-! ### Reading a timestamp -/

variable {zone}

/-- Years since 1970 have at least four digits, whatever the zone. -/
theorem year_localtime_nonneg {t : ℤ} (ht : 0 ≤ t) : 0 ≤ (zone.localtime t).year := by
  by_contra hneg
  have hyear : (zone.localtime t).year ≤ -1 := by omega
  rw [localtime, CivilCalendar.year_ofSeconds_le_iff] at hyear
  have hstart : yearStart (-1 + 1) = -719528 := by decide
  have hoffset := zone.offset_mem t
  omega

/-- A year of four digits is read, and the time is shifted by what the offset in force differs from
that of standard time. -/
theorem mktime_getTime {t : ℤ} (ht : 0 ≤ t) (hyear : (zone.localtime t).year ≤ 9999) :
    zone.mktime (getTime clockFormat zeroTm (strftime (zone.localtime t))) =
      t + (zone.offset t - zone.standard (t + zone.offset t)) := by
  have hrange : (zone.localtime t).InRange := CivilCalendar.inRange_ofSeconds _
  rw [ClockText.getTime_strftime hrange (year_localtime_nonneg ht) hyear, mktime, localtime,
    CivilCalendar.seconds_ofSeconds]
  ring

/-- A longer year is read as one long before. -/
theorem mktime_getTime_lt {t : ℤ} (hyear : 9999 < (zone.localtime t).year) :
    zone.mktime (getTime clockFormat zeroTm (strftime (zone.localtime t))) < t := by
  obtain ⟨y, hy, hget⟩ := ClockText.getTime_strftime_of_long
    (Int.add_one_le_iff.2 hyear) (by decide : zeroTm.year ≤ 9999)
  have hlate : ¬ t + zone.offset t < yearStart (9999 + 1) * 86400 := by
    rw [← CivilCalendar.year_ofSeconds_le_iff]
    exact not_le.2 hyear
  have hread : zone.mktime { zeroTm with year := y } =
      (yearStart y - 1) * 86400 - zone.standard ((yearStart y - 1) * 86400) := by
    simp [mktime, seconds, zeroTm, dayNumber]
  have hmono : yearStart y ≤ yearStart 9999 := CivilCalendar.yearStart_strictMono.monotone hy
  have hbefore : yearStart 9999 = 2932532 := by decide
  have hafter : yearStart (9999 + 1) = 2932897 := by decide
  have hoffset := zone.offset_mem t
  have hstandard := zone.standard_mem ((yearStart y - 1) * 86400)
  rw [hget, hread]
  omega

theorem parse_format_iff (t : ℕ) : zone.parseTime (formatTime zone.localtime t) =
      (t : ℤ).tdiv 1000000000 * 1000000000 ↔
    zone.StandardAt ((t : ℤ).tdiv 1000000000) ∧
      (zone.localtime ((t : ℤ).tdiv 1000000000)).year ≤ 9999 := by
  have hsec : 0 ≤ (t : ℤ).tdiv 1000000000 := Int.tdiv_nonneg (Int.natCast_nonneg t) (by decide)
  rw [parseTime, formatTime, mul_left_inj' (by decide)]
  by_cases hyear : (zone.localtime ((t : ℤ).tdiv 1000000000)).year ≤ 9999
  · rw [mktime_getTime hsec hyear, StandardAt]
    constructor
    · intro hsame
      exact ⟨by omega, hyear⟩
    · rintro ⟨hsame, -⟩
      omega
  · have hlt := mktime_getTime_lt (not_le.1 hyear)
    exact ⟨fun hsame => absurd hsame hlt.ne, fun h => absurd h.2 hyear⟩

theorem survives_iff (t : ℕ) : zone.Survives t ↔
    zone.StandardAt ((t : ℤ).tdiv 1000000000) ∧
      (zone.localtime ((t : ℤ).tdiv 1000000000)).year ≤ 9999 := by
  rw [← parse_format_iff]
  refine ⟨fun h => h.parse_format, fun h => ⟨h, fun db row hrow => ?_⟩⟩
  have hlast : (scoreSummary (zone.mysql db) t (row.fetch Mysql.scoreColumns)).lastUpdate =
      zone.parseTime (strftime row.timestamp) := rfl
  rw [ServerScoreSummary.age, hlast, hrow]
  rw [formatTime] at h
  have hnonneg : (0 : ℤ) ≤ t := Int.natCast_nonneg t
  rw [h, Int.tdiv_eq_ediv_of_nonneg hnonneg]
  exact Int.tdiv_eq_zero_of_lt (by omega) (by omega)

end Zone

/-- **When timestamps survive the database.**  For every zone and every time since 1970: the
timestamp is read back in whole seconds, and the age of a row that is written now is 0, if and only
if the offset in force is the one of standard time and the local year has four digits.  The offset
is the one of standard time when daylight saving time is not in force and the local time is not
repeated. -/
theorem timestamp_survives_iff (zone : Zone) (t : ℕ) :
    (zone.Survives t ↔ zone.StandardAt ((t : ℤ).tdiv 1000000000) ∧
        (zone.localtime ((t : ℤ).tdiv 1000000000)).year ≤ 9999) ∧
      (zone.isDst ((t : ℤ).tdiv 1000000000) = false →
        zone.Unrepeated ((t : ℤ).tdiv 1000000000) →
        zone.StandardAt ((t : ℤ).tdiv 1000000000)) :=
  ⟨zone.survives_iff t, zone.standard_eq _⟩

/-- Greenwich, an hour ahead in the summer of 1970. -/
def summerTime : Zone where
  offset t := if 7776000 ≤ t ∧ t < 23328000 then 3600 else 0
  isDst t := decide (7776000 ≤ t ∧ t < 23328000)
  standard _ := 0
  offset_mem t := by split_ifs <;> omega
  standard_mem _ := by omega
  standard_eq t hdst _ := (if_neg (of_decide_eq_false hdst)).symm

/-- What is written on 1 July 1970 is read an hour later. -/
theorem summer_timestamp_shifted :
    ¬ ∀ (zone : Zone) (t : ℕ), zone.Unrepeated ((t : ℤ).tdiv 1000000000) →
      (zone.localtime ((t : ℤ).tdiv 1000000000)).year ≤ 9999 → zone.Survives t := by
  intro hclaim
  have hsec : ((15638400000000000 : ℕ) : ℤ).tdiv 1000000000 = 15638400 := by decide
  have hsurvives := hclaim summerTime 15638400000000000 (by
    intro u hu
    simp only [summerTime, hsec] at hu
    rw [hsec]
    split_ifs at hu <;> omega) (by decide)
  have hstandard := ((Zone.survives_iff _).1 hsurvives).1
  revert hstandard
  rw [Zone.StandardAt]
  decide

end MonitorSystem
