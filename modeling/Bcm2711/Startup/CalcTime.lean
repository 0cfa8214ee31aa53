import Bcm2711.Lib.Calendar

/-! # Calendar time

`calc_time_t` counts the seconds of a broken-down time, and `_gmtime` breaks a count down.  Both
take every fourth year for a leap year; only the days of the year itself, in `calc_time_t`, leave
centuries out.
-/

namespace Bcm2711.Startup.CalcTime

open Calendar

def SEC_PER_MIN : Nat := 60
def SEC_PER_HOUR : Nat := 60 * SEC_PER_MIN
def SEC_PER_DAY : Nat := 24 * SEC_PER_HOUR

/-- `struct tm`. -/
structure Tm where
  sec : Int
  min : Int
  hour : Int
  mday : Int
  mon : Int
  year : Int
  wday : Int
  yday : Int
deriving DecidableEq, Repr

/-- `month_sec`. -/
def monthSec : List Nat :=
  [0, 2678400, 5097600, 7776000, 10368000, 13046400, 15638400, 18316800, 20995200, 23587200,
    26265600, 28857600]

/-- `calc_time_t`; there is no count where it crashes. -/
def calcTimeT (tm : Tm) : Option Nat :=
  let year : Int := (tm.year - 70) % 2 ^ 32
  let sec : Int := (year * 365 + (year + 1) % 2 ^ 32 / 4) * SEC_PER_DAY
  if 0 ≤ tm.mon ∧ tm.mon < monthSec.length then
    let sec : Int := sec + monthSec.getD tm.mon.toNat 0
    let year : Int := (tm.year + 1900) % 2 ^ 32
    let sec : Int :=
      if 2 ≤ tm.mon ∧ year % 4 = 0 ∧ (year % 100 ≠ 0 ∨ year % 400 = 0) then sec + SEC_PER_DAY
      else sec
    let sec : Int := sec + (tm.mday - 1) * SEC_PER_DAY
    let sec : Int := sec + tm.hour * SEC_PER_HOUR
    let sec : Int := sec + tm.min * SEC_PER_MIN
    some ((sec + tm.sec) % 2 ^ 64).toNat
  else none

/-- `mdays`. -/
def mdays (isLeap : Bool) : List Nat :=
  if isLeap then [31, 29, 31, 30, 31, 30, 31, 31, 30, 31, 30, 31]
  else [31, 28, 31, 30, 31, 30, 31, 31, 30, 31, 30, 31]

/-- Whether `_gmtime` takes the year, counted from 1970, for a leap year. -/
def leapYear (year : Nat) : Bool := (year + 2) % 4 = 0

/-- `_gmtime`; a day is taken off in each round at least. -/
def gmtime (timer : Nat) : Tm :=
  let days := timer / (60 * 60 * 24)
  let secs := timer % (60 * 60 * 24)
  let (year, yday) := takeOff (fun year => 365 + (leapYear year).toNat) (days + 1) 0 days
  let (mon, rest) := takeOff (fun mon => (mdays (leapYear year)).getD mon 0) 12 0 yday
  { sec := secs % 60
    min := secs / 60 % 60
    hour := secs / 60 / 60
    mday := rest + 1
    mon := mon
    year := Int.bmod (year + 70) (2 ^ 32)
    wday := (days + 4) % 7
    yday := yday }

/-! ## Moments -/

/-- A date and time of the Gregorian calendar, up to the last year that begins within 32 bits of
seconds. -/
structure Moment extends Date gregorian where
  hour : Nat
  min : Nat
  sec : Nat
  year_ge : 1970 ≤ year
  year_le : year ≤ 2106
  hour_lt : hour < 24
  min_lt : min < 60
  sec_lt : sec < 60

/-- The seconds from the first of January 1970 on, in a calendar. -/
def Moment.seconds (rule : Rule) (m : Moment) : Nat :=
  days rule 1970 m.year m.mon m.mday * SEC_PER_DAY + m.hour * SEC_PER_HOUR + m.min * SEC_PER_MIN +
    m.sec

/-- The POSIX count. -/
def Moment.posix (m : Moment) : Nat := m.seconds gregorian

/-- A broken-down time shows a moment. -/
structure Tm.Shows (tm : Tm) (m : Moment) : Prop where
  sec : tm.sec = m.sec
  min : tm.min = m.min
  hour : tm.hour = m.hour
  mday : tm.mday = m.mday
  mon : tm.mon = m.mon
  year : tm.year = (m.year : Int) - 1900

/-- A moment is counted right, and its count is broken down to it and counted back. -/
structure Converts (m : Moment) : Prop where
  counts : ∀ tm : Tm, tm.Shows m → calcTimeT tm = some m.posix
  breaksDown : (gmtime m.posix).Shows m
  countsBack : calcTimeT (gmtime m.posix) = some m.posix

/-- Before the March of 2100. -/
def Moment.Before2100March (m : Moment) : Prop := m.year < 2100 ∨ m.year = 2100 ∧ m.mon < 2

/-! ## Counting -/

/-- `month_sec`, and the day of a leap year. -/
theorem monthSec_eq : ∀ mon < 12, ∀ isLeap : Bool,
    monthSec.getD mon 0 + (if 2 ≤ mon ∧ isLeap = true then SEC_PER_DAY else 0) =
      monthsDays isLeap mon * SEC_PER_DAY := by
  decide

variable {m : Moment} {tm : Tm}

theorem Moment.seconds_eq (rule : Rule) (m : Moment) :
    m.seconds rule =
      days rule 1970 m.year m.mon m.mday * 86400 + m.hour * 3600 + m.min * 60 + m.sec := rfl

/-- The time of day is less than a day. -/
theorem Moment.ofDay_lt (m : Moment) : m.hour * 3600 + m.min * 60 + m.sec < 86400 := by
  have hours := m.hour_lt
  have mins := m.min_lt
  have secs := m.sec_lt
  omega

/-- What `calc_time_t` counts: the years of one calendar, and the months of the other. -/
theorem calcTimeT_eq (shows : tm.Shows m) :
    calcTimeT tm = some ((yearsDays julian 1970 (m.year - 1970) +
      monthsDays (gregorian m.year) m.mon + (m.mday - 1)) * SEC_PER_DAY +
      m.hour * SEC_PER_HOUR + m.min * SEC_PER_MIN + m.sec) := by
  obtain ⟨sec, min, hour, mday, mon, year⟩ := shows
  have from70 : (tm.year - 70) % 2 ^ 32 = ((m.year - 1970 : Nat) : Int) := by
    have low := m.year_ge
    have high := m.year_le
    omega
  have from0 : (tm.year + 1900) % 2 ^ 32 = (m.year : Int) := by
    have high := m.year_le
    omega
  have inRange : 0 ≤ tm.mon ∧ tm.mon < monthSec.length := by
    have below := m.mon_lt
    have twelve : monthSec.length = 12 := rfl
    omega
  have leap : (2 ≤ tm.mon ∧ (m.year : Int) % 4 = 0 ∧
      ((m.year : Int) % 100 ≠ 0 ∨ (m.year : Int) % 400 = 0)) ↔
      2 ≤ m.mon ∧ gregorian m.year = true := by
    rw [gregorian, decide_eq_true_eq, mon]
    omega
  have months := monthSec_eq m.mon m.mon_lt (gregorian m.year)
  have place : tm.mon.toNat = m.mon := by
    rw [mon]
    exact Int.toNat_natCast m.mon
  have day : SEC_PER_DAY = 86400 := rfl
  have perHour : SEC_PER_HOUR = 3600 := rfl
  have perMin : SEC_PER_MIN = 60 := rfl
  have inYear := m.toDate.yday_lt
  have atMost := yearDays_le_366 gregorian m.year
  have first := m.mday_pos
  have last := m.year_le
  have hours := m.hour_lt
  have mins := m.min_lt
  have secs := m.sec_lt
  have wrap : ∀ count : Int, ∀ value : Nat, count = value → value < 2 ^ 64 →
      some (count % 2 ^ 64).toNat = some value := by
    intro count value same small
    rw [same, Int.emod_eq_of_lt (Int.natCast_nonneg value) (by exact_mod_cast small),
      Int.toNat_natCast]
  rw [calcTimeT, if_pos inRange, from70, from0, place, yearsDays_julian]
  simp only [leap, day, perHour, perMin] at months ⊢
  clear leap inRange
  apply wrap
  · split
    · next isLeap =>
        rw [if_pos isLeap] at months
        omega
    · next notLeap =>
        rw [if_neg notLeap] at months
        omega
  · omega

/-! ## Breaking down -/

/-- The loop over the years ends within its rounds. -/
theorem gmtime_years_end (days : Nat) :
    (takeOff (fun year => 365 + (leapYear year).toNat) (days + 1) 0 days).2 <
      365 + (leapYear
        (takeOff (fun year => 365 + (leapYear year).toNat) (days + 1) 0 days).1).toNat := by
  apply takeOff_lt (fun year => Nat.lt_add_right _ (by decide))
  exact Nat.lt_succ_self days

theorem yearSize_eq : (fun year => 365 + (leapYear year).toNat) =
    fun year => yearDays julian (1970 + year) := by
  funext year
  have same : leapYear year = julian (1970 + year) := by
    rw [leapYear, julian, decide_eq_decide]
    omega
  rw [yearDays, ← same]
  cases leapYear year <;> rfl

theorem monthSize_eq (isLeap : Bool) :
    (fun mon => (mdays isLeap).getD mon 0) = monthDays isLeap := by
  cases isLeap <;> rfl

/-- The days and the time of day of a moment. -/
theorem seconds_split (rule : Rule) (m : Moment) :
    m.seconds rule / (60 * 60 * 24) = days rule 1970 m.year m.mon m.mday ∧
      m.seconds rule % (60 * 60 * 24) = m.hour * 3600 + m.min * 60 + m.sec := by
  have ofDay := m.ofDay_lt
  rw [Moment.seconds_eq]
  constructor
  · omega
  · omega

/-- The count of a moment in the calendar of `_gmtime` is broken down to it. -/
theorem gmtime_shows (m : Moment) : (gmtime (m.seconds julian)).Shows m := by
  obtain ⟨wholeDays, ofDay⟩ := seconds_split julian m
  have low := m.year_ge
  have high := m.year_le
  have hours := m.hour_lt
  have mins := m.min_lt
  have secs := m.sec_lt
  have positive := m.mday_pos
  have year : 1970 + (m.year - 1970) = m.year := Nat.add_sub_of_le low
  have inMonth : m.mday ≤ monthDays (julian m.year) m.mon :=
    m.mday_le.trans (monthDays_le julian_of_gregorian m.mon)
  have inYear := Date.yday_lt ⟨m.year, m.mon, m.mday, m.mon_lt, positive, inMonth⟩
  have years : takeOff (fun year => 365 + (leapYear year).toNat)
      (days julian 1970 m.year m.mon m.mday + 1) 0 (days julian 1970 m.year m.mon m.mday) =
      (m.year - 1970, monthsDays (julian m.year) m.mon + (m.mday - 1)) := by
    rw [yearSize_eq]
    apply takeOff_zero
    · exact Nat.add_assoc _ _ _
    · rw [year]
      exact inYear
    · rw [days, yearsDays_julian]
      omega
  have isLeap : leapYear (m.year - 1970) = julian m.year := by
    rw [leapYear, julian, decide_eq_decide]
    omega
  have months : takeOff (fun mon => (mdays (julian m.year)).getD mon 0) 12 0
      (monthsDays (julian m.year) m.mon + (m.mday - 1)) = (m.mon, m.mday - 1) := by
    rw [monthSize_eq]
    apply takeOff_zero
    · rfl
    · omega
    · exact m.mon_lt
  rw [gmtime, wholeDays, ofDay, years]
  dsimp only
  rw [isLeap, months]
  constructor
  · dsimp only
    omega
  · dsimp only
    omega
  · dsimp only
    omega
  · dsimp only
    omega
  · rfl
  · dsimp only
    rw [Int.bmod_eq_of_le (by omega) (by omega)]
    omega

/-- A count that is broken down to a moment is its count in that calendar. -/
theorem seconds_of_shows {timer : Nat} (shows : (gmtime timer).Shows m) (small : timer < 2 ^ 48) :
    timer = m.seconds julian := by
  obtain ⟨sec, min, hour, mday, mon, year⟩ := shows
  have low := m.year_ge
  have high := m.year_le
  have positive := m.mday_pos
  rw [gmtime] at sec min hour mday mon year
  have years := takeOff_sum (fun year => 365 + (leapYear year).toNat)
    (timer / (60 * 60 * 24) + 1) 0 (timer / (60 * 60 * 24))
  rw [Finset.sum_range_zero, Nat.zero_add] at years
  generalize takeOff (fun year => 365 + (leapYear year).toNat) (timer / (60 * 60 * 24) + 1) 0
    (timer / (60 * 60 * 24)) = broken at sec min hour mday mon year years
  obtain ⟨count, yday⟩ := broken
  rw [yearSize_eq] at years
  have inYears : yearsDays julian 1970 count + yday = timer / (60 * 60 * 24) := years
  rw [yearsDays_julian] at inYears
  dsimp only at sec min hour mday mon year
  rw [Int.bmod_eq_of_le (by omega) (by omega)] at year
  have counted : count = m.year - 1970 := by omega
  have isLeap : leapYear count = julian m.year := by
    rw [leapYear, julian, decide_eq_decide]
    omega
  rw [isLeap, monthSize_eq] at mday mon
  have months := takeOff_sum (monthDays (julian m.year)) 12 0 yday
  rw [Finset.sum_range_zero, Nat.zero_add] at months
  generalize takeOff (monthDays (julian m.year)) 12 0 yday = broken at mday mon months
  obtain ⟨place, rest⟩ := broken
  dsimp only at mday mon
  obtain rfl : place = m.mon := Int.natCast_inj.mp mon
  have inMonths : monthsDays (julian m.year) m.mon + rest = yday := months
  rw [Moment.seconds_eq, days, yearsDays_julian, ← counted]
  omega

/-! ## Two calendars -/

/-- Up to 2100 the years before have the same days. -/
theorem yearsDays_eq_of_le (m : Moment) (upTo : m.year ≤ 2100) :
    yearsDays gregorian 1970 (m.year - 1970) = yearsDays julian 1970 (m.year - 1970) := by
  apply yearsDays_eq
  intro year from1970 before century
  omega

/-- The calendars count a moment alike exactly before the March of 2100. -/
theorem seconds_eq_iff (m : Moment) : m.seconds julian = m.posix ↔ m.Before2100March := by
  have byDays : m.seconds julian = m.posix ↔
      days julian 1970 m.year m.mon m.mday = days gregorian 1970 m.year m.mon m.mday := by
    rw [Moment.posix, Moment.seconds_eq, Moment.seconds_eq]
    omega
  rw [byDays, days, days, Moment.Before2100March]
  rcases Nat.lt_trichotomy m.year 2100 with before | same | after
  · have calendars : gregorian m.year = julian m.year := by
      apply gregorian_eq_julian
      have low := m.year_ge
      omega
    rw [yearsDays_eq_of_le m before.le, calendars]
    exact iff_of_true rfl (Or.inl before)
  · have isLeap : julian m.year = true := by
      rw [same]
      rfl
    have notLeap : gregorian m.year = false := by
      rw [same]
      rfl
    rw [yearsDays_eq_of_le m same.le, isLeap, notLeap, monthsDays_true]
    split
    · omega
    · omega
  · have years : yearsDays gregorian 1970 (m.year - 1970) <
        yearsDays julian 1970 (m.year - 1970) := by
      apply yearsDays_lt (by decide : 1970 ≤ 2100)
      · omega
      · decide
      · decide
    have months : monthsDays (gregorian m.year) m.mon ≤ monthsDays (julian m.year) m.mon :=
      monthsDays_le julian_of_gregorian m.mon
    omega

/-- No count in the range of the calendar is large. -/
theorem posix_lt (m : Moment) : m.posix < 2 ^ 48 := by
  have inYear := m.toDate.yday_lt
  have atMost := yearDays_le_366 gregorian m.year
  have high := m.year_le
  have hours := m.hour_lt
  have mins := m.min_lt
  have secs := m.sec_lt
  have years : yearsDays gregorian 1970 (m.year - 1970) ≤ yearsDays julian 1970 (m.year - 1970) :=
    Finset.sum_le_sum fun year _ => yearDays_le _
  rw [yearsDays_julian] at years
  rw [Moment.posix, Moment.seconds_eq, days]
  omega

theorem before_of_converts (converts : Converts m) : m.Before2100March :=
  (seconds_eq_iff m).mp (seconds_of_shows converts.breaksDown (posix_lt m)).symm

theorem converts_of_before (before : m.Before2100March) : Converts m := by
  have upTo : m.year ≤ 2100 := by
    rcases before with earlier | ⟨same, -⟩
    · exact earlier.le
    · exact same.le
  have counts : ∀ tm : Tm, tm.Shows m → calcTimeT tm = some m.posix := by
    intro tm shows
    rw [calcTimeT_eq shows, ← yearsDays_eq_of_le m upTo]
    rfl
  have breaksDown : (gmtime m.posix).Shows m := by
    rw [← (seconds_eq_iff m).mpr before]
    exact gmtime_shows m
  exact ⟨counts, breaksDown, counts _ breaksDown⟩

/-- The conversions are right exactly before the March of 2100. -/
theorem converts_iff (m : Moment) : Converts m ↔ m.Before2100March :=
  ⟨before_of_converts, converts_of_before⟩

/-- The first of January 2101. -/
def newYear2101 : Moment where
  year := 2101
  mon := 0
  mday := 1
  mon_lt := by decide
  mday_pos := by decide
  mday_le := by decide
  hour := 0
  min := 0
  sec := 0
  year_ge := by decide
  year_le := by decide
  hour_lt := by decide
  min_lt := by decide
  sec_lt := by decide

set_option maxRecDepth 8000 in
/-- It is counted a day late. -/
theorem newYear2101_late :
    ¬ Converts newYear2101 ∧ newYear2101.posix = 4133980800 ∧
      calcTimeT ⟨0, 0, 0, 1, 0, 201, 0, 0⟩ = some (4133980800 + 86400) := by
  refine ⟨?_, by decide, by decide⟩
  intro converts
  rcases before_of_converts converts with earlier | ⟨same, -⟩
  · exact absurd earlier (by decide)
  · exact absurd same (by decide)

end Bcm2711.Startup.CalcTime
