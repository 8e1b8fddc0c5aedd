import Mathlib.Data.Int.Init
import ActionScript.Calendar

/-! # The Gregorian calendar

The closed form of the days to a date counts the days of the months one after the other, with the
days of leap years (`Calendar.countsDays_days`), and there is no other such count
(`Calendar.CountsDays.eq`). A calendar with such a count has the months of its years where the
Gregorian one has them (`Calendar.Almanac.Counts`). -/

namespace ActionScript.Calendar

def isLeapYear (year : Int) : Bool :=
  year % 4 == 0 && (year % 100 != 0 || year % 400 == 0)

/-- The days of a month; months count from 0. -/
def monthLength (year month : Int) : Int :=
  if month = 1 then if isLeapYear year then 29 else 28
  else if month = 3 ∨ month = 5 ∨ month = 8 ∨ month = 10 then 30
  else 31

/-- The days from the start of 1970 to the first of a month; months count from 0. -/
def monthDays (year month : Int) : Int := days year (month + 1) 1

/-- The function counts the days from the start of 1970 to the first of a month; months count
from 0. -/
structure CountsDays (count : Int → Int → Int) : Prop where
  epoch : count 1970 0 = 0
  nextMonth : ∀ year month, 0 ≤ month → month < 11 →
    count year (month + 1) = count year month + monthLength year month
  nextYear : ∀ year, count (year + 1) 0 = count year 11 + monthLength year 11

/-! ## Years that start in March -/

/-- The days of the years that start in March, from the year 0 on. -/
def daysOfYears (year : Int) : Int := 365 * year + year / 4 - year / 100 + year / 400

/-- The days of the months that start in March. -/
def daysOfMonths (month : Int) : Int := (153 * ((month + 9) % 12) + 2) / 5

theorem days_eq (year month day : Int) : days year month day =
    daysOfYears (if month ≤ 2 then year - 1 else year) + daysOfMonths month + day - 719469 := by
  rw [days, daysOfYears, daysOfMonths]
  generalize (if month ≤ 2 then year - 1 else year) = y
  omega

theorem isLeapYear_iff (year : Int) :
    isLeapYear year ↔ year % 4 = 0 ∧ (year % 100 ≠ 0 ∨ year % 400 = 0) := by
  rw [isLeapYear, Bool.and_eq_true, Bool.or_eq_true, beq_iff_eq, bne_iff_ne, beq_iff_eq]

/-- The day that leap years add is the last before March. -/
theorem daysOfYears_sub_one (year : Int) :
    daysOfYears year = daysOfYears (year - 1) + monthLength year 1 + 337 := by
  rw [daysOfYears, daysOfYears, monthLength, if_pos rfl]
  by_cases hleap : isLeapYear year
  · rw [if_pos hleap]
    rw [isLeapYear_iff] at hleap
    omega
  · rw [if_neg hleap]
    rw [isLeapYear_iff] at hleap
    omega

/-- But for the end of a year that starts in March, the months have the length that they have in
any year. -/
theorem daysOfMonths_succ {month : Int} (hlow : 0 ≤ month) (hhigh : month < 11) (hmonth : month ≠ 1)
    (year : Int) :
    daysOfMonths (month + 1 + 1) = daysOfMonths (month + 1) + monthLength year month := by
  rw [monthLength, if_neg hmonth]
  obtain rfl | rfl | rfl | rfl | rfl | rfl | rfl | rfl | rfl | rfl : month = 0 ∨ month = 2 ∨
      month = 3 ∨ month = 4 ∨ month = 5 ∨ month = 6 ∨ month = 7 ∨ month = 8 ∨ month = 9 ∨
      month = 10 := by omega
  all_goals decide

theorem countsDays_days : CountsDays monthDays where
  epoch := by decide
  nextMonth year month hlow hhigh := by
    rw [monthDays, monthDays, days_eq, days_eq]
    by_cases hfebruary : month = 1
    · subst hfebruary
      rw [if_neg (by decide), if_pos (by decide), daysOfYears_sub_one year]
      have hmonths : daysOfMonths (1 + 1 + 1) = 0 ∧ daysOfMonths (1 + 1) = 337 := by decide
      omega
    · have hyear : month + 1 + 1 ≤ 2 ↔ month + 1 ≤ 2 := by omega
      simp only [hyear, daysOfMonths_succ hlow hhigh hfebruary year]
      omega
  nextYear year := by
    rw [monthDays, monthDays, days_eq, days_eq, if_pos (by decide), if_neg (by decide),
      Int.add_sub_cancel]
    have hmonths : daysOfMonths (0 + 1) = 306 ∧ daysOfMonths (11 + 1) = 275 := by decide
    have hlength : monthLength year 11 = 31 := rfl
    omega

/-! ## Counting from the epoch -/

namespace CountsDays

variable {count other : Int → Int → Int}

/-- What two counts differ by is the same for all months of a year. -/
theorem sub_eq (h : CountsDays count) (h' : CountsDays other) (year : Int) {n : Nat}
    (hn : n < 12) : count year n - other year n = count year 0 - other year 0 := by
  induction n with
  | zero => rfl
  | succ n ih =>
    have hlow : (0 : Int) ≤ n := Int.natCast_nonneg n
    have hhigh : (n : Int) < 11 := by omega
    rw [Int.natCast_succ, h.nextMonth year n hlow hhigh, h'.nextMonth year n hlow hhigh,
      ← ih (by omega)]
    omega

theorem sub_next (h : CountsDays count) (h' : CountsDays other) (year : Int) :
    count (year + 1) 0 - other (year + 1) 0 = count year 0 - other year 0 := by
  have hlast : count year 11 - other year 11 = count year 0 - other year 0 :=
    h.sub_eq h' year (n := 11) (by decide)
  rw [h.nextYear, h'.nextYear, ← hlast]
  omega

/-- From the epoch on, forward and backward, two counts agree. -/
theorem eq (h : CountsDays count) (h' : CountsDays other) {month : Int} (hlow : 0 ≤ month)
    (hhigh : month < 12) (year : Int) : count year month = other year month := by
  have hstart : count year 0 - other year 0 = 0 := by
    induction year using Int.inductionOn' (b := 1970) with
    | zero => rw [h.epoch, h'.epoch, Int.sub_self]
    | succ year _ ih => rw [h.sub_next h', ih]
    | pred year _ ih =>
      have hnext := h.sub_next h' (year - 1)
      rw [Int.sub_add_cancel, ih] at hnext
      exact hnext.symm
  obtain ⟨n, rfl⟩ := Int.eq_ofNat_of_zero_le hlow
  have hmonth := h.sub_eq h' year (n := n) (by omega)
  rw [hstart] at hmonth
  exact Int.sub_eq_zero.mp hmonth

end CountsDays

/-! ## Calendars that count these days -/

/-- The day of the time is one of the years that have a calendar form. -/
def Covers (time : Int) : Prop :=
  days minYear 1 1 * millisecondsPerDay ≤ time ∧
    time < (days maxYear 12 31 + 1) * millisecondsPerDay

theorem inRange_iff {time : Int} : inRange time ↔ Covers time := by
  rw [inRange, Bool.and_eq_true, decide_eq_true_eq, decide_eq_true_eq, Covers]

/-- The calendar has the months of its years, the days to which the function counts, and reaches to
all times in these years. -/
structure Almanac.Counts (c : Almanac) (count : Int → Int → Int) : Prop where
  countsDays : CountsDays count
  monthStart?_eq : ∀ {year month}, minYear ≤ year → year ≤ maxYear → 0 ≤ month → month < 12 →
    c.monthStart? year (month + 1) = some (count year month * millisecondsPerDay)
  later?_eq : ∀ {time offset}, Covers (time + offset) → c.later? time offset = some (time + offset)

theorem counts_gregorian : gregorian.Counts monthDays where
  countsDays := countsDays_days
  monthStart?_eq hlow hhigh _ _ := if_pos ⟨hlow, hhigh⟩
  later?_eq h := if_pos (inRange_iff.mpr h)

end ActionScript.Calendar
