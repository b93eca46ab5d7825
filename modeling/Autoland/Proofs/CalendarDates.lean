import Autoland.Table.Timestamp
import Mathlib.Tactic

/-! Dates of the calendar. The date of a day counts to that day again, and it is in the year that
the day is in. -/

namespace Autoland.Table.Timestamp

def daysBefore (year : Int) : Int := 365 * year + year / 4 - year / 100 + year / 400

/-- The parts of a day of an era of 400 years: full centuries, full groups of four years, full years
and days. The last day of a year is there in leap years only. -/
structure DayParts (day centuries groups years days : Int) : Prop where
  whole : day = 36524 * centuries + 1461 * groups + 365 * years + days
  fewCenturies : 0 ≤ centuries ∧ centuries ≤ 3
  fewGroups : 0 ≤ groups ∧ groups ≤ 24
  fewYears : 0 ≤ years ∧ years ≤ 3
  fewDays : 0 ≤ days ∧ days ≤ 365
  leap : days = 365 → years = 3 ∧ (groups ≠ 24 ∨ centuries = 3)

theorem exists_dayParts (day : Int) (low : 0 ≤ day) (high : day < 146097) :
    ∃ centuries groups years days, DayParts day centuries groups years days := by
  obtain ⟨c, r, whole, cs, rs, top⟩ : ∃ c r, day = 36524 * c + r ∧ (0 ≤ c ∧ c ≤ 3) ∧
      (0 ≤ r ∧ r ≤ 36524) ∧ (r = 36524 → c = 3) := by
    by_cases last : day = 146096
    · exact ⟨3, 36524, by omega, by omega, by omega, by omega⟩
    · exact ⟨day / 36524, day % 36524, by omega, by omega, by omega, by omega⟩
  obtain ⟨b, e, within, bs, es, leap⟩ : ∃ b e, r % 1461 = 365 * b + e ∧ (0 ≤ b ∧ b ≤ 3) ∧
      (0 ≤ e ∧ e ≤ 365) ∧ (e = 365 → b = 3) := by
    by_cases last : r % 1461 = 1460
    · exact ⟨3, 365, by omega, by omega, by omega, by omega⟩
    · exact ⟨r % 1461 / 365, r % 1461 % 365, by omega, by omega, by omega, by omega⟩
  exact ⟨c, r / 1461, b, e, ⟨by omega, cs, by omega, bs, es, by omega⟩⟩

namespace DayParts

variable {day c a b e : Int} (parts : DayParts day c a b e)

include parts

theorem year : (day - day / 1460 + day / 36524 - day / 146096) / 365 = 100 * c + 4 * a + b := by
  rcases parts with ⟨whole, cs, as, bs, es, leap⟩
  have centuries : day / 36524 - day / 146096 = c := by
    by_cases last : day = 146096
    · omega
    · have none : day / 146096 = 0 := by omega
      have low : 36524 * c ≤ day := by omega
      have high : day < 36524 * (c + 1) := by omega
      omega
  -- Each group has a day more than 1460, and once enough of them have come together they count as
  -- one group more.
  have fours : day / 1460 = 25 * c + a + if 1460 ≤ 24 * c + a + 365 * b + e then 1 else 0 := by
    split <;> omega
  split at fours <;> omega

theorem start : 365 * (100 * c + 4 * a + b) + (100 * c + 4 * a + b) / 4 -
    (100 * c + 4 * a + b) / 100 = day - e := by
  rcases parts with ⟨whole, cs, as, bs, es, leap⟩
  omega

theorem daysBefore (era : Int) :
    daysBefore (100 * c + 4 * a + b + 400 * era) = 146097 * era + (day - e) := by
  rcases parts with ⟨whole, cs, as, bs, es, leap⟩
  have fours : (100 * c + 4 * a + b + 400 * era) / 4 = 25 * c + a + 100 * era := by omega
  have centuries : (100 * c + 4 * a + b + 400 * era) / 100 = c + 4 * era := by omega
  have eras : (100 * c + 4 * a + b + 400 * era) / 400 = era := by omega
  rw [Timestamp.daysBefore, fours, centuries, eras]
  omega

theorem isLeapYear (era : Int) (last : e = 365) :
    isLeapYear (100 * c + 4 * a + b + 400 * era + 1) = true := by
  rcases parts with ⟨whole, cs, as, bs, es, leap⟩
  rcases leap last with ⟨three, turn⟩
  simp only [Timestamp.isLeapYear, Bool.and_eq_true, Bool.or_eq_true, decide_eq_true_eq]
  omega

end DayParts

def daysFromMarch (year month day : Int) : Int :=
  daysBefore year + ((153 * month + 2) / 5 + day - 1) - 719468

theorem daysFromDate_early (year : Int) (month day : Nat) (low : 1 ≤ month) (early : month ≤ 2) :
    daysFromDate year month day = daysFromMarch (year - 1) (month + 9) day := by
  have turned : ((month : Int) + 9) % 12 = month + 9 := by omega
  unfold daysFromDate daysFromMarch daysBefore
  dsimp only
  rw [if_pos early, turned]
  omega

theorem daysFromDate_late (year : Int) (month day : Nat) (late : 2 < month) (high : month ≤ 12) :
    daysFromDate year month day = daysFromMarch year (month - 3) day := by
  have turned : ((month : Int) + 9) % 12 = month - 3 := by omega
  unfold daysFromDate daysFromMarch daysBefore
  dsimp only
  rw [if_neg (Nat.not_le_of_lt late), turned]
  omega

theorem daysInMonth_le (year : Int) (month : Nat) : daysInMonth year month ≤ 31 := by
  unfold daysInMonth
  split <;> (try split) <;> omega

structure IsDate (days year : Int) (month day : Nat) : Prop where
  monthOfYear : 1 ≤ month ∧ month ≤ 12
  dayOfMonth : 1 ≤ day ∧ day ≤ daysInMonth year month
  counted : daysFromDate year month day = days

section MarchYear

/-! A day of a year that starts with March: its month counted from March, and its day in that. -/

variable (e : Int) (m d : Nat) (month : (5 * e + 2) / 153 = m)
  (day : e - (153 * (m : Int) + 2) / 5 + 1 = d)

include month day

theorem day_le_late (year : Int) (early : m < 10) : d ≤ daysInMonth year (m + 3) := by
  interval_cases m <;> simp only [daysInMonth] <;> omega

theorem day_le_early (year : Int) (late : 10 ≤ m) (few : e ≤ 365)
    (leap : e = 365 → isLeapYear year = true) : d ≤ daysInMonth year (m - 9) := by
  have high : m ≤ 11 := by omega
  interval_cases m
  · simp only [daysInMonth]
    omega
  · simp only [daysInMonth]
    split
    · omega
    · rename_i plain
      have short : e ≠ 365 := fun last => plain (leap last)
      omega

end MarchYear

theorem isDate_dateFromDays (days : Int) : ∃ year month day,
    dateFromDays days = (year, ((month : Nat) : Int), ((day : Nat) : Int)) ∧
      IsDate days year month day := by
  obtain ⟨c, a, b, e, parts⟩ := exists_dayParts ((days + 719468) % 146097) (by omega) (by omega)
  obtain ⟨march, year⟩ : ∃ march : Int,
    100 * c + 4 * a + b + 400 * ((days + 719468) / 146097) = march := ⟨_, rfl⟩
  have few := parts.fewDays
  obtain ⟨m, month⟩ : ∃ m : Nat, (5 * e + 2) / 153 = m := ⟨((5 * e + 2) / 153).toNat, by omega⟩
  obtain ⟨d, day⟩ : ∃ d : Nat, e - (153 * (m : Int) + 2) / 5 + 1 = d :=
    ⟨(e - (153 * (m : Int) + 2) / 5 + 1).toNat, by omega⟩
  have before := parts.daysBefore ((days + 719468) / 146097)
  have leap := parts.isLeapYear ((days + 719468) / 146097)
  rw [year] at before leap
  have counted : daysFromMarch march m d = days := by
    rw [daysFromMarch, before]
    omega
  unfold dateFromDays
  dsimp only
  rw [parts.year, parts.start, Int.sub_sub_self, month, day, Int.mul_comm _ 400, year]
  clear parts year before
  by_cases early : m < 10
  · refine ⟨march, m + 3, d, ?_, ⟨by omega, ⟨by omega, ?_⟩, ?_⟩⟩
    · have months : (m : Int) < 10 := by omega
      have late : ¬ (m : Int) + 3 ≤ 2 := by omega
      rw [if_pos months, if_neg late]
      rfl
    · exact day_le_late e m d month day march early
    · rw [daysFromDate_late _ _ _ (by omega) (by omega), ← counted]
      congr 1
      omega
  · refine ⟨march + 1, m - 9, d, ?_, ⟨by omega, ⟨by omega, ?_⟩, ?_⟩⟩
    · have months : ¬ (m : Int) < 10 := by omega
      have soon : (m : Int) - 9 ≤ 2 := by omega
      rw [if_neg months, if_pos soon]
      congr
      omega
    · exact day_le_early e m d month day (march + 1) (by omega) few.2 leap
    · rw [daysFromDate_early _ _ _ (by omega) (by omega), ← counted, Int.add_sub_cancel]
      congr 1
      omega

theorem daysBefore_step (year : Int) : daysBefore year + 365 ≤ daysBefore (year + 1) := by
  unfold daysBefore
  omega

theorem daysBefore_mono (first second : Int) (order : first ≤ second) :
    daysBefore first ≤ daysBefore second := by
  unfold daysBefore
  omega

theorem daysFromDate_newYear (year : Int) :
    daysFromDate year 1 1 = daysBefore (year - 1) + 306 - 719468 := by
  rw [daysFromDate_early year 1 1 (by omega) (by omega), daysFromMarch]
  omega

section Year

variable {days year : Int} {month day : Nat} (date : IsDate days year month day)

include date

theorem IsDate.newYear_le : daysFromDate year 1 1 ≤ days := by
  have step := daysBefore_step (year - 1)
  rcases date with ⟨monthOfYear, dayOfMonth, rfl⟩
  rw [daysFromDate_newYear]
  by_cases early : month ≤ 2
  · rw [daysFromDate_early _ _ _ monthOfYear.1 early, daysFromMarch]
    omega
  · rw [daysFromDate_late _ _ _ (by omega) monthOfYear.2, daysFromMarch]
    rw [Int.sub_add_cancel] at step
    omega

theorem IsDate.lt_newYear : days < daysFromDate (year + 1) 1 1 := by
  have step := daysBefore_step (year - 1)
  rcases date with ⟨monthOfYear, dayOfMonth, rfl⟩
  have few := daysInMonth_le year month
  rw [Int.sub_add_cancel] at step
  rw [daysFromDate_newYear, Int.add_sub_cancel]
  by_cases early : month ≤ 2
  · rw [daysFromDate_early _ _ _ monthOfYear.1 early, daysFromMarch]
    omega
  · rw [daysFromDate_late _ _ _ (by omega) monthOfYear.2, daysFromMarch]
    omega

theorem IsDate.year_of_inCalendar
    (first : daysFromDate firstYear 1 1 ≤ days) (last : days < daysFromDate (lastYear + 1) 1 1) :
    firstYear ≤ year ∧ year ≤ lastYear := by
  have low := date.newYear_le
  have high := date.lt_newYear
  rw [daysFromDate_newYear] at first last low high
  constructor
  · by_contra before
    have order := daysBefore_mono (year + 1 - 1) (firstYear - 1) (by omega)
    omega
  · by_contra after
    have order := daysBefore_mono (lastYear + 1 - 1) (year - 1) (by omega)
    omega

end Year

end Autoland.Table.Timestamp
