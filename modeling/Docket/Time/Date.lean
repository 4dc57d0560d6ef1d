/-! Dates of the Gregorian calendar, carried back before its introduction and with a
year 0. A date is the number of its day, so that order, steps and distances are those
of the integers; year, month and day of month are computed from it. -/
namespace Docket.Time

/-- Years divisible by four are leap years, but of the centuries only every fourth. -/
def isLeapYear (year : Int) : Bool :=
  year % 4 == 0 && (year % 100 != 0 || year % 400 == 0)

/-- The lengths of the twelve months. -/
def monthLengths (leap : Bool) : List Nat :=
  [31, if leap then 29 else 28, 31, 30, 31, 30, 31, 31, 30, 31, 30, 31]

/-- The number of days in a month of a year; months are counted from 1. -/
def monthLength? (year : Int) (month : Nat) : Option Nat :=
  if month = 0 then none else (monthLengths (isLeapYear year))[month - 1]?

/-- The number of the first day of a year: 365 days for each year since the year 0,
and one more for each leap year among them. -/
def yearStart (year : Int) : Int :=
  365 * year + (year + 3) / 4 - (year + 99) / 100 + (year + 399) / 400

/-- The year that a day belongs to. The estimate from the mean length of a year is at
most one off, so one comparison with each neighbour settles it. -/
def yearOf (day : Int) : Int :=
  let estimate := day * 400 / 146097
  if day < yearStart estimate then estimate - 1
  else if yearStart (estimate + 1) ≤ day then estimate + 1
  else estimate

/-- Finds the month, counted from `month`, that holds the day with `passed` days before
it, and the day of that month. -/
def splitMonths : (lengths : List Nat) → (month passed : Nat) → Nat × Nat
  | [], month, passed => (month, passed + 1)
  | length :: lengths, month, passed =>
    if passed < length then (month, passed + 1)
    else splitMonths lengths (month + 1) (passed - length)

/-- The number of the first representable day, 1 January -262143. -/
def firstDay : Int := -95745764

/-- The number of the last representable day, 31 December 262142. -/
def lastDay : Int := 95745764

/-- A representable date, given by the number of its day; 1 January of year 0 is day 0. -/
structure Date where
  day : Int
  first_le : firstDay ≤ day
  le_last : day ≤ lastDay
deriving DecidableEq

namespace Date

/-- The first representable date. -/
def first : Date := ⟨firstDay, by decide, by decide⟩

/-- The last representable date. -/
def last : Date := ⟨lastDay, by decide, by decide⟩

instance : Inhabited Date := ⟨⟨0, by decide, by decide⟩⟩

instance : LE Date := ⟨fun a b => a.day ≤ b.day⟩
instance : LT Date := ⟨fun a b => a.day < b.day⟩
instance (a b : Date) : Decidable (a ≤ b) := inferInstanceAs (Decidable (a.day ≤ b.day))
instance (a b : Date) : Decidable (a < b) := inferInstanceAs (Decidable (a.day < b.day))

/-- The date with a day number, if it is representable. -/
def ofDay? (day : Int) : Option Date :=
  if first : firstDay ≤ day then
    if last : day ≤ lastDay then some ⟨day, first, last⟩ else none
  else none

/-- The date a number of days later, or earlier where the number is negative. -/
def plusDays? (date : Date) (days : Int) : Option Date := ofDay? (date.day + days)

/-- Day 0 is a Saturday, so the weekend is the first two days of each seven. -/
def isWeekend (date : Date) : Bool := date.day % 7 < 2

/-- The year of a date. -/
def year (date : Date) : Int := yearOf date.day

/-- The month and the day of the month, both counted from 1. -/
def monthAndDay (date : Date) : Nat × Nat :=
  splitMonths (monthLengths (isLeapYear date.year)) 1 (date.day - yearStart date.year).toNat

/-- The date of a day of a month of a year, if the calendar has it and it is representable. -/
def ofCalendar? (year : Int) (month dayOfMonth : Nat) : Option Date := do
  let length ← monthLength? year month
  if 1 ≤ dayOfMonth ∧ dayOfMonth ≤ length then
    let passed := ((monthLengths (isLeapYear year)).take (month - 1)).foldl (· + ·) 0 + (dayOfMonth - 1)
    ofDay? (yearStart year + passed)
  else none

theorem ext_day {a b : Date} (same : a.day = b.day) : a = b := by
  cases a; cases b; simp_all

theorem le_def {a b : Date} : a ≤ b ↔ a.day ≤ b.day := Iff.rfl
theorem lt_def {a b : Date} : a < b ↔ a.day < b.day := Iff.rfl

theorem ofDay?_eq_some {day : Int} {date : Date} : ofDay? day = some date ↔ day = date.day := by
  unfold ofDay?
  constructor
  · intro found
    split at found
    · split at found
      · cases found; rfl
      · cases found
    · cases found
  · rintro rfl
    simp [date.first_le, date.le_last]

theorem ofDay?_eq_none {day : Int} : ofDay? day = none ↔ day < firstDay ∨ lastDay < day := by
  unfold ofDay?
  split
  · split <;> simp <;> omega
  · simp; omega

theorem plusDays?_eq_some {a b : Date} {days : Int} :
    a.plusDays? days = some b ↔ b.day = a.day + days := by
  rw [plusDays?, ofDay?_eq_some, eq_comm]

end Date

/-- The year of a day starts no later than the day, and the next year after it. -/
theorem yearOf_bounds (day : Int) :
    yearStart (yearOf day) ≤ day ∧ day < yearStart (yearOf day + 1) := by
  unfold yearOf yearStart
  grind

end Docket.Time
