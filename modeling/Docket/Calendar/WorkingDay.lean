import Docket.Calendar.Error
import Docket.Calendar.Holiday

/-! Working days are the days from Monday to Friday that are no holidays. Counting them off
goes one day at a time in one direction and passes over all other days, so that it ends
at a working day unless nothing was to be counted, or at the end of the range of dates. -/
namespace Docket.Calendar
open Docket.Time

/-- The direction in which days are counted. -/
inductive Direction where
  | forward
  | backward
deriving DecidableEq

namespace Direction

/-- The difference that one step makes to the number of the day. -/
def unit : Direction → Int
  | .forward => 1
  | .backward => -1

/-- The next date in a direction; there is none after the last and none before the first. -/
def step? (direction : Direction) (date : Date) : Option Date := date.plusDays? direction.unit

/-- One step, or an error that names the date it was to start from. -/
def step (direction : Direction) (date : Date) : Except ReckoningError Date :=
  match direction.step? date with
  | some next => .ok next
  | none => .error (.outOfRange date)

/-- The number of steps that remain before the end of the range. -/
def room : Direction → Date → Nat
  | .forward, date => (lastDay - date.day).toNat
  | .backward, date => (date.day - firstDay).toNat

/-- The dates within a number of days of a date, the earlier end first. Both ends belong to the
window, and the date is one of them. -/
def window (direction : Direction) (date : Date) (days : UInt32) :
    Except ReckoningError (Date × Date) :=
  match date.plusDays? (direction.unit * days.toNat) with
  | none => .error (.outOfRange date)
  | some far =>
    match direction with
    | .forward => .ok (date, far)
    | .backward => .ok (far, date)

theorem step?_eq_some {direction : Direction} {date next : Date} :
    direction.step? date = some next ↔ next.day = date.day + direction.unit :=
  Date.plusDays?_eq_some

/-- Each step uses up room. -/
theorem room_step? {direction : Direction} {date next : Date}
    (stepped : direction.step? date = some next) : direction.room next < direction.room date := by
  rw [step?_eq_some] at stepped
  have low := next.first_le
  have high := next.le_last
  cases direction <;> simp only [room, unit] at * <;> omega

end Direction

/-- Whether a date is a working day. -/
def isWorkingDay (holidays : HolidaySet) (date : Date) : Bool :=
  !date.isWeekend && !holidays.contains date

/-- The next working day in a direction, the given date itself not counted. -/
def nextWorkingDay (direction : Direction) (holidays : HolidaySet) (date : Date) :
    Except ReckoningError Date :=
  match _stepped : direction.step? date with
  | none => .error (.outOfRange date)
  | some next =>
    if isWorkingDay holidays next then .ok next else nextWorkingDay direction holidays next
termination_by direction.room date
decreasing_by exact Direction.room_step? _stepped

/-- The working day reached by counting off a number of working days; counting none stays at the
date, whatever day it is. -/
def countWorkingDays (direction : Direction) (holidays : HolidaySet) :
    (count : Nat) → (start : Date) → Except ReckoningError Date
  | 0, start => .ok start
  | count + 1, start =>
    match nextWorkingDay direction holidays start with
    | .ok next => countWorkingDays direction holidays count next
    | .error error => .error error

end Docket.Calendar
