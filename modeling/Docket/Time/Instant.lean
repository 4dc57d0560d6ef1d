import Docket.Time.Date

/-! An instant is a date and a time of day in universal time. A leap second is kept apart
from the second that follows it: it belongs to the last second of a minute, with a
count of nanoseconds beyond the first thousand million. -/
namespace Docket.Time

/-- The number of nanoseconds in a second. -/
def nanosPerSecond : Nat := 1000000000

/-- The number of seconds in a day, leap seconds not counted. -/
def secondsPerDay : Nat := 86400

/-- A time of day: the seconds passed since midnight and the nanoseconds since then. -/
structure TimeOfDay where
  second : Nat
  nano : Nat
  second_lt : second < secondsPerDay
  nano_lt : nano < nanosPerSecond ∨ second % 60 = 59 ∧ nano < 2 * nanosPerSecond
deriving DecidableEq

namespace TimeOfDay

/-- Midnight, the start of the day. -/
def midnight : TimeOfDay := ⟨0, 0, by decide, by decide⟩

/-- One minute before the end of the day. -/
def lastMinute : TimeOfDay := ⟨23 * 3600 + 59 * 60, 0, by decide, by decide⟩

/-- One second before the end of the day. -/
def lastSecond : TimeOfDay := ⟨23 * 3600 + 59 * 60 + 59, 0, by decide, by decide⟩

/-- The time that a clock shows. Second 60 is a leap second, allowed in every minute. -/
def ofClock? (hour minute second nano : Nat) : Option TimeOfDay :=
  if fits : hour < 24 ∧ minute < 60 ∧ second ≤ 60 ∧ nano < nanosPerSecond then
    if leap : second = 60 then
      some ⟨hour * 3600 + minute * 60 + 59, nano + nanosPerSecond,
        by unfold secondsPerDay; omega, .inr ⟨by omega, by omega⟩⟩
    else
      some ⟨hour * 3600 + minute * 60 + second, nano,
        by unfold secondsPerDay; omega, .inl fits.2.2.2⟩
  else none

/-- The hour of the clock. -/
def hour (time : TimeOfDay) : Nat := time.second / 3600

/-- The minute of the clock. -/
def minute (time : TimeOfDay) : Nat := time.second / 60 % 60

/-- Whether the time lies in a leap second. -/
def isLeap (time : TimeOfDay) : Bool := nanosPerSecond ≤ time.nano

/-- The second of the clock; a leap second shows 60. -/
def clockSecond (time : TimeOfDay) : Nat := if time.isLeap then 60 else time.second % 60

/-- The nanoseconds within the second that the clock shows. -/
def fraction (time : TimeOfDay) : Nat := time.nano % nanosPerSecond

theorem ext_parts {a b : TimeOfDay} (second : a.second = b.second) (nano : a.nano = b.nano) :
    a = b := by
  cases a; cases b; simp_all

/-- A time of day is what its own clock shows. -/
theorem ofClock?_self (time : TimeOfDay) :
    ofClock? time.hour time.minute time.clockSecond time.fraction = some time := by
  have inDay := time.second_lt
  have inSecond := time.nano_lt
  simp only [secondsPerDay, nanosPerSecond] at inDay inSecond
  by_cases leap : 1000000000 ≤ time.nano
  · have shown : time.clockSecond = 60 := by simp [clockSecond, isLeap, nanosPerSecond, leap]
    rw [shown, ofClock?, dif_pos (by simp only [hour, minute, fraction, nanosPerSecond]; omega),
      dif_pos rfl]
    exact congrArg some (ext_parts (by simp only [hour, minute]; omega)
      (by simp only [fraction, nanosPerSecond]; omega))
  · have shown : time.clockSecond = time.second % 60 := by
      simp [clockSecond, isLeap, nanosPerSecond, leap]
    rw [shown, ofClock?, dif_pos (by simp only [hour, minute, fraction, nanosPerSecond]; omega),
      dif_neg (by omega)]
    exact congrArg some (ext_parts (by simp only [hour, minute]; omega)
      (by simp only [fraction, nanosPerSecond]; omega))

end TimeOfDay

/-- A moment of universal time. -/
structure Instant where
  date : Date
  time : TimeOfDay
deriving DecidableEq

namespace Instant

/-- What is left of a day is less than a day. -/
theorem rest_of_day_lt (seconds : Int) : (seconds % 86400).toNat < secondsPerDay := by
  unfold secondsPerDay; omega

/-- Whole minutes leave a leap second at the end of its minute. -/
theorem leap_kept {second nano : Nat} {minutes : Int}
    (kept : nano < nanosPerSecond ∨ second % 60 = 59 ∧ nano < 2 * nanosPerSecond) :
    nano < nanosPerSecond ∨
      ((second - minutes * 60) % 86400).toNat % 60 = 59 ∧ nano < 2 * nanosPerSecond := by
  omega

/-- The moment that a clock `minutes` ahead of universal time shows as `shown`. Whole minutes
leave the place within the minute, and so a leap second, unchanged. -/
def behind? (shown : Instant) (minutes : Int) : Option Instant :=
  let total : Int := shown.time.second - minutes * 60
  match shown.date.plusDays? (total / 86400) with
  | none => none
  | some date =>
    some ⟨date, (total % 86400).toNat, shown.time.nano, rest_of_day_lt total,
      leap_kept shown.time.nano_lt⟩

end Instant
end Docket.Time
