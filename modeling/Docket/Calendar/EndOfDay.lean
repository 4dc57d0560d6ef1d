import Docket.Calendar.Error
import Docket.Time.InstantText

/-! A due date falls due at the end of its day. Written out, that is the last second of the
day; as an instant to reckon with, it is the last minute. -/
namespace Docket.Calendar
open Docket.Text Docket.Time

/-- The end of a day in writing: the date and its last second, with three fraction digits. -/
def endOfDayText (date : Date) : String :=
  String.ofList
    (date.chars ++ 'T' :: TimeOfDay.lastSecond.clockChars ++ '.' :: fixedDigits 3 0 ++ ['Z'])

/-- The end of a day as an instant: the last of its minutes begins. -/
def endOfDay (date : Date) : Instant := ⟨date, .lastMinute⟩

/-- The end of the day is 23 hours and 59 minutes after midnight, on the last representable date
too. -/
theorem endOfDay_eq_after_midnight (date : Date) :
    (⟨date, .midnight⟩ : Instant).behind? (-(23 * 60 + 59)) = some (endOfDay date) := by
  have same : date.plusDays? 0 = some date := Date.plusDays?_eq_some.mpr (by omega)
  simp [Instant.behind?, TimeOfDay.midnight, same, endOfDay, TimeOfDay.lastMinute]

/-- The end of a day as an instant, reckoned from midnight; a sum outside the representable dates
would be an error. -/
def reckonEndOfDay (date : Date) : Except ReckoningError Instant :=
  match (⟨date, .midnight⟩ : Instant).behind? (-(23 * 60 + 59)) with
  | some instant => .ok instant
  | none => .error (.outOfRange date)

/-- The reckoning stays within the day, and so within the range. -/
theorem reckonEndOfDay_eq (date : Date) : reckonEndOfDay date = .ok (endOfDay date) := by
  rw [reckonEndOfDay, endOfDay_eq_after_midnight]

end Docket.Calendar
