import Std.Data.ExtTreeSet
import Docket.Calendar.Division
import Docket.Time.Date

/-! A public holiday is a published fact about one day in one division. What the reckoning of
working days needs of a list of them is the set of their days: order, repetition, names
and titles play no part. -/
namespace Docket.Calendar
open Docket.Time

/-- A public holiday as published. -/
structure PublicHoliday where
  id : String
  division : Division
  title : String
  date : Date
deriving DecidableEq

/-- A set of dates, kept by the numbers of their days. -/
structure HolidaySet where
  days : Std.ExtTreeSet Int

namespace HolidaySet

/-- The set of the dates in a list. -/
def ofDates (dates : List Date) : HolidaySet := ⟨.ofList (dates.map (·.day))⟩

/-- The set of the dates of published holidays. -/
def ofHolidays (holidays : List PublicHoliday) : HolidaySet := ofDates (holidays.map (·.date))

/-- Whether a date is in the set. -/
def contains (holidays : HolidaySet) (date : Date) : Bool := holidays.days.contains date.day

/-- The number of dates in the set. -/
def size (holidays : HolidaySet) : Nat := holidays.days.size

/-- Whether the set has no dates. -/
def isEmpty (holidays : HolidaySet) : Bool := holidays.days.isEmpty

@[simp] theorem contains_ofDates {dates : List Date} {date : Date} :
    (ofDates dates).contains date = true ↔ date ∈ dates := by
  simp only [contains, ofDates, Std.ExtTreeSet.contains_ofList, List.contains_iff_mem, List.mem_map]
  constructor
  · rintro ⟨other, member, same⟩; exact Date.ext_day same ▸ member
  · exact fun member => ⟨date, member, rfl⟩

@[simp] theorem contains_ofHolidays {holidays : List PublicHoliday} {date : Date} :
    (ofHolidays holidays).contains date = true ↔ ∃ holiday ∈ holidays, holiday.date = date := by
  simp [ofHolidays]

end HolidaySet
end Docket.Calendar
