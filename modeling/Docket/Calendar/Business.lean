import Docket.Calendar.Published
import Docket.Calendar.Settings
import Docket.Calendar.WorkingDay
import Docket.Journal
import Docket.Text.Numeral

/-! A business calendar counts working days with holidays that it looks up first. One lookup
covers the window from the starting date in the direction of the count; holidays outside
the window are not consulted, even where the count leaves it. A reckoning is kept together
with the questions it asked and the entries it made in the journal. -/
namespace Docket.Calendar
open Docket.Journal Docket.Text Docket.Time

/-- What the reckoning of dates enters in the journal. -/
inductive Entry where
  | lookupFailed (query : Query) (error : LookupError)
  | counted (direction : Direction) (start : Date) (days : UInt32) (holidays : Nat) (result : Date)
  | evaluated (rule : String) (base due : Date)
deriving DecidableEq

/-- The name of a direction. -/
def Direction.name : Direction → String
  | .forward => "Forward"
  | .backward => "Backward"

/-- The line that an entry is written as. -/
def Entry.line : Entry → Line
  | .lookupFailed query error => {
      level := .warn
      message := "holiday lookup failed: " ++ error.message
      fields :=
        [("division", query.division.name), ("from", query.first.text), ("to", query.last.text)] }
  | .counted direction start days holidays result => {
      level := .debug
      message := "stepped working days"
      fields :=
        [("date", start.text), ("days", decimal days.toNat), ("direction", direction.name),
          ("holidays", decimal holidays), ("result", result.text)] }
  | .evaluated rule base due => {
      level := .debug
      message := "evaluated due date rule"
      fields := [("rule", rule), ("base", base.text), ("due", due.text)] }

/-- What a reckoning came to, the questions it asked and the entries it made, each in order. -/
structure Reckoning (ε α : Type) where
  result : Except ε α
  queries : List Query := []
  journal : List Entry := []

namespace Settings

/-- The question for the holidays in the window of a date. -/
def query (settings : Settings) (direction : Direction) (date : Date) :
    Except ReckoningError Query :=
  match direction.window date settings.windowDays with
  | .ok (first, last) => .ok ⟨settings.division, first, last⟩
  | .error error => .error error

/-- Counts off working days with the holidays of the window. A window outside the range of dates
is an error before any question is asked. -/
def countWorkingDays (settings : Settings) (lookup : Lookup) (direction : Direction) (start : Date)
    (days : UInt32) : Reckoning CalendarError Date :=
  match settings.query direction start with
  | .error error => { result := .error (.reckoning error) }
  | .ok query =>
    match lookup query with
    | .error error =>
      { result := .error (.lookup error)
        queries := [query]
        journal := [.lookupFailed query error] }
    | .ok holidays =>
      let daysOff := HolidaySet.ofHolidays holidays
      match Calendar.countWorkingDays direction daysOff days.toNat start with
      | .error error => { result := .error (.reckoning error), queries := [query] }
      | .ok result =>
        { result := .ok result
          queries := [query]
          journal := [.counted direction start days daysOff.size result] }

end Settings
end Docket.Calendar
