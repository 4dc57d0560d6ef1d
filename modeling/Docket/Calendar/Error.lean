import Docket.Calendar.Division
import Docket.Time.DateText

/-! What can go wrong on the way to a due date, by cause. An error met in one step is carried
unchanged through the steps around it, and its wording with it. -/
namespace Docket.Calendar
open Docket.Time

/-- What can go wrong in reckoning with dates and in reading a rule. -/
inductive ReckoningError where
  | outOfRange (date : Date)
  | invalidHearingDate (text : String)
  | offsetTooLarge (digits : String)
deriving DecidableEq

/-- What can go wrong in looking holidays up. -/
inductive LookupError where
  | unknownDivision (division : Division)
  | failed (detail : String)
deriving DecidableEq

/-- What can go wrong in counting working days with looked-up holidays. -/
inductive CalendarError where
  | reckoning (error : ReckoningError)
  | lookup (error : LookupError)
deriving DecidableEq

/-- What can go wrong in evaluating a rule. -/
inductive DueDateError where
  | hearingDateMissing (rule : String)
  | reckoning (error : ReckoningError)
  | calendar (error : CalendarError)
deriving DecidableEq

/-- The wording of an error. -/
def ReckoningError.message : ReckoningError → String
  | .outOfRange date => "date arithmetic overflowed stepping from " ++ date.text
  | .invalidHearingDate text =>
    "invalid hearing date '" ++ text ++ "', expected an ISO-8601 date or timestamp"
  | .offsetTooLarge digits => "day offset '" ++ digits ++ "' is out of range"

/-- The wording of an error. -/
def LookupError.message : LookupError → String
  | .unknownDivision division => "no holiday calendar for division " ++ division.name
  | .failed detail => "holiday lookup failed: " ++ detail

/-- The wording of an error. -/
def CalendarError.message : CalendarError → String
  | .reckoning error => error.message
  | .lookup error => error.message

/-- The wording of an error. -/
def DueDateError.message : DueDateError → String
  | .hearingDateMissing rule =>
    "due date rule '" ++ rule ++ "' references hearingDate but no hearing date was supplied"
  | .reckoning error => error.message
  | .calendar error => error.message

end Docket.Calendar
