import Docket.Calendar.Business
import Docket.Calendar.EndOfDay
import Docket.Calendar.HearingDate
import Docket.Calendar.Rule

/-! The due date of a rule is its base, moved by its offset in working days. The base is found
before the offset is read, and the holidays are looked up only where there is a count. -/
namespace Docket.Calendar
open Docket.Time

/-- What the evaluation of a rule starts from: the clock, and the hearing date if there is one. -/
structure Occasion where
  now : Instant
  hearingDate : Option String

/-- The day that a rule counts from. A rule that does not speak of the hearing date ignores it,
readable or not. -/
def Base.dateOf (rule : String) (occasion : Occasion) : Base → Except DueDateError Date
  | .today => .ok occasion.now.date
  | .hearingDate =>
    match occasion.hearingDate with
    | none => .error (.hearingDateMissing rule)
    | some text => (hearingDateOfText text).mapError .reckoning

/-- Moves a date by an offset in working days. -/
def Offset.move (offset : Offset) (settings : Settings) (lookup : Lookup) (base : Date) :
    Reckoning CalendarError Date :=
  match offset with
  | .none => { result := .ok base }
  | .plus days => settings.countWorkingDays lookup .forward base days
  | .minus days => settings.countWorkingDays lookup .backward base days

namespace Settings

/-- The due date of a rule. -/
def dueDate (settings : Settings) (lookup : Lookup) (occasion : Occasion) (rule : String) :
    Reckoning DueDateError Date :=
  match (Base.ofText rule).dateOf rule occasion with
  | .error error => { result := .error error }
  | .ok base =>
    match Rule.ofText rule with
    | .error error => { result := .error (.reckoning error) }
    | .ok parsed =>
      let moved := parsed.offset.move settings lookup base
      match moved.result with
      | .error error => { moved with result := .error (.calendar error) }
      | .ok due => { moved with
          result := .ok due
          journal := moved.journal ++ [.evaluated rule base due] }

/-- The due date of a rule in writing, at the last second of the day. -/
def dueText (settings : Settings) (lookup : Lookup) (occasion : Occasion) (rule : String) :
    Reckoning DueDateError String :=
  let reckoning := settings.dueDate lookup occasion rule
  { reckoning with result := reckoning.result.map endOfDayText }

/-- The due date of a rule as an instant, at the last minute of the day. -/
def dueInstant (settings : Settings) (lookup : Lookup) (occasion : Occasion) (rule : String) :
    Reckoning DueDateError Instant :=
  let reckoning := settings.dueDate lookup occasion rule
  { reckoning with result := reckoning.result.map endOfDay }

end Settings
end Docket.Calendar
