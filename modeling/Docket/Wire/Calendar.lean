import Docket.Calendar.Holiday
import Docket.Calendar.Settings
import Docket.Json.Printer
import Docket.Json.Reader
import Docket.Wire.Scalar

/-! Divisions, holidays and settings as documents. The name of a division is taken as it
stands, blanks around it included. -/
namespace Docket.Calendar
open Docket.Json Docket.Time

namespace Division

/-- A division as a document. -/
def toJson (division : Division) : Json := .text division.name

/-- Reads a division. -/
def ofJson? (document : Json) : Option Division := document.text?.map Division.mk

/-- The text of a division. -/
def print (division : Division) : String := division.toJson.print

/-- Reads the text of a division. -/
def parse? (text : String) : Option Division := Json.parse? text >>= ofJson?

end Division

namespace PublicHoliday

/-- The names of a holiday's fields, in their order. -/
def keys : List String := ["id", "division", "title", "date"]

/-- A holiday as a document. -/
def toJson (holiday : PublicHoliday) : Json :=
  .object
    [("id", .text holiday.id),
      ("division", holiday.division.toJson),
      ("title", .text holiday.title),
      ("date", holiday.date.toJson)]

/-- Reads a holiday out of its members. -/
def ofMembers? (members : List (String × Json)) : Option PublicHoliday := do
  return {
    id := ← required members "id" text?
    division := ← required members "division" Division.ofJson?
    title := ← required members "title" text?
    date := ← required members "date" Date.ofJson? }

/-- Reads a holiday. -/
def ofJson? (document : Json) : Option PublicHoliday := document.record? keys >>= ofMembers?

/-- The text of a holiday. -/
def print (holiday : PublicHoliday) : String := holiday.toJson.print

/-- Reads the text of a holiday. -/
def parse? (text : String) : Option PublicHoliday := Json.parse? text >>= ofJson?

end PublicHoliday

namespace Settings

/-- The names of the settings, in their order. -/
def keys : List String := ["division", "holiday_window_days"]

/-- Settings as a document. -/
def toJson (settings : Settings) : Json :=
  .object
    [("division", settings.division.toJson),
      ("holiday_window_days", .natural settings.windowDays.toNat)]

/-- Reads a number of days. -/
def daysOfJson? (document : Json) : Option UInt32 :=
  (document.naturalBelow? UInt32.size).map UInt32.ofNat

/-- Reads settings out of their members; a missing one is at its standard. -/
def ofMembers? (members : List (String × Json)) : Option Settings := do
  return {
    division := ← defaulted members "division" standard.division Division.ofJson?
    windowDays := ← defaulted members "holiday_window_days" standard.windowDays daysOfJson? }

/-- Reads settings. -/
def ofJson? (document : Json) : Option Settings := document.shortRecord? keys >>= ofMembers?

/-- The text of settings. -/
def print (settings : Settings) : String := settings.toJson.print

/-- Reads the text of settings. -/
def parse? (text : String) : Option Settings := Json.parse? text >>= ofJson?

end Settings
end Docket.Calendar
