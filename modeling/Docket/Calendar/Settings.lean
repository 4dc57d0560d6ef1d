import Docket.Calendar.Division

/-! The settings of a business calendar: whose holidays count, and for how many days from the
starting date they are looked up. -/
namespace Docket.Calendar

/-- The settings of a business calendar. -/
structure Settings where
  division : Division := .standard
  windowDays : UInt32 := 30
deriving DecidableEq

namespace Settings

/-- The settings that hold where nothing is set. -/
def standard : Settings := {}

/-- The settings with the division that a text names. -/
def withDivision (settings : Settings) (text : String) : Settings :=
  { settings with division := .ofText text }

/-- The settings with another window. -/
def withWindowDays (settings : Settings) (days : UInt32) : Settings :=
  { settings with windowDays := days }

end Settings
end Docket.Calendar
