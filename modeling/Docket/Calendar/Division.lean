import Docket.Text.Blank

/-! A division is an area with its own public holidays. Divisions are told apart by the exact
text of their names. -/
namespace Docket.Calendar

/-- The name of a division. -/
structure Division where
  name : String
deriving DecidableEq

namespace Division

/-- The division that a text names, blanks around it left out. -/
def ofText (text : String) : Division := ⟨Text.trim text⟩

/-- The division that is meant where none is named. -/
def standard : Division := ofText "england-and-wales"

end Division
end Docket.Calendar
