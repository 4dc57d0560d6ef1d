/-! A journal tells, line by line, what those who watch over a run should know. Each part of
the library has its own kinds of entries and says how they are written as lines. -/
namespace Docket.Journal

/-- How much attention a line asks for. -/
inductive Level where
  | debug
  | info
  | warn
deriving DecidableEq

/-- The name of a level. -/
def Level.name : Level → String
  | .debug => "DEBUG"
  | .info => "INFO"
  | .warn => "WARN"

/-- A line: its level, what happened, and named details as texts. -/
structure Line where
  level : Level
  message : String
  fields : List (String × String)
deriving DecidableEq

end Docket.Journal
