import Docket.Text.Blank
import Docket.Task.Event

/-! The stages of a task's life. Completion and deletion end it: whichever comes first stays. -/
namespace Docket

/-- The stage that a task has reached. -/
inductive Lifecycle where
  | uncreated
  | opened
  | completed
  | deleted
deriving DecidableEq

namespace Lifecycle

/-- The name of a stage. -/
def name : Lifecycle → String
  | .uncreated => "uncreated"
  | .opened => "open"
  | .completed => "completed"
  | .deleted => "deleted"

/-- The stage with exactly this name. -/
def ofName? : String → Option Lifecycle
  | "uncreated" => some .uncreated
  | "open" => some .opened
  | "completed" => some .completed
  | "deleted" => some .deleted
  | _ => none

/-- Whether a task's life is over. -/
def isTerminal : Lifecycle → Bool
  | .completed | .deleted => true
  | .uncreated | .opened => false

/-- Moves on to another stage unless the life is over. -/
def advance (stage next : Lifecycle) : Lifecycle := if stage.isTerminal then stage else next

@[simp] theorem ofName?_name (stage : Lifecycle) : ofName? stage.name = some stage := by
  cases stage <;> rfl

end Lifecycle

/-- A name that stands for nothing. -/
inductive NameError where
  | lifecycle (text : String)
  | assignmentType (text : String)
deriving DecidableEq

/-- The wording of an error. -/
def NameError.message : NameError → String
  | .lifecycle text => "unknown task lifecycle: " ++ text
  | .assignmentType text => "unknown assignment type: " ++ text

/-- The stage that a text names, in any case of its ASCII letters and with blanks around. -/
def Lifecycle.ofText (text : String) : Except NameError Lifecycle :=
  match Lifecycle.ofName? ((Text.trim text).map Char.toLower) with
  | some stage => .ok stage
  | none => .error (.lifecycle text)

/-- The assignment type that a text names, in any case of its ASCII letters and with blanks
around. -/
def AssignmentType.ofText (text : String) : Except NameError AssignmentType :=
  match AssignmentType.ofName? ((Text.trim text).map Char.toUpper) with
  | some type => .ok type
  | none => .error (.assignmentType text)

end Docket
