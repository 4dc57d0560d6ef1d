import Docket.Task.Event

/-! What someone asks to be done with a task. Only the task and the author are always given;
an absent value is a request too, such as to take a task away from its assignee. -/
namespace Docket
open Docket.Time

/-- What is to be done. -/
inductive Action where
  | create (creation : Creation)
  | assign (assignee : RefParts)
  | complete (date : Instant)
  | delete (reason : Option String) (date : Instant)
  | update (dueDate : Option Instant) (workQueue : RefParts)
deriving DecidableEq

/-- A request to change a task, with its author. -/
structure Command where
  task : TaskId
  action : Action
  author : Author
deriving DecidableEq

/-- The name of an operation, as the journal shows it. -/
def Action.operation : Action → String
  | .create .. => "record_task_created"
  | .assign .. => "record_task_assigned"
  | .complete .. => "record_task_completed"
  | .delete .. => "record_task_deleted"
  | .update .. => "record_task_updated"

end Docket
