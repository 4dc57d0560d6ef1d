import Docket.Task.Id
import Docket.Task.Party
import Docket.Time.Instant

/-! What happens to a task is recorded as events. Each event belongs to one task, has an
author, and states one change. -/
namespace Docket
open Docket.Time

/-- How an assignment stands to the one before it. -/
inductive AssignmentType where
  | assigned
  | reassigned
  | unassigned
deriving DecidableEq

/-- The name of an assignment type. -/
def AssignmentType.name : AssignmentType → String
  | .assigned => "ASSIGNED"
  | .reassigned => "REASSIGNED"
  | .unassigned => "UNASSIGNED"

/-- The assignment type with exactly this name. -/
def AssignmentType.ofName? : String → Option AssignmentType
  | "ASSIGNED" => some .assigned
  | "REASSIGNED" => some .reassigned
  | "UNASSIGNED" => some .unassigned
  | _ => none

@[simp] theorem AssignmentType.ofName?_name (type : AssignmentType) :
    ofName? type.name = some type := by
  cases type <;> rfl

/-- What only the creation of a task says about it. -/
structure Particulars where
  taskTypeId : Option String := none
  taskType : Option String := none
  reference : Option String := none
  note : Option String := none
  createdDate : Option Instant := none
  hearingDate : Option Instant := none
  courtId : Option String := none
  jurisdiction : Option String := none
deriving DecidableEq

/-- All that the creation of a task says about it. -/
structure Creation where
  particulars : Particulars
  dueDate : Option Instant
  workQueue : RefParts
deriving DecidableEq

/-- One change of a task. -/
inductive Change where
  | created (creation : Creation)
  | assigned (assignee : RefParts) (type : AssignmentType) (details : String)
  | completed (date : Instant)
  | deleted (reason : Option String) (date : Instant)
  | dueDateUpdated (dueDate : Option Instant)
  | workQueueUpdated (workQueue : RefParts) (details : String)
deriving DecidableEq

/-- The name of a kind of change. -/
def Change.name : Change → String
  | .created .. => "TaskCreated"
  | .assigned .. => "TaskAssigned"
  | .completed .. => "TaskCompleted"
  | .deleted .. => "TaskDeleted"
  | .dueDateUpdated .. => "TaskDueDateUpdated"
  | .workQueueUpdated .. => "TaskWorkqueueUpdated"

/-- A change of a task, with its author. -/
structure Event where
  task : TaskId
  change : Change
  author : Author
deriving DecidableEq

/-- The name of an event's type. -/
def Event.typeName (event : Event) : String := event.change.name

end Docket
