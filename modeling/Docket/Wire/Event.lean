import Docket.Json.Magnitude
import Docket.Json.Printer
import Docket.Json.Reader
import Docket.Wire.Scalar

/-! An event is one flat object: the name of its type, the task, what the change says, and
the author. A reader finds the type first, wherever it stands, and then looks only at the
members that this type has. -/
namespace Docket
open Docket.Json

/-- The members that say what a change does. -/
def Change.members : Change → List (String × Json)
  | .created creation =>
    let particulars := creation.particulars
    [("taskTypeId", ofOption .text particulars.taskTypeId),
      ("taskType", ofOption .text particulars.taskType),
      ("reference", ofOption .text particulars.reference),
      ("note", ofOption .text particulars.note),
      ("createdDate", ofOption Time.Instant.toJson particulars.createdDate),
      ("dueDate", ofOption Time.Instant.toJson creation.dueDate),
      ("hearingDate", ofOption Time.Instant.toJson particulars.hearingDate),
      ("workQueue", ofOption .text creation.workQueue.id),
      ("workQueueName", ofOption .text creation.workQueue.name),
      ("courtId", ofOption .text particulars.courtId),
      ("jurisdiction", ofOption .text particulars.jurisdiction)]
  | .assigned assignee type details =>
    [("assignTo", ofOption .text assignee.id),
      ("assignName", ofOption .text assignee.name),
      ("assignmentType", type.toJson),
      ("details", .text details)]
  | .completed date => [("completedDate", date.toJson)]
  | .deleted reason date =>
    [("deletionReason", ofOption .text reason), ("deletedDate", date.toJson)]
  | .dueDateUpdated dueDate => [("dueDate", ofOption Time.Instant.toJson dueDate)]
  | .workQueueUpdated workQueue details =>
    [("workQueue", ofOption .text workQueue.id),
      ("workQueueName", ofOption .text workQueue.name),
      ("details", .text details)]

/-- An event as a document. -/
def Event.toJson (event : Event) : Json :=
  .object <|
    ("eventType", .text event.typeName) :: ("id", event.task.toJson) ::
      (event.change.members ++ event.author.members)

/-- Reads a creation out of the members of an event. -/
def Creation.ofMembers? (members : List (String × Json)) : Option Creation := do
  let particulars : Particulars := {
    taskTypeId := ← optional members "taskTypeId" text?
    taskType := ← optional members "taskType" text?
    reference := ← optional members "reference" text?
    note := ← optional members "note" text?
    createdDate := ← optional members "createdDate" Time.Instant.ofJson?
    hearingDate := ← optional members "hearingDate" Time.Instant.ofJson?
    courtId := ← optional members "courtId" text?
    jurisdiction := ← optional members "jurisdiction" text? }
  return {
    particulars := particulars
    dueDate := ← optional members "dueDate" Time.Instant.ofJson?
    workQueue := {
      id := ← optional members "workQueue" text?
      name := ← optional members "workQueueName" text? } }

/-- Reads a change of a named type out of the members of an event. -/
def Change.ofMembers? (members : List (String × Json)) : String → Option Change
  | "TaskCreated" => return .created (← Creation.ofMembers? members)
  | "TaskAssigned" => do
    let assignee : RefParts := {
      id := ← optional members "assignTo" text?
      name := ← optional members "assignName" text? }
    let type ← required members "assignmentType" (AssignmentType.ofJson? isNullOrEmpty)
    return .assigned assignee type (← required members "details" text?)
  | "TaskCompleted" => return .completed (← required members "completedDate" Time.Instant.ofJson?)
  | "TaskDeleted" => do
    let reason ← optional members "deletionReason" text?
    return .deleted reason (← required members "deletedDate" Time.Instant.ofJson?)
  | "TaskDueDateUpdated" =>
    return .dueDateUpdated (← optional members "dueDate" Time.Instant.ofJson?)
  | "TaskWorkqueueUpdated" => do
    let workQueue : RefParts := {
      id := ← optional members "workQueue" text?
      name := ← optional members "workQueueName" text? }
    return .workQueueUpdated workQueue (← required members "details" text?)
  | _ => none

/-- Reads an event out of its members. -/
def Event.ofMembers? (members : List (String × Json)) : Option Event := do
  let type ← required members "eventType" text?
  return {
    task := ← required members "id" TaskId.ofJson?
    change := ← Change.ofMembers? members type
    author := ← Author.ofMembers? members }

/-- Reads an event; only an object can be one. -/
def Event.ofJson? (document : Json) : Option Event := document.members? >>= Event.ofMembers?

/-- A list of events as a document. -/
def Event.listToJson (events : List Event) : Json := .array (events.map Event.toJson)

/-- Reads a list of events. -/
def Event.listOfJson? (document : Json) : Option (List Event) :=
  document.items? >>= (·.mapM Event.ofJson?)

/-- The document that a text spells, if all of it can be held. Events are read from held
documents, because their type may stand behind everything else. -/
def Json.parseHeld? (text : String) : Option Json := do
  let document ← parse? text
  if document.isHoldable then some document else none

/-- The text of an event. -/
def Event.print (event : Event) : String := event.toJson.print

/-- Reads the text of an event. -/
def Event.parse? (text : String) : Option Event := Json.parseHeld? text >>= Event.ofJson?

/-- The text of a list of events. -/
def Event.printList (events : List Event) : String := (Event.listToJson events).print

/-- Reads the text of a list of events. -/
def Event.parseList? (text : String) : Option (List Event) :=
  Json.parseHeld? text >>= Event.listOfJson?

end Docket
