import Docket.Json.Printer
import Docket.Json.Reader
import Docket.Task.State
import Docket.Wire.Scalar

/-! A task is kept as one object with all its fields, or as the array of their values. -/
namespace Docket
open Docket.Json

/-- The names of a task's fields, in their order. -/
def Task.keys : List String :=
  ["id", "lifecycle", "task_type_id", "task_type", "reference", "note", "created_date",
    "hearing_date", "court_id", "jurisdiction", "due_date", "work_queue", "assignee",
    "completed_date", "deletion_reason", "deleted_date", "version"]

/-- A task as a document. -/
def Task.toJson (task : Task) : Json :=
  .object
    [("id", task.id.toJson),
      ("lifecycle", task.lifecycle.toJson),
      ("task_type_id", ofOption .text task.particulars.taskTypeId),
      ("task_type", ofOption .text task.particulars.taskType),
      ("reference", ofOption .text task.particulars.reference),
      ("note", ofOption .text task.particulars.note),
      ("created_date", ofOption Time.Instant.toJson task.particulars.createdDate),
      ("hearing_date", ofOption Time.Instant.toJson task.particulars.hearingDate),
      ("court_id", ofOption .text task.particulars.courtId),
      ("jurisdiction", ofOption .text task.particulars.jurisdiction),
      ("due_date", ofOption Time.Instant.toJson task.dueDate),
      ("work_queue", ofOption NamedRef.toJson task.workQueue),
      ("assignee", ofOption NamedRef.toJson task.assignee),
      ("completed_date", ofOption Time.Instant.toJson task.completedDate),
      ("deletion_reason", ofOption .text task.deletionReason),
      ("deleted_date", ofOption Time.Instant.toJson task.deletedDate),
      ("version", .natural task.version.toNat)]

/-- Reads a version. -/
def versionOfJson? (document : Json) : Option UInt64 :=
  (document.naturalBelow? UInt64.size).map UInt64.ofNat

/-- Reads a task out of its members. -/
def Task.ofMembers? (members : List (String × Json)) : Option Task := do
  let particulars : Particulars := {
    taskTypeId := ← optional members "task_type_id" text?
    taskType := ← optional members "task_type" text?
    reference := ← optional members "reference" text?
    note := ← optional members "note" text?
    createdDate := ← optional members "created_date" Time.Instant.ofJson?
    hearingDate := ← optional members "hearing_date" Time.Instant.ofJson?
    courtId := ← optional members "court_id" text?
    jurisdiction := ← optional members "jurisdiction" text? }
  return {
    id := ← required members "id" TaskId.ofJson?
    lifecycle := ← required members "lifecycle" Lifecycle.ofJson?
    particulars := particulars
    dueDate := ← optional members "due_date" Time.Instant.ofJson?
    workQueue := ← optional members "work_queue" NamedRef.ofJson?
    assignee := ← optional members "assignee" NamedRef.ofJson?
    completedDate := ← optional members "completed_date" Time.Instant.ofJson?
    deletionReason := ← optional members "deletion_reason" text?
    deletedDate := ← optional members "deleted_date" Time.Instant.ofJson?
    version := ← required members "version" versionOfJson? }

/-- Reads a task. -/
def Task.ofJson? (document : Json) : Option Task := document.record? Task.keys >>= Task.ofMembers?

/-- The text of a task. -/
def Task.print (task : Task) : String := task.toJson.print

/-- Reads the text of a task. -/
def Task.parse? (text : String) : Option Task := Json.parse? text >>= Task.ofJson?

end Docket
