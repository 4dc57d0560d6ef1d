import Docket.Task.Lifecycle

/-! A task is what its events have made of it. Applying an event gives the next state and
never fails; replaying a history applies its events in order to a task not yet created. -/
namespace Docket
open Docket.Time

/-- The state of a task. The version counts the events applied. -/
structure Task where
  id : TaskId
  lifecycle : Lifecycle := .uncreated
  particulars : Particulars := {}
  dueDate : Option Instant := none
  workQueue : Option WorkQueue := none
  assignee : Option Assignee := none
  completedDate : Option Instant := none
  deletionReason : Option String := none
  deletedDate : Option Instant := none
  version : UInt64 := 0
deriving DecidableEq

/-- The greatest version; a counter that has reached it stays there. -/
def greatestVersion : Nat := UInt64.size - 1

/-- The version after one more event. -/
def nextVersion (version : UInt64) : UInt64 :=
  if version.toNat < greatestVersion then version + 1 else version

namespace Task

/-- The task before any event. -/
def uncreated (id : TaskId) : Task := { id := id }

/-- What a change does to a task, its version apart. -/
def change (task : Task) : Change → Task
  | .created creation =>
    { task with
      lifecycle := task.lifecycle.advance .opened
      particulars := creation.particulars
      dueDate := creation.dueDate
      workQueue := creation.workQueue.ref? }
  | .assigned assignee _ _ => { task with assignee := assignee.ref? }
  | .completed date =>
    { task with lifecycle := task.lifecycle.advance .completed, completedDate := some date }
  | .deleted reason date =>
    { task with
      lifecycle := task.lifecycle.advance .deleted
      deletionReason := reason
      deletedDate := some date }
  | .dueDateUpdated dueDate => { task with dueDate := dueDate }
  | .workQueueUpdated workQueue _ => { task with workQueue := workQueue.ref? }

/-- The task after an event. -/
def apply (task : Task) (event : Event) : Task :=
  { task.change event.change with version := nextVersion task.version }

/-- The task after a list of events. -/
def applyAll (task : Task) (events : List Event) : Task := events.foldl apply task

/-- The task that a history has made. -/
def replay (id : TaskId) (history : List Event) : Task := (uncreated id).applyAll history

@[simp] theorem applyAll_nil (task : Task) : task.applyAll [] = task := rfl

@[simp] theorem applyAll_cons (task : Task) (event : Event) (events : List Event) :
    task.applyAll (event :: events) = (task.apply event).applyAll events := rfl

theorem applyAll_append (task : Task) (earlier later : List Event) :
    task.applyAll (earlier ++ later) = (task.applyAll earlier).applyAll later := by
  simp [applyAll, List.foldl_append]

end Task

theorem toNat_nextVersion (version : UInt64) :
    (nextVersion version).toNat = min (version.toNat + 1) greatestVersion := by
  have bound := version.toNat_lt
  unfold nextVersion greatestVersion UInt64.size
  split
  · rw [UInt64.toNat_add]; simp; omega
  · omega

/-- The version counts the events applied, up to the greatest version. -/
theorem Task.toNat_version_applyAll (task : Task) (events : List Event) :
    (task.applyAll events).version.toNat =
      min (task.version.toNat + events.length) greatestVersion := by
  induction events generalizing task with
  | nil => have bound := task.version.toNat_lt; simp [greatestVersion, UInt64.size]; omega
  | cons event events ih => rw [applyAll_cons, ih]; simp [apply, toNat_nextVersion]; omega

end Docket
