import Docket.Task.Command
import Docket.Task.State

/-! A command is decided by comparing it with the state of the task: the decision is the list
of changes that it implies. Creation, assignment, completion and deletion are always
recorded; an update is recorded only where it changes something. -/
namespace Docket

/-- What an assignment is called and said to do, from the assignee before and after it. -/
def describeAssignment : (before after : Option Assignee) → AssignmentType × String
  | none, some target => (.assigned, "Assigned to: " ++ target.name)
  | some source, some target =>
    (.reassigned, "Re-assigned from: " ++ source.name ++ ", to: " ++ target.name)
  | some source, none => (.unassigned, "Un-assigned from: " ++ source.name)
  | none, none => (.unassigned, "Un-assigned from: ")

/-- What a change of work queue is said to do; nothing where the queue stays. -/
def describeWorkQueueChange (before after : Option WorkQueue) : Option String :=
  if before = after then none
  else
    match before, after with
    | none, none => none
    | none, some queue => some ("Assigned to WorkQueue: " ++ queue.name)
    | some source, some target =>
      some ("Re-assigned WorkQueue from: " ++ source.name ++ ", to: " ++ target.name)
    | some queue, none => some ("Removed from WorkQueue: " ++ queue.name)

namespace Task

/-- The changes that an update implies: of the due date, then of the work queue. -/
def changesForUpdate (task : Task) (dueDate : Option Time.Instant) (workQueue : RefParts) :
    List Change :=
  (if dueDate = task.dueDate then [] else [.dueDateUpdated dueDate]) ++
    match describeWorkQueueChange task.workQueue workQueue.ref? with
    | none => []
    | some details => [.workQueueUpdated (.ofRef? workQueue.ref?) details]

/-- The changes that an action implies. -/
def changesFor (task : Task) : Action → List Change
  | .create creation => [.created creation]
  | .assign assignee =>
    let (type, details) := describeAssignment task.assignee assignee.ref?
    [.assigned (.ofRef? assignee.ref?) type details]
  | .complete date => [.completed date]
  | .delete reason date => [.deleted reason date]
  | .update dueDate workQueue => task.changesForUpdate dueDate workQueue

/-- The events that a command implies, each of the command's task and by its author. -/
def eventsFor (task : Task) (command : Command) : List Event :=
  (task.changesFor command.action).map fun change => ⟨command.task, change, command.author⟩

theorem task_of_mem_eventsFor {task : Task} {command : Command} {event : Event}
    (decided : event ∈ task.eventsFor command) : event.task = command.task := by
  simp only [eventsFor, List.mem_map] at decided
  obtain ⟨_, _, rfl⟩ := decided
  rfl

theorem author_of_mem_eventsFor {task : Task} {command : Command} {event : Event}
    (decided : event ∈ task.eventsFor command) : event.author = command.author := by
  simp only [eventsFor, List.mem_map] at decided
  obtain ⟨_, _, rfl⟩ := decided
  rfl

end Task
end Docket
