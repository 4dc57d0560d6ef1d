import Docket.Proofs.ConflictDetection
import Docket.Proofs.MinimalUpdate

/-! An update may be delivered more than once. What it has asked for stays in place until another
command asks for something else; assignments, completions and deletions do not, and neither does
anything that is done to other tasks. So when it comes again there is nothing left to record. -/
namespace Docket.Redelivery
open ConflictDetection MinimalUpdate

/-- An action that speaks neither of a task's due date nor of its queue. -/
def Harmless : Action → Prop
  | .assign _ | .complete _ | .delete _ _ => True
  | .create _ | .update _ _ => False

/-- Commands carried out one after another with nobody between their steps, whether the store fails
them or not. Those on the one task are harmless. -/
inductive Followed (id : TaskId) (first : Store) : Store → Prop where
  | start : Followed id first first
  | next {store : Store} (earlier : Followed id first store) (command : Command)
      (harmless : command.task = id → Harmless command.action) (disturbance : Disturbance)
      (alone : disturbance.intruder = none) :
      Followed id first (store.handle disturbance command).store

/-- The stream of a task makes it one with this due date and this queue. -/
structure Shows (store : Store) (id : TaskId) (dueDate : Option Time.Instant)
    (workQueue : Option WorkQueue) : Prop where
  dueDate : (Task.replay id (store.stream id)).dueDate = dueDate
  workQueue : (Task.replay id (store.stream id)).workQueue = workQueue

variable {store first last : Store} {command : Command} {disturbance : Disturbance}
variable {id : TaskId} {author : Author} {dueDate : Option Time.Instant} {parts again : RefParts}
variable {workQueue : Option WorkQueue} {events : List Event} {task : Task}

/-- An update decides on nothing where the task is already as it asks. -/
theorem eventsFor_update_current (due : task.dueDate = dueDate)
    (queued : task.workQueue = parts.ref?) :
    task.eventsFor ⟨id, .update dueDate parts, author⟩ = [] := by
  obtain ⟨_, told⟩ := eventsFor_update task id dueDate parts author
  rw [told, if_pos due.symm, if_pos queued.symm, List.append_nil]

theorem silent_of_harmless (harmless : Harmless command.action) :
    ∀ event ∈ task.eventsFor command,
      LastWord.dueDate event.change = none ∧ LastWord.workQueue event.change = none := by
  intro event member
  obtain ⟨change, decided, rfl⟩ := List.mem_map.mp member
  cases action : command.action with
  | assign | complete | delete =>
    rw [action] at decided
    rw [List.mem_singleton.mp decided]
    exact ⟨rfl, rfl⟩
  | create | update =>
    rw [action] at harmless
    exact harmless.elim

/-- Alone with the store, a command adds its decision to its stream or leaves every stream alone. -/
theorem streams_of_handle (store : Store) (command : Command)
    (alone : disturbance.intruder = none) :
    ((store.handle disturbance command).result =
          .ok (decision command (store.stream command.task)) ∧
        (store.handle disturbance command).store.stream command.task =
          store.stream command.task ++ decision command (store.stream command.task) ∨
      (∃ error, (store.handle disturbance command).result = .error error) ∧
        (store.handle disturbance command).store.stream command.task =
          store.stream command.task) ∧
      ∀ other, other ≠ command.task →
        (store.handle disturbance command).store.stream other = store.stream other := by
  have nobody : competing disturbance = [] := by rw [competing, alone, Option.getD_none]
  have own : ∀ event ∈ competing disturbance, event.task = command.task := by simp [nobody]
  refine ⟨?_, fun other differs => handle_elsewhere own differs⟩
  cases failing : disturbance.failLoad with
  | some detail =>
    rw [handle_unread failing]
    exact .inr ⟨⟨_, rfl⟩, rfl⟩
  | none =>
    have ended := @ending_of_handle store _ _ failing own fun others => absurd nobody others
    rw [nobody] at ended
    exact ended.added_or_kept

/-- An update that is answered with success makes its task show what it asks for. -/
theorem shows_of_accepted (alone : disturbance.intruder = none)
    (accepted : (store.handle disturbance ⟨id, .update dueDate parts, author⟩).result =
      .ok events) :
    Shows (store.handle disturbance ⟨id, .update dueDate parts, author⟩).store id dueDate
      parts.ref? := by
  obtain ⟨⟨_, grown⟩ | ⟨⟨error, refused⟩, _⟩, _⟩ :=
    streams_of_handle store ⟨id, .update dueDate parts, author⟩ alone
  · obtain ⟨due, queued⟩ :=
      applyAll_update (Task.replay id (store.stream id)) id dueDate parts author
    constructor
    · rw [grown, Task.replay, Task.applyAll_append]
      exact due
    · rw [grown, Task.replay, Task.applyAll_append]
      exact queued
  · cases accepted.symm.trans refused

/-- Events that speak of neither matter, if any are added, leave what a task shows. -/
theorem shows_of_silent {after : Store} {added : List Event}
    (shows : Shows store id dueDate workQueue) (grown : after.stream id = store.stream id ++ added)
    (silent : ∀ event ∈ added,
      LastWord.dueDate event.change = none ∧ LastWord.workQueue event.change = none) :
    Shows after id dueDate workQueue := by
  constructor
  · rw [grown, Task.replay, Task.applyAll_append,
      LastWord.dueDate_of_silent _ fun event member => (silent event member).1]
    exact shows.dueDate
  · rw [grown, Task.replay, Task.applyAll_append,
      LastWord.workQueue_of_silent _ fun event member => (silent event member).2]
    exact shows.workQueue

/-- A harmless command leaves what a task shows, and so does any command on another task. -/
theorem shows_of_handle (shows : Shows store id dueDate workQueue)
    (harmless : command.task = id → Harmless command.action)
    (alone : disturbance.intruder = none) :
    Shows (store.handle disturbance command).store id dueDate workQueue := by
  have kept (same : (store.handle disturbance command).store.stream id = store.stream id) :
      Shows (store.handle disturbance command).store id dueDate workQueue :=
    shows_of_silent shows (same.trans (List.append_nil _).symm)
      fun _ member => absurd member List.not_mem_nil
  obtain ⟨own, elsewhere⟩ := streams_of_handle store command alone
  by_cases addressed : command.task = id
  · subst addressed
    obtain ⟨_, grown⟩ | ⟨_, same⟩ := own
    · exact shows_of_silent shows grown (silent_of_harmless (harmless rfl))
    · exact kept same
  · exact kept (elsewhere id (Ne.symm addressed))

/-- What a task shows survives any number of such commands. -/
theorem shows_of_followed (shows : Shows first id dueDate workQueue)
    (followed : Followed id first last) : Shows last id dueDate workQueue := by
  induction followed with
  | start => exact shows
  | next earlier command harmless disturbance alone ih => exact shows_of_handle ih harmless alone

/-- Alone with the store, a command sees the stream that it adds to. -/
theorem handle_alone (alone : disturbance.intruder = none) (read : disturbance.failLoad = none) :
    store.handle disturbance command =
      (command.begin (store.stream command.task)).commit disturbance store := by
  refine handle_of_load ?_
  simp only [Disturbance.load, read, Disturbance.intrude, alone, Except.map]

/-- Where a task shows what an update asks for, the update is answered with nothing, and the store is
not asked to append anything. -/
theorem handle_of_shows (shows : Shows store id dueDate parts.ref?)
    (alone : disturbance.intruder = none) (read : disturbance.failLoad = none) :
    (store.handle disturbance ⟨id, .update dueDate parts, author⟩).result = .ok [] ∧
      (store.handle disturbance ⟨id, .update dueDate parts, author⟩).store = store := by
  rw [handle_alone alone read]
  exact commit_idle (eventsFor_update_current shows.dueDate shows.workQueue)

/-- An update that was answered with success asks for nothing when it comes again, by whomever and
however its queue is spelled, and the task is still as it asks. Whatever was in the store before, it
makes no difference whether there was anything to record the first time. -/
theorem redelivered_updates_change_nothing (alone : disturbance.intruder = none)
    (accepted : (store.handle disturbance ⟨id, .update dueDate parts, author⟩).result = .ok events)
    (followed :
      Followed id (store.handle disturbance ⟨id, .update dueDate parts, author⟩).store last)
    (same : again.ref? = parts.ref?) :
    (∀ other failing,
        (last.handle { failAppend := failing } ⟨id, .update dueDate again, other⟩).result = .ok [] ∧
          (last.handle { failAppend := failing } ⟨id, .update dueDate again, other⟩).store = last) ∧
      ∃ task, (last.loadTask .none id).result = .ok task ∧ task.dueDate = dueDate ∧
        task.workQueue = parts.ref? := by
  have shows := shows_of_followed (shows_of_accepted alone accepted) followed
  refine ⟨fun other failing => ?_, _, rfl, shows.dueDate, shows.workQueue⟩
  rw [← same] at shows
  exact handle_of_shows shows rfl rfl

/-- A request for a queue by its identifier alone. -/
def request : Command := ⟨⟨7⟩, .update none ⟨some "q1", none⟩, {}⟩

/-- The same request by somebody else, who gives the queue an empty name. -/
def repetition : Command := ⟨⟨7⟩, .update none ⟨some "q1", some ""⟩, { name := "Ada", id := "u1" }⟩

/-- The store after the request, which nothing has gone before. -/
def requested : Store := (Store.empty.handle .none request).store

/-- The store after another task has been created and the task has been completed. -/
def completed : Store :=
  ((requested.handle .none ⟨⟨8⟩, .create ⟨{}, none, {}⟩, {}⟩).store.handle .none
    ⟨⟨7⟩, .complete ⟨.first, .midnight⟩, {}⟩).store

theorem repetition_changes_nothing :
    (Store.empty.handle .none request).result =
        .ok [⟨⟨7⟩, .workQueueUpdated ⟨some "q1", some ""⟩ "Assigned to WorkQueue: ", {}⟩] ∧
      Followed ⟨7⟩ requested completed ∧
      (completed.handle {} repetition).result = .ok [] ∧
      (completed.handle {} repetition).store = completed := by
  have accepted : (Store.empty.handle .none request).result =
      .ok [⟨⟨7⟩, .workQueueUpdated ⟨some "q1", some ""⟩ "Assigned to WorkQueue: ", {}⟩] := by
    cbv
  have followed : Followed ⟨7⟩ requested completed := by
    refine .next (.next .start _ ?_ .none rfl) _ ?_ .none rfl
    · intro same
      cases same
    · intro _
      exact True.intro
  exact ⟨accepted, followed,
    (redelivered_updates_change_nothing rfl accepted followed rfl).1 _ none⟩

end Docket.Redelivery
