import Docket.Proofs.LastWord
import Docket.Task.Decision
import Mathlib.Data.List.Count

/-! An update is put on record by the fewest events that make the task what it asks for: one for the
due date and one for the work queue, each only where the task differs. They speak of different
matters, so it makes no difference in which order they are applied, and whatever is not asked for
stays as it is. -/
namespace Docket.MinimalUpdate
open Docket.LastWord Docket.Time

/-- Whether an event updates the due date. -/
def setsDueDate (event : Event) : Bool :=
  match event.change with
  | .dueDateUpdated _ => true
  | _ => false

/-- Whether an event updates the work queue. -/
def setsWorkQueue (event : Event) : Bool :=
  match event.change with
  | .workQueueUpdated _ _ => true
  | _ => false

/-- Nothing but updates of the due date and of the work queue. -/
def OnlyUpdates (events : List Event) : Prop :=
  ∀ event ∈ events, setsDueDate event = true ∨ setsWorkQueue event = true

/-- The queue that its two parts ask for: none where both are missing, and else one in which a
missing part is empty. -/
structure AsksFor (parts : RefParts) (workQueue : Option WorkQueue) : Prop where
  nothing : workQueue = none ↔ parts.id = none ∧ parts.name = none
  queue : ∀ named, workQueue = some named →
    named.id = parts.id.getD "" ∧ named.name = parts.name.getD ""

/-- The task with the due date and the queue asked for, and so many more events counted. -/
def asAsked (task : Task) (dueDate : Option Instant) (workQueue : Option WorkQueue) (count : Nat) :
    Task :=
  { task with
    dueDate := dueDate
    workQueue := workQueue
    version := UInt64.ofNat (min (task.version.toNat + count) greatestVersion) }

/-- Events that bring a task to a due date and a queue, and no more of them than it takes. -/
structure MinimalDiff (task : Task) (dueDate : Option Instant) (workQueue : Option WorkQueue)
    (events : List Event) : Prop where
  /-- Nothing but what is asked for changes, the version apart. -/
  reaches : task.applyAll events = asAsked task dueDate workQueue events.length
  only : OnlyUpdates events
  dueDates : events.countP setsDueDate = if dueDate = task.dueDate then 0 else 1
  /-- Queues differ where their identifiers or their names do. -/
  workQueues : events.countP setsWorkQueue = if workQueue = task.workQueue then 0 else 1
  /-- No update of the queue stands before one of the due date. -/
  ordered : events.Pairwise fun former latter =>
    ¬ (setsWorkQueue former = true ∧ setsDueDate latter = true)
  idle : events = [] ↔ dueDate = task.dueDate ∧ workQueue = task.workQueue
  least : ∀ others, OnlyUpdates others → (task.applyAll others).dueDate = dueDate →
    (task.applyAll others).workQueue = workQueue → events.length ≤ others.length
  /-- The order in which the events are applied makes no difference, to any task. -/
  reordered : ∀ others, others.Perm events → ∀ any : Task, any.applyAll others = any.applyAll events

variable {task : Task} {events others : List Event} {event first second : Event}
variable {id : TaskId} {author : Author} {dueDate : Option Instant} {parts : RefParts}

theorem asksFor_ref? (parts : RefParts) : AsksFor parts parts.ref? where
  nothing := RefParts.ref?_eq_none
  queue := by
    obtain ⟨_ | id, _ | name⟩ := parts <;> rintro named ⟨⟩ <;> exact ⟨rfl, rfl⟩

theorem silent_of_update (update : setsDueDate event = true ∨ setsWorkQueue event = true) :
    creation event.change = none ∧ assignee event.change = none ∧ completion event.change = none ∧
      deletion event.change = none ∧ ending event.change = none := by
  obtain ⟨_, change, _⟩ := event
  cases change with
  | dueDateUpdated | workQueueUpdated => exact ⟨rfl, rfl, rfl, rfl, rfl⟩
  | created | assigned | completed | deleted => simp [setsDueDate, setsWorkQueue] at update

/-- Updates leave alone whatever they do not speak of. -/
theorem applyAll_updates (task : Task) (only : OnlyUpdates events) :
    task.applyAll events =
      asAsked task (task.applyAll events).dueDate (task.applyAll events).workQueue
        events.length := by
  have silent {α : Type} {tells : Change → Option α}
      (untold : ∀ event ∈ events, tells event.change = none) : lastWord tells events = none :=
    lastWord_eq_none.mpr untold
  have unended : firstWord ending events = none := by
    rw [firstWord, List.head?_eq_none_iff, List.filterMap_eq_nil_iff]
    exact fun event member => (silent_of_update (only event member)).2.2.2.2
  rw [applyAll_eq_settled]
  simp only [settled, asAsked, stageAfter, unended,
    silent fun event member => (silent_of_update (only event member)).1,
    silent fun event member => (silent_of_update (only event member)).2.1,
    silent fun event member => (silent_of_update (only event member)).2.2.1,
    silent fun event member => (silent_of_update (only event member)).2.2.2.1]
  simp

/-- An update of the due date and one of the work queue do not see each other. -/
theorem apply_comm (task : Task) (due : setsDueDate first = true)
    (queue : setsWorkQueue second = true) :
    (task.apply first).apply second = (task.apply second).apply first := by
  obtain ⟨_, former, _⟩ := first
  obtain ⟨_, latter, _⟩ := second
  cases former <;> simp only [setsDueDate, Bool.false_eq_true] at due
  cases latter <;> simp only [setsWorkQueue, Bool.false_eq_true] at queue
  rfl

/-- A due date is not changed without an event that says so. -/
theorem dueDate_told (only : OnlyUpdates others)
    (changed : (task.applyAll others).dueDate ≠ task.dueDate) :
    0 < others.countP setsDueDate := by
  rw [List.countP_pos_iff]
  by_contra untold
  refine changed (dueDate_of_silent task fun event member => ?_)
  rcases only event member with due | queue
  · exact absurd ⟨event, member, due⟩ untold
  · obtain ⟨_, change, _⟩ := event
    cases change <;> simp [setsWorkQueue] at queue
    rfl

/-- Neither is a work queue. -/
theorem workQueue_told (only : OnlyUpdates others)
    (changed : (task.applyAll others).workQueue ≠ task.workQueue) :
    0 < others.countP setsWorkQueue := by
  rw [List.countP_pos_iff]
  by_contra untold
  refine changed (workQueue_of_silent task fun event member => ?_)
  rcases only event member with due | queue
  · obtain ⟨_, change, _⟩ := event
    cases change <;> simp [setsDueDate] at due
    rfl
  · exact absurd ⟨event, member, queue⟩ untold

/-- Each update is of one kind or of the other. -/
theorem length_of_updates (only : OnlyUpdates events) :
    events.length = events.countP setsDueDate + events.countP setsWorkQueue := by
  have other : events.countP (fun event => ¬ setsDueDate event = true) =
      events.countP setsWorkQueue := by
    refine List.countP_congr fun event member => ?_
    obtain ⟨_, change, _⟩ := event
    have kind := only _ member
    cases change <;> simp_all [setsDueDate, setsWorkQueue]
  rw [← other]
  exact List.length_eq_countP_add_countP setsDueDate

theorem describeWorkQueueChange_eq_none {before after : Option WorkQueue} :
    describeWorkQueueChange before after = none ↔ before = after := by
  unfold describeWorkQueueChange
  split
  · rename_i same
    simp only [same]
  · rename_i differs
    cases before <;> cases after <;> simp_all

/-- The events of an update, the due date first and each half only where the task differs. -/
theorem eventsFor_update (task : Task) (id : TaskId) (dueDate : Option Instant)
    (parts : RefParts) (author : Author) :
    ∃ details, task.eventsFor ⟨id, .update dueDate parts, author⟩ =
      (if dueDate = task.dueDate then [] else [⟨id, .dueDateUpdated dueDate, author⟩]) ++
        if parts.ref? = task.workQueue then []
        else [⟨id, .workQueueUpdated (.ofRef? parts.ref?) details, author⟩] := by
  simp only [Task.eventsFor, Task.changesFor, Task.changesForUpdate, List.map_append]
  cases described : describeWorkQueueChange task.workQueue parts.ref? with
  | none =>
    have same := describeWorkQueueChange_eq_none.mp described
    refine ⟨"", ?_⟩
    rw [if_pos same.symm]
    split <;> rfl
  | some details =>
    have differs : ¬ parts.ref? = task.workQueue := by
      intro same
      rw [describeWorkQueueChange_eq_none.mpr same.symm] at described
      cases described
    refine ⟨details, ?_⟩
    rw [if_neg differs]
    split <;> rfl

/-- The events of an update make the task what it asks for, whichever of them are needed. -/
theorem applyAll_update (task : Task) (id : TaskId) (dueDate : Option Instant) (parts : RefParts)
    (author : Author) :
    (task.applyAll (task.eventsFor ⟨id, .update dueDate parts, author⟩)).dueDate = dueDate ∧
      (task.applyAll (task.eventsFor ⟨id, .update dueDate parts, author⟩)).workQueue =
        parts.ref? := by
  obtain ⟨details, told⟩ := eventsFor_update task id dueDate parts author
  rw [told]
  -- Either half may already be as asked for; it is then left out, and the other does not touch it.
  by_cases due : dueDate = task.dueDate <;> by_cases queue : parts.ref? = task.workQueue <;>
    simp [due, queue, Task.apply, Task.change]

/-- An update comes to one event for the due date and one for the queue, if it comes to them. -/
theorem mem_eventsFor_update (task : Task) (id : TaskId) (dueDate : Option Instant)
    (parts : RefParts) (author : Author) :
    ∃ due queue, setsDueDate due = true ∧ setsWorkQueue queue = true ∧
      ∀ event ∈ task.eventsFor ⟨id, .update dueDate parts, author⟩,
        event = due ∨ event = queue := by
  obtain ⟨details, told⟩ := eventsFor_update task id dueDate parts author
  refine ⟨⟨id, .dueDateUpdated dueDate, author⟩,
    ⟨id, .workQueueUpdated (.ofRef? parts.ref?) details, author⟩, rfl, rfl, fun event member => ?_⟩
  rw [told, List.mem_append] at member
  rcases member with due | queue
  · split at due
    · cases due
    · exact .inl (List.mem_singleton.mp due)
  · split at queue
    · cases queue
    · exact .inr (List.mem_singleton.mp queue)

/-- Each half is recorded by a single event, that of the due date in front. -/
theorem counts_of_update (task : Task) (id : TaskId) (dueDate : Option Instant)
    (parts : RefParts) (author : Author) :
    (task.eventsFor ⟨id, .update dueDate parts, author⟩).countP setsDueDate =
        (if dueDate = task.dueDate then 0 else 1) ∧
      (task.eventsFor ⟨id, .update dueDate parts, author⟩).countP setsWorkQueue =
        (if parts.ref? = task.workQueue then 0 else 1) ∧
      (task.eventsFor ⟨id, .update dueDate parts, author⟩).Pairwise fun former latter =>
        ¬ (setsWorkQueue former = true ∧ setsDueDate latter = true) := by
  obtain ⟨details, told⟩ := eventsFor_update task id dueDate parts author
  rw [told]
  by_cases due : dueDate = task.dueDate <;> by_cases queue : parts.ref? = task.workQueue <;>
    simp [due, queue, List.countP_cons, setsDueDate, setsWorkQueue]

/-- No updates that leave out one that is needed can bring the task to where it is asked to be. -/
theorem length_le_of_reaches (only : OnlyUpdates others)
    (due : (task.applyAll others).dueDate = dueDate)
    (queue : (task.applyAll others).workQueue = parts.ref?) :
    (if dueDate = task.dueDate then 0 else 1) +
      (if parts.ref? = task.workQueue then 0 else 1) ≤ others.length := by
  rw [length_of_updates only]
  refine Nat.add_le_add ?_ ?_
  · split
    · exact Nat.zero_le _
    · rename_i differs
      exact dueDate_told only (due ▸ differs)
  · split
    · exact Nat.zero_le _
    · rename_i differs
      exact workQueue_told only (queue ▸ differs)

/-- The decision on an update is the least list of updates that brings the task to what is asked
for, the due date and the queue that the two parts name; and every event in it names the task and
the author of the command. -/
theorem updates_are_minimal_diffs (task : Task) (id : TaskId) (dueDate : Option Instant)
    (parts : RefParts) (author : Author) :
    AsksFor parts parts.ref? ∧
      MinimalDiff task dueDate parts.ref? (task.eventsFor ⟨id, .update dueDate parts, author⟩) ∧
      ∀ event ∈ task.eventsFor ⟨id, .update dueDate parts, author⟩,
        event.task = id ∧ event.author = author := by
  obtain ⟨due, queued⟩ := applyAll_update task id dueDate parts author
  obtain ⟨dueEvent, queueEvent, isDue, isQueue, either⟩ :=
    mem_eventsFor_update task id dueDate parts author
  have only : OnlyUpdates (task.eventsFor ⟨id, .update dueDate parts, author⟩) := by
    intro event member
    rcases either event member with rfl | rfl
    · exact .inl isDue
    · exact .inr isQueue
  refine ⟨asksFor_ref? parts, ?_, fun event member => ⟨Task.task_of_mem_eventsFor member,
    Task.author_of_mem_eventsFor member⟩⟩
  obtain ⟨dueDates, workQueues, ordered⟩ := counts_of_update task id dueDate parts author
  have total := length_of_updates only
  rw [dueDates, workQueues] at total
  constructor
  · have reached := applyAll_updates task only
    rwa [due, queued] at reached
  · exact only
  · exact dueDates
  · exact workQueues
  · exact ordered
  · rw [← List.length_eq_zero_iff, total]
    by_cases due : dueDate = task.dueDate <;> by_cases queue : parts.ref? = task.workQueue <;>
      simp [due, queue]
  · intro others onlyUpdates reachesDue reachesQueue
    rw [total]
    exact length_le_of_reaches onlyUpdates reachesDue reachesQueue
  · intro others perm any
    refine perm.foldl_eq' (fun former before latter after state => ?_) any
    rcases either former (perm.mem_iff.mp before) with rfl | rfl <;>
      rcases either latter (perm.mem_iff.mp after) with rfl | rfl
    · rfl
    · exact apply_comm state isDue isQueue
    · exact (apply_comm state isDue isQueue).symm
    · rfl

end Docket.MinimalUpdate
