import Docket.Proofs.DecidedStreams
import Docket.Proofs.LastWord

/-! An update leaves a record only where it changes what can be seen of a task. The comparison is
made when the command is decided, and others may write in between; yet the record is true of the
place in the stream where it comes to stand, since a decision that has been overtaken is refused.
Its wording names the queue that the task left and the one it entered. -/
namespace Docket.ObservableUpdates
open Interleaving Linearization DecidedStreams

/-- How the details of a queue update read, by the names of the queues before and after it. -/
inductive QueueNote : (former latter : Option String) → (details : String) → Prop where
  | entered {latter : String} : QueueNote none (some latter) ("Assigned to WorkQueue: " ++ latter)
  | moved {former latter : String} :
      QueueNote (some former) (some latter)
        ("Re-assigned WorkQueue from: " ++ former ++ ", to: " ++ latter)
  | left {former : String} : QueueNote (some former) none ("Removed from WorkQueue: " ++ former)

/-- An update that changes something about the task it meets, and says so truly. -/
structure Observable (task : Task) (change : Change) : Prop where
  dueDate : ∀ date, change = .dueDateUpdated date → date ≠ task.dueDate
  workQueue : ∀ parts details, change = .workQueueUpdated parts details →
    parts.ref? ≠ task.workQueue
  paired : ∀ parts details, change = .workQueueUpdated parts details →
    (parts.id = none ↔ parts.name = none)
  noted : ∀ parts details, change = .workQueueUpdated parts details →
    QueueNote (task.workQueue.map (·.name)) parts.name details
  /-- The task differs in more than its version. -/
  seen : (∃ date, change = .dueDateUpdated date) ∨
    (∃ parts details, change = .workQueueUpdated parts details) → task.change change ≠ task

/-- Two updates say different things where nothing between them speaks of the same matter. -/
structure Apart (first : Change) (between : List Event) (second : Change) : Prop where
  dueDates : ∀ former latter, first = .dueDateUpdated former → second = .dueDateUpdated latter →
    (∀ event ∈ between, LastWord.dueDate event.change = none) → latter ≠ former
  workQueues : ∀ former told latter details, first = .workQueueUpdated former told →
    second = .workQueueUpdated latter details →
    (∀ event ∈ between, LastWord.workQueue event.change = none) →
      latter.ref? ≠ former.ref? ∧ QueueNote former.name latter.name details

variable {past : List Observed} {session : Session} {task : Task} {change : Change}

theorem name_of_paired {parts : RefParts} (paired : parts.id = none ↔ parts.name = none) :
    parts.ref?.map (·.name) = parts.name := by
  obtain ⟨_ | id, _ | name⟩ := parts
  · rfl
  · simp at paired
  · simp at paired
  · rfl

theorem queueNote_of_described {former latter : Option WorkQueue} {details : String}
    (described : describeWorkQueueChange former latter = some details) :
    former ≠ latter ∧ QueueNote (former.map (·.name)) (latter.map (·.name)) details := by
  unfold describeWorkQueueChange at described
  split at described
  · cases described
  · rename_i differs
    refine ⟨differs, ?_⟩
    cases former <;> cases latter <;> cases described
    · exact .entered
    · exact .left
    · exact .moved

/-- What fits the task it meets has something to say to it. -/
theorem observable_of_fits (fits : Fits task change) : Observable task change := by
  cases fits with
  | created | assigned | completed | deleted => constructor <;> simp
  | dueDate differs =>
    constructor
    · rintro date ⟨⟩
      exact differs
    · rintro parts details ⟨⟩
    · rintro parts details ⟨⟩
    · rintro parts details ⟨⟩
    · intro _ same
      exact differs (congrArg Task.dueDate same)
  | workQueue described =>
    obtain ⟨differs, note⟩ := queueNote_of_described described
    constructor
    · rintro date ⟨⟩
    · rintro parts details ⟨⟩
      rw [RefParts.ref?_ofRef?]
      exact differs.symm
    · rintro parts details ⟨⟩
      simp [RefParts.ofRef?]
    · rintro parts details ⟨⟩
      exact note
    · intro _ same
      have kept := congrArg Task.workQueue same
      simp only [Task.change, RefParts.ref?_ofRef?] at kept
      exact differs kept.symm

/-- What the first of two updates has said still holds when the second comes. -/
theorem apart_of_observable {first second : Event} {between : List Event}
    (former : Observable task first.change)
    (latter : Observable ((task.apply first).applyAll between) second.change) :
    Apart first.change between second.change := by
  constructor
  · intro date later told again silent
    have kept : ((task.apply first).applyAll between).dueDate = date := by
      rw [LastWord.dueDate_of_silent _ silent]
      simp only [Task.apply, told, Task.change]
    rw [← kept]
    exact latter.dueDate later again
  · intro parts note later details told again silent
    have kept : ((task.apply first).applyAll between).workQueue = parts.ref? := by
      rw [LastWord.workQueue_of_silent _ silent]
      simp only [Task.apply, told, Task.change]
    have noted := latter.noted later details again
    rw [kept, name_of_paired (former.paired parts note told)] at noted
    rw [← kept]
    exact ⟨latter.workQueue later details again, noted⟩

/-- In whatever order the steps of calls are taken, an update in a stream changes the task that the
events before it replay to and tells the change truly, and no two updates say the same without
something between them that speaks of the matter. -/
theorem recorded_updates_are_observable (ran : Ran past session) (served : Served past)
    (short : Short session.store) (id : TaskId) :
    (∀ before event after, session.store.stream id = before ++ event :: after →
        Observable (Task.replay id before) event.change) ∧
      ∀ before first between second after,
        session.store.stream id = before ++ first :: (between ++ second :: after) →
          Apart first.change between second.change := by
  have decided := decided_of_ran ran served short id
  have observable (before : List Event) (event : Event) (after : List Event)
      (split : session.store.stream id = before ++ event :: after) :
      Observable (Task.replay id before) event.change :=
    observable_of_fits (fits_of_decided decided split)
  refine ⟨observable, ?_⟩
  intro before first between second after split
  have regrouped : session.store.stream id = (before ++ first :: between) ++ second :: after := by
    rw [split, List.append_assoc, List.cons_append]
  have continued : Task.replay id (before ++ first :: between) =
      ((Task.replay id before).apply first).applyAll between :=
    Task.applyAll_append ..
  have latter := observable _ second after regrouped
  rw [continued] at latter
  exact apart_of_observable (observable before first _ split) latter

/-- Two calls load a task right after its creation and ask for the same due date and queue. The one
that appends second is refused, asks again, and finds nothing left to do. -/
def rivals : List Step :=
  [.begin 0 ⟨⟨7⟩, .create ⟨{}, none, ⟨some "q1", some "Intake"⟩⟩, {}⟩,
    .commit ⟨⟨7⟩, 0⟩,
    .begin 1 ⟨⟨7⟩, .update (some ⟨.first, .midnight⟩) ⟨some "q2", none⟩, {}⟩,
    .begin 2 ⟨⟨7⟩, .update (some ⟨.first, .midnight⟩) ⟨some "q2", none⟩, {}⟩,
    .commit ⟨⟨7⟩, 2⟩,
    .commit ⟨⟨7⟩, 1⟩,
    .begin 1 ⟨⟨7⟩, .update (some ⟨.first, .midnight⟩) ⟨some "q2", some ""⟩, {}⟩]

/-- The creation in the stream of the rivals, and the first event of the update. -/
def beforeQueue : List Event :=
  [⟨⟨7⟩, .created ⟨{}, none, ⟨some "q1", some "Intake"⟩⟩, {}⟩,
    ⟨⟨7⟩, .dueDateUpdated (some ⟨.first, .midnight⟩), {}⟩]

/-- The second event of the update. -/
def queueUpdate : Event :=
  ⟨⟨7⟩, .workQueueUpdated ⟨some "q2", some ""⟩ "Re-assigned WorkQueue from: Intake, to: ", {}⟩

theorem rivals_leave_one_record :
    Ran (Session.observe {} rivals) (Session.follow {} rivals) ∧
      Served (Session.observe {} rivals) ∧ Short (Session.follow {} rivals).store ∧
      (Session.follow {} rivals).store.stream ⟨7⟩ = beforeQueue ++ [queueUpdate] ∧
      Observable (Task.replay ⟨7⟩ beforeQueue) queueUpdate.change := by
  have ran : Ran (Session.observe {} rivals) (Session.follow {} rivals) := ran_follow .start rivals
  have told : Session.observe {} rivals = rivals.zipWith Observed.mk
      [.nothing,
        .handled ⟨⟨7⟩, .create ⟨{}, none, ⟨some "q1", some "Intake"⟩⟩, {}⟩
          (.ok (beforeQueue.take 1)),
        .nothing, .nothing,
        .handled ⟨⟨7⟩, .update (some ⟨.first, .midnight⟩) ⟨some "q2", none⟩, {}⟩
          (.ok (beforeQueue.drop 1 ++ [queueUpdate])),
        .handled ⟨⟨7⟩, .update (some ⟨.first, .midnight⟩) ⟨some "q2", none⟩, {}⟩
          (.error (.versionConflict ⟨7⟩ 1 3)),
        .handled ⟨⟨7⟩, .update (some ⟨.first, .midnight⟩) ⟨some "q2", some ""⟩, {}⟩ (.ok [])] := by
    cbv
  have streams (id : TaskId) : (Session.follow {} rivals).store.stream id =
      if (⟨7⟩ : TaskId) = id then beforeQueue ++ [queueUpdate] else [] := by
    rw [stream_eq_additions ran, told]
    simp only [rivals, beforeQueue, List.zipWith, additions, List.flatMap_cons, Observed.addition]
    split <;> rfl
  have served : Served (Session.observe {} rivals) := by
    rw [told]
    simp [Served, rivals]
  have short : Short (Session.follow {} rivals).store := by
    intro id
    rw [streams]
    split <;> simp [beforeQueue, greatestVersion, UInt64.size]
  have stream : (Session.follow {} rivals).store.stream ⟨7⟩ = beforeQueue ++ [queueUpdate] :=
    streams ⟨7⟩
  exact ⟨ran, served, short, stream,
    (recorded_updates_are_observable ran served short ⟨7⟩).1 beforeQueue queueUpdate [] stream⟩

end Docket.ObservableUpdates
