import Docket.Task.State
import Mathlib.Data.List.Induction

/-! A task is what the last word on each matter says. The matters are few: what only a creation
tells, the due date, the work queue, the assignee, the completion and the deletion. An event
has the last word on those it speaks of and leaves the others alone, whatever it is called,
whoever caused it and whichever task it names. The stage alone goes by the first word. -/
namespace Docket.LastWord
open Docket.Time

/-- What the last event that speaks of a matter says about it. -/
def lastWord {α : Type} (tells : Change → Option α) (history : List Event) : Option α :=
  (history.filterMap fun event => tells event.change).getLast?

/-- What the first event that speaks of a matter says about it. -/
def firstWord {α : Type} (tells : Change → Option α) (history : List Event) : Option α :=
  (history.filterMap fun event => tells event.change).head?

/-- A creation, of which it alone can tell. -/
def creation : Change → Option Creation
  | .created creation => some creation
  | _ => none

/-- A due date, from a creation or an update. -/
def dueDate : Change → Option (Option Instant)
  | .created creation => some creation.dueDate
  | .dueDateUpdated dueDate => some dueDate
  | _ => none

/-- The parts of a work queue, from a creation or an update. -/
def workQueue : Change → Option RefParts
  | .created creation => some creation.workQueue
  | .workQueueUpdated workQueue _ => some workQueue
  | _ => none

/-- The parts of an assignee; a creation does not speak of them. -/
def assignee : Change → Option RefParts
  | .assigned assignee _ _ => some assignee
  | _ => none

/-- The date of a completion. -/
def completion : Change → Option Instant
  | .completed date => some date
  | _ => none

/-- The reason and the date of a deletion, which come together even where no reason is given. -/
def deletion : Change → Option (Option String × Instant)
  | .deleted reason date => some (reason, date)
  | _ => none

/-- The stage at which a task's life ends. -/
def ending : Change → Option Lifecycle
  | .completed _ => some .completed
  | .deleted _ _ => some .deleted
  | _ => none

/-- The stage after a history: an ending reached before stays, else the first ending counts, else
a creation opens the task. -/
def stageAfter (stage : Lifecycle) (history : List Event) : Lifecycle :=
  if stage.isTerminal then stage
  else
    match firstWord ending history with
    | some last => last
    | none => if (lastWord creation history).isSome then .opened else stage

/-- The task that the last words of a history make of a task. Matters of which nothing is said
are as they were. -/
def settled (task : Task) (history : List Event) : Task where
  id := task.id
  lifecycle := stageAfter task.lifecycle history
  particulars := ((lastWord creation history).map (·.particulars)).getD task.particulars
  dueDate := (lastWord dueDate history).getD task.dueDate
  workQueue := ((lastWord workQueue history).map (·.ref?)).getD task.workQueue
  assignee := ((lastWord assignee history).map (·.ref?)).getD task.assignee
  completedDate := ((lastWord completion history).map some).getD task.completedDate
  deletionReason := ((lastWord deletion history).map (·.1)).getD task.deletionReason
  deletedDate := ((lastWord deletion history).map (some ·.2)).getD task.deletedDate
  version := UInt64.ofNat (min (task.version.toNat + history.length) greatestVersion)

/-- Two histories of one length that have the same words on all matters. -/
structure Agree (history other : List Event) : Prop where
  creations : lastWord creation history = lastWord creation other
  dueDates : lastWord dueDate history = lastWord dueDate other
  workQueues : lastWord workQueue history = lastWord workQueue other
  assignees : lastWord assignee history = lastWord assignee other
  completions : lastWord completion history = lastWord completion other
  deletions : lastWord deletion history = lastWord deletion other
  endings : firstWord ending history = firstWord ending other
  lengths : history.length = other.length

@[simp] theorem lastWord_nil {α : Type} (tells : Change → Option α) : lastWord tells [] = none := rfl

theorem lastWord_eq_none {α : Type} {tells : Change → Option α} {history : List Event} :
    lastWord tells history = none ↔ ∀ event ∈ history, tells event.change = none := by
  rw [lastWord, List.getLast?_eq_none_iff, List.filterMap_eq_nil_iff]

theorem lastWord_concat {α : Type} (tells : Change → Option α) (history : List Event)
    (event : Event) :
    lastWord tells (history ++ [event]) = (tells event.change).or (lastWord tells history) := by
  unfold lastWord
  rw [List.filterMap_append, List.getLast?_append]
  cases told : tells event.change <;> simp [told]

theorem firstWord_concat {α : Type} (tells : Change → Option α) (history : List Event)
    (event : Event) :
    firstWord tells (history ++ [event]) = (firstWord tells history).or (tells event.change) := by
  unfold firstWord
  rw [List.filterMap_append, List.head?_append]
  cases told : tells event.change <;> simp [told]

theorem firstWord_ending_terminal {history : List Event} {last : Lifecycle}
    (ended : firstWord ending history = some last) : last.isTerminal = true := by
  have member := List.mem_of_mem_head? (Option.mem_def.mpr ended)
  obtain ⟨⟨_, change, _⟩, _, told⟩ := List.mem_filterMap.mp member
  cases change <;> cases told <;> rfl

/-- The stage that a change moves a task on to, if it speaks of a stage at all. -/
def nextStage : Change → Option Lifecycle
  | .created _ => some .opened
  | .completed _ => some .completed
  | .deleted _ _ => some .deleted
  | _ => none

/-- The stage goes on with each event, and stops for good where it is terminal. -/
theorem stageAfter_concat (stage : Lifecycle) (history : List Event) (event : Event) :
    stageAfter stage (history ++ [event]) =
      ((nextStage event.change).map (stageAfter stage history).advance).getD
        (stageAfter stage history) := by
  unfold stageAfter
  rw [firstWord_concat, lastWord_concat]
  by_cases closed : stage.isTerminal = true
  · cases event.change <;> simp [closed, nextStage, Lifecycle.advance]
  · cases ended : firstWord ending history with
    | some last =>
      have terminal := firstWord_ending_terminal ended
      cases event.change <;> simp [closed, nextStage, Lifecycle.advance, terminal]
    | none =>
      have goesOn : Lifecycle.opened.isTerminal = false := rfl
      cases lastWord creation history <;> cases event.change <;>
        simp [closed, goesOn, ending, creation, nextStage, Lifecycle.advance]

/-- One more event is counted unless the count stands at the greatest version. -/
theorem nextVersion_of_min (count : Nat) :
    nextVersion (UInt64.ofNat (min count greatestVersion)) =
      UInt64.ofNat (min (count + 1) greatestVersion) := by
  have exact (n : Nat) : (UInt64.ofNat (min n greatestVersion)).toNat = min n greatestVersion := by
    rw [UInt64.toNat_ofNat']
    exact Nat.mod_eq_of_lt (by simp only [greatestVersion, UInt64.size]; omega)
  apply UInt64.toNat_inj.mp
  rw [toNat_nextVersion, exact, exact]
  omega

/-- What is settled after one more event is what the event makes of what was settled before. -/
theorem settled_concat (task : Task) (history : List Event) (event : Event) :
    settled task (history ++ [event]) = (settled task history).apply event := by
  obtain ⟨id, change, author⟩ := event
  cases change <;>
    simp [settled, Task.apply, Task.change, lastWord_concat, stageAfter_concat, creation, dueDate,
      workQueue, assignee, completion, deletion, nextStage, nextVersion_of_min, ← Nat.add_assoc]

theorem settled_nil (task : Task) : settled task [] = task := by
  have bound := task.version.toNat_lt
  have counted : min task.version.toNat greatestVersion = task.version.toNat := by
    simp only [greatestVersion, UInt64.size]
    omega
  simp [settled, stageAfter, firstWord, counted]

/-- Applying a history, event by event, settles each matter by its last word. -/
theorem applyAll_eq_settled (task : Task) (history : List Event) :
    task.applyAll history = settled task history := by
  induction history using List.reverseRecOn with
  | nil => rw [settled_nil, Task.applyAll_nil]
  | append_singleton history event ih =>
    rw [Task.applyAll_append, ih, settled_concat]
    rfl

/-- Events that say nothing about the due date leave it as it is. -/
theorem dueDate_of_silent (task : Task) {later : List Event}
    (silent : ∀ event ∈ later, dueDate event.change = none) :
    (task.applyAll later).dueDate = task.dueDate := by
  rw [applyAll_eq_settled, settled, lastWord_eq_none.mpr silent]
  rfl

/-- Events that say nothing about the work queue leave it as it is. -/
theorem workQueue_of_silent (task : Task) {later : List Event}
    (silent : ∀ event ∈ later, workQueue event.change = none) :
    (task.applyAll later).workQueue = task.workQueue := by
  rw [applyAll_eq_settled, settled, lastWord_eq_none.mpr silent]
  rfl

theorem settled_congr {history other : List Event} (task : Task) (agree : Agree history other) :
    settled task other = settled task history := by
  simp only [settled, stageAfter, agree.creations, agree.dueDates, agree.workQueues,
    agree.assignees, agree.completions, agree.deletions, agree.endings, agree.lengths]

/-- Replay is determined by the words of a history: a task, followed by any events, is what their
last words make of it, wherever the history is cut, and events that the words do not tell
apart make no difference. -/
theorem histories_settle_by_their_words (task : Task) (history : List Event) :
    task.applyAll history = settled task history ∧
      (∀ id, Task.replay id history = settled (.uncreated id) history) ∧
      (∀ later, task.applyAll (history ++ later) = settled (settled task history) later) ∧
      ∀ other, Agree history other → task.applyAll other = task.applyAll history := by
  refine ⟨applyAll_eq_settled task history, ?_, ?_, ?_⟩
  · intro id
    exact applyAll_eq_settled (.uncreated id) history
  · intro later
    rw [Task.applyAll_append, applyAll_eq_settled, applyAll_eq_settled]
  · intro other agree
    rw [applyAll_eq_settled, applyAll_eq_settled, settled_congr task agree]

/-- A creation that is followed by another, an author and a description leave nothing behind. -/
theorem overwritten_creation_leaves_nothing :
    let late : Creation := ⟨{ note := some "late" }, none, ⟨some "q", none⟩⟩
    let history : List Event :=
      [⟨⟨7⟩, .created ⟨{ note := some "early" }, none, {}⟩, {}⟩,
        ⟨⟨7⟩, .assigned ⟨some "u1", some "Ada"⟩ .assigned "Assigned to: Ada", {}⟩,
        ⟨⟨7⟩, .created late, {}⟩]
    let other : List Event :=
      [⟨⟨7⟩, .dueDateUpdated none, { name := "clerk" }⟩,
        ⟨⟨7⟩, .assigned ⟨some "u1", some "Ada"⟩ .reassigned "", {}⟩,
        ⟨⟨8⟩, .created late, {}⟩]
    Agree history other ∧
      (Task.uncreated ⟨7⟩).applyAll other = (Task.uncreated ⟨7⟩).applyAll history := by
  intro late history other
  have agree : Agree history other := ⟨rfl, rfl, rfl, rfl, rfl, rfl, rfl, rfl⟩
  exact ⟨agree, (histories_settle_by_their_words _ history).2.2.2 other agree⟩

end Docket.LastWord
