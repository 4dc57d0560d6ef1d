import Docket.Proofs.LastWord

/-! The stage of a task goes by the first event that ends it, while all that is said about the
ending goes by the last. The two cannot drift apart: an ending leaves a date behind that no later
event takes back, and nothing else leaves one. -/
namespace Docket.LifeStages
open Docket.LastWord

/-- An event tells that the task has been created. -/
def Creates (event : Event) : Prop := ∃ creation, event.change = .created creation

/-- An event tells that the task has been completed. -/
def Completes (event : Event) : Prop := ∃ date, event.change = .completed date

/-- An event tells that the task has been deleted. -/
def Deletes (event : Event) : Prop := ∃ reason date, event.change = .deleted reason date

/-- No event of a history ends the task. -/
def Endless (history : List Event) : Prop :=
  ∀ event ∈ history, ¬ Completes event ∧ ¬ Deletes event

/-- The stage that a history leads to, told without replaying it. -/
inductive StageOf (history : List Event) : Lifecycle → Prop
  | completed {before after : List Event} {event : Event}
      (split : history = before ++ event :: after) (endless : Endless before)
      (completes : Completes event) : StageOf history .completed
  | deleted {before after : List Event} {event : Event}
      (split : history = before ++ event :: after) (endless : Endless before)
      (deletes : Deletes event) : StageOf history .deleted
  | opened {event : Event} (endless : Endless history) (member : event ∈ history)
      (creates : Creates event) : StageOf history .opened
  | uncreated (endless : Endless history) (untold : ∀ event ∈ history, ¬ Creates event) :
      StageOf history .uncreated

/-- The stage of a task says what its dates say. -/
structure Consistent (task : Task) : Prop where
  ended : task.lifecycle.isTerminal = true ↔
    task.completedDate.isSome = true ∨ task.deletedDate.isSome = true
  completed : task.lifecycle = .completed → task.completedDate.isSome = true
  deleted : task.lifecycle = .deleted → task.deletedDate.isSome = true
  reason : task.deletionReason.isSome = true → task.deletedDate.isSome = true
  /-- Nothing that only a creation tells is known of a task not created. -/
  blank : task.lifecycle = .uncreated →
    task.particulars = ⟨none, none, none, none, none, none, none, none⟩

variable {task : Task} {event : Event} {history before : List Event}

theorem ending_eq_completed : ending event.change = some .completed ↔ Completes event := by
  obtain ⟨_, change, _⟩ := event
  cases change <;> simp [ending, Completes]

theorem ending_eq_deleted : ending event.change = some .deleted ↔ Deletes event := by
  obtain ⟨_, change, _⟩ := event
  cases change <;> simp [ending, Deletes]

theorem ending_eq_none : ending event.change = none ↔ ¬ Completes event ∧ ¬ Deletes event := by
  obtain ⟨_, change, _⟩ := event
  cases change <;> simp [ending, Completes, Deletes]

theorem creation_eq_none : creation event.change = none ↔ ¬ Creates event := by
  obtain ⟨_, change, _⟩ := event
  cases change <;> simp [creation, Creates]

/-- The first word is said by an event that none before it has taken. -/
theorem firstWord_eq_some {α : Type} {tells : Change → Option α} {word : α} :
    firstWord tells history = some word ↔ ∃ before event after,
      history = before ++ event :: after ∧ tells event.change = some word ∧
        ∀ earlier ∈ before, tells earlier.change = none := by
  rw [firstWord, List.head?_filterMap, List.findSome?_eq_some_iff]

theorem firstWord_eq_none {α : Type} {tells : Change → Option α} :
    firstWord tells history = none ↔ ∀ event ∈ history, tells event.change = none := by
  rw [firstWord, List.head?_filterMap, List.findSome?_eq_none_iff]

theorem firstWord_ending_eq_none : firstWord ending history = none ↔ Endless history := by
  rw [firstWord_eq_none]
  exact forall₂_congr fun event _ => ending_eq_none

/-- The first ending word is a completion or a deletion, and so is the stage. -/
theorem stageOf_firstWord {last : Lifecycle} (ended : firstWord ending history = some last) :
    StageOf history last := by
  obtain ⟨before, event, after, split, told, silent⟩ := firstWord_eq_some.mp ended
  have endless : Endless before := fun earlier member => ending_eq_none.mp (silent earlier member)
  have terminal := firstWord_ending_terminal ended
  cases last with
  | uncreated => cases terminal
  | opened => cases terminal
  | completed => exact .completed split endless (ending_eq_completed.mp told)
  | deleted => exact .deleted split endless (ending_eq_deleted.mp told)

theorem stageOf_stageAfter (history : List Event) :
    StageOf history (stageAfter .uncreated history) := by
  have goesOn : Lifecycle.uncreated.isTerminal = false := rfl
  rw [stageAfter, goesOn, if_neg Bool.false_ne_true]
  cases ended : firstWord ending history with
  | some last => exact stageOf_firstWord ended
  | none =>
    have endless := firstWord_ending_eq_none.mp ended
    cases told : lastWord creation history with
    | none =>
      have silent := lastWord_eq_none.mp told
      exact .uncreated endless fun event member => creation_eq_none.mp (silent event member)
    | some word =>
      have spoken : ¬ ∀ event ∈ history, creation event.change = none := by
        rw [← lastWord_eq_none, told]
        simp
      obtain ⟨event, member, creates⟩ : ∃ event ∈ history, Creates event := by
        simpa only [creation_eq_none, not_forall, not_not, exists_prop] using spoken
      exact .opened endless member creates

/-- A history leads to one stage only. -/
theorem StageOf.eq_stageAfter {stage : Lifecycle} (reached : StageOf history stage) :
    stage = stageAfter .uncreated history := by
  have goesOn : Lifecycle.uncreated.isTerminal = false := rfl
  rw [stageAfter, goesOn, if_neg Bool.false_ne_true]
  have first {before after : List Event} {event : Event} {last : Lifecycle}
      (split : history = before ++ event :: after) (endless : Endless before)
      (told : ending event.change = some last) : firstWord ending history = some last :=
    firstWord_eq_some.mpr ⟨before, event, after, split, told,
      fun earlier member => ending_eq_none.mpr (endless earlier member)⟩
  cases reached with
  | completed split endless completes =>
    rw [first split endless (ending_eq_completed.mpr completes)]
  | deleted split endless deletes =>
    rw [first split endless (ending_eq_deleted.mpr deletes)]
  | @opened event endless member creates =>
    have told : lastWord creation history ≠ none := by
      intro silent
      exact creation_eq_none.mp (lastWord_eq_none.mp silent event member) creates
    rw [firstWord_ending_eq_none.mpr endless]
    cases spoken : lastWord creation history with
    | none => exact absurd spoken told
    | some word => rfl
  | uncreated endless untold =>
    have silent : lastWord creation history = none :=
      lastWord_eq_none.mpr fun event member => creation_eq_none.mpr (untold event member)
    rw [firstWord_ending_eq_none.mpr endless, silent]
    rfl

theorem lifecycle_applyAll (task : Task) (later : List Event) :
    (task.applyAll later).lifecycle = stageAfter task.lifecycle later := by
  rw [applyAll_eq_settled]
  rfl

/-- A task whose life is over goes on in all else as the later events say. -/
theorem applyAll_of_terminal (ended : task.lifecycle.isTerminal = true) (later : List Event) :
    task.applyAll later = { settled task later with lifecycle := task.lifecycle } := by
  have kept : stageAfter task.lifecycle later = task.lifecycle := if_pos ended
  rw [applyAll_eq_settled]
  simp only [settled, kept]

theorem stageAfter_ne_uncreated {stage : Lifecycle} (left : stage ≠ .uncreated)
    (later : List Event) : stageAfter stage later ≠ .uncreated := by
  unfold stageAfter
  split
  · exact left
  · cases ended : firstWord ending later with
    | some last =>
      intro same
      have terminal := firstWord_ending_terminal ended
      rw [show last = .uncreated from same] at terminal
      cases terminal
    | none =>
      simp only
      split
      · simp
      · exact left

theorem consistent_uncreated (id : TaskId) : Consistent (.uncreated id) := by
  constructor <;> simp [Task.uncreated, Lifecycle.isTerminal]

/-- Every event keeps the stage and the dates together, whatever the stage it meets. -/
theorem consistent_apply (consistent : Consistent task) (event : Event) :
    Consistent (task.apply event) := by
  obtain ⟨ended, completed, deleted, reason, blank⟩ := consistent
  obtain ⟨_, change, _⟩ := event
  cases change with
  | assigned | dueDateUpdated | workQueueUpdated => exact ⟨ended, completed, deleted, reason, blank⟩
  | created | completed | deleted =>
    -- Whether the event still sets the stage depends on the stage alone.
    cases stage : task.lifecycle <;>
      constructor <;>
        simp_all [Task.apply, Task.change, Lifecycle.advance, Lifecycle.isTerminal]

theorem consistent_applyAll (consistent : Consistent task) (history : List Event) :
    Consistent (task.applyAll history) := by
  induction history generalizing task with
  | nil => exact consistent
  | cons event history ih => exact ih (consistent_apply consistent event)

/-- The first ending of a history settles the stage for good, whatever comes before or after it; all
else follows the later events, and the stage says throughout what the dates say. -/
theorem first_ending_settles_stage (id : TaskId) (history : List Event) :
    (∀ stage, (Task.replay id history).lifecycle = stage ↔ StageOf history stage) ∧
      (∀ later, (Task.replay id history).lifecycle.isTerminal = true →
        (Task.replay id (history ++ later)).lifecycle = (Task.replay id history).lifecycle ∧
          Task.replay id (history ++ later) =
            { settled (Task.replay id history) later with
              lifecycle := (Task.replay id history).lifecycle }) ∧
      (∀ later, (Task.replay id history).lifecycle ≠ .uncreated →
        (Task.replay id (history ++ later)).lifecycle ≠ .uncreated) ∧
      Consistent (Task.replay id history) := by
  have replayed : (Task.replay id history).lifecycle = stageAfter .uncreated history :=
    lifecycle_applyAll (.uncreated id) history
  have continued (later : List Event) :
      Task.replay id (history ++ later) = (Task.replay id history).applyAll later :=
    Task.applyAll_append (.uncreated id) history later
  refine ⟨fun stage => ⟨?_, ?_⟩, ?_, ?_, consistent_applyAll (consistent_uncreated id) history⟩
  · rintro rfl
    rw [replayed]
    exact stageOf_stageAfter history
  · intro reached
    rw [replayed, reached.eq_stageAfter]
  · intro later ended
    rw [continued later, applyAll_of_terminal ended later]
    exact ⟨rfl, rfl⟩
  · intro later left
    rw [continued later, lifecycle_applyAll]
    exact stageAfter_ne_uncreated left later

/-- A task completed without having been created, and deleted after that. -/
def completedThenDeleted : List Event :=
  [⟨⟨7⟩, .completed ⟨.first, .midnight⟩, {}⟩,
    ⟨⟨7⟩, .deleted (some "duplicate") ⟨.last, .midnight⟩, {}⟩]

/-- A creation, and a deletion without a reason. -/
def createdThenDeleted : List Event :=
  [⟨⟨7⟩, .created ⟨{ note := some "late" }, none, {}⟩, {}⟩,
    ⟨⟨7⟩, .deleted none ⟨.first, .midnight⟩, {}⟩]

/-- The task stays completed, though it takes over the late creation and the new deletion. -/
theorem late_creation_stays_completed :
    (Task.replay ⟨7⟩ completedThenDeleted).lifecycle.isTerminal = true ∧
      (Task.replay ⟨7⟩ (completedThenDeleted ++ createdThenDeleted)).lifecycle = .completed ∧
      (Task.replay ⟨7⟩ (completedThenDeleted ++ createdThenDeleted)).particulars.note =
        some "late" ∧
      (Task.replay ⟨7⟩ (completedThenDeleted ++ createdThenDeleted)).deletionReason = none ∧
      (Task.replay ⟨7⟩ (completedThenDeleted ++ createdThenDeleted)).lifecycle ≠ .uncreated ∧
      (Task.replay ⟨7⟩ completedThenDeleted).deletedDate.isSome = true := by
  obtain ⟨stages, ended, left, consistent⟩ := first_ending_settles_stage ⟨7⟩ completedThenDeleted
  have stage : (Task.replay ⟨7⟩ completedThenDeleted).lifecycle = .completed :=
    (stages .completed).mpr (@StageOf.completed completedThenDeleted [] _ _ rfl
      (fun _ member => nomatch member) ⟨_, rfl⟩)
  have terminal : (Task.replay ⟨7⟩ completedThenDeleted).lifecycle.isTerminal = true := by
    rw [stage]
    rfl
  obtain ⟨kept, followed⟩ := ended createdThenDeleted terminal
  refine ⟨terminal, kept.trans stage, ?_, ?_, left createdThenDeleted ?_, consistent.reason rfl⟩
  · rw [followed]
    rfl
  · rw [followed]
    rfl
  · rw [stage]
    decide

end Docket.LifeStages
