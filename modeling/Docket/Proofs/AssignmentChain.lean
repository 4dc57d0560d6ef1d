import Docket.Proofs.DecidedStreams
import Docket.Proofs.LastWord

/-! The assignments of a task form a chain: each tells of the assignee that the one before it has
left behind. Nothing else touches the assignee, not even another creation, and an assignment that
was decided for an assignee no longer in place is refused. So who held a task, and what each change
of hands is called, can be read off the assignments alone. -/
namespace Docket.AssignmentChain
open Interleaving Linearization DecidedStreams

/-- What an event tells about an assignment. -/
structure Assignment where
  assignee : RefParts
  type : AssignmentType
  details : String

/-- The assignment that a change is, if it is one. -/
def Assignment.of? : Change → Option Assignment
  | .assigned assignee type details => some ⟨assignee, type, details⟩
  | _ => none

/-- The assignments of a stream in order, whatever lies between them. -/
def assignments (stream : List Event) : List Assignment :=
  stream.filterMap fun event => Assignment.of? event.change

/-- Whom the last of some assignments has left with the task; nobody where there is none. -/
def holder (earlier : List Assignment) : Option Assignee :=
  earlier.getLast?.bind (·.assignee.ref?)

/-- What an assignment is called and how its details read, by the assignees before and after it. -/
inductive Worded : (previous next : Option Assignee) → AssignmentType → String → Prop where
  | assigned {next : Assignee} : Worded none (some next) .assigned ("Assigned to: " ++ next.name)
  | reassigned {previous next : Assignee} :
      Worded (some previous) (some next) .reassigned
        ("Re-assigned from: " ++ previous.name ++ ", to: " ++ next.name)
  | unassigned {previous : Assignee} :
      Worded (some previous) none .unassigned ("Un-assigned from: " ++ previous.name)
  | unheld : Worded none none .unassigned "Un-assigned from: "

/-- An assignment that takes a task from where the one before it has left it. -/
structure Linked (previous : Option Assignee) (entry : Assignment) : Prop where
  assigned : entry.type = .assigned ↔ previous = none ∧ entry.assignee.ref? ≠ none
  reassigned : entry.type = .reassigned ↔ previous ≠ none ∧ entry.assignee.ref? ≠ none
  unassigned : entry.type = .unassigned ↔ entry.assignee.ref? = none
  worded : Worded previous entry.assignee.ref? entry.type entry.details
  /-- The identifier and the name of an assignee come together or not at all. -/
  paired : entry.assignee.id = none ↔ entry.assignee.name = none

variable {past : List Observed} {session : Session} {id : TaskId} {stream : List Event}
variable {earlier later : List Assignment} {entry first second : Assignment}

theorem holder_concat (earlier : List Assignment) (entry : Assignment) :
    holder (earlier ++ [entry]) = entry.assignee.ref? := by
  simp [holder]

/-- The assignments alone say who has the task that a history replays to. -/
theorem holder_assignments (id : TaskId) (history : List Event) :
    holder (assignments history) = (Task.replay id history).assignee := by
  have told : (assignments history).map (·.assignee) =
      history.filterMap fun event => LastWord.assignee event.change := by
    rw [assignments, List.map_filterMap]
    congr
    funext event
    cases event.change <;> rfl
  have last : LastWord.lastWord LastWord.assignee history =
      (assignments history).getLast?.map (·.assignee) := by
    rw [LastWord.lastWord, ← told, List.getLast?_map]
  have settled : (Task.replay id history).assignee =
      ((LastWord.lastWord LastWord.assignee history).map (·.ref?)).getD none :=
    congrArg Task.assignee (LastWord.applyAll_eq_settled (.uncreated id) history)
  rw [settled, last, holder]
  cases (assignments history).getLast? <;> rfl

theorem linked_of_described (previous next : Option Assignee) :
    Linked previous ⟨.ofRef? next, (describeAssignment previous next).1,
      (describeAssignment previous next).2⟩ := by
  constructor
  · cases previous <;> cases next <;> simp [describeAssignment]
  · cases previous <;> cases next <;> simp [describeAssignment]
  · cases previous <;> cases next <;> simp [describeAssignment]
  · rw [RefParts.ref?_ofRef?]
    cases previous <;> cases next <;> constructor
  · simp [RefParts.ofRef?]

theorem linked_of_fits {task : Task} {change : Change} (fits : Fits task change)
    (told : Assignment.of? change = some entry) : Linked task.assignee entry := by
  cases fits with
  | assigned next =>
    cases told
    exact linked_of_described task.assignee next
  | created | completed | deleted | dueDate | workQueue => cases told

/-- In a stream of decisions every assignment is linked to the one before it. -/
theorem linked_of_decided (decided : Decided id stream)
    (split : assignments stream = earlier ++ entry :: later) : Linked (holder earlier) entry := by
  obtain ⟨before, rest, rfl, rfl, tail⟩ := List.filterMap_eq_append_iff.mp split
  obtain ⟨others, event, after, rfl, silent, told, _⟩ := List.filterMap_eq_cons_iff.mp tail
  have nothing : assignments (before ++ others) = assignments before := by
    rw [assignments, List.filterMap_append, List.filterMap_eq_nil_iff.mpr silent, List.append_nil]
    rfl
  have fits : Fits (Task.replay id (before ++ others)) event.change :=
    fits_of_decided decided (List.append_assoc ..).symm
  have linked := linked_of_fits fits told
  rw [← holder_assignments, nothing] at linked
  exact linked

/-- What two assignments in a row are called tells whether somebody had the task between them. -/
theorem types_of_linked (former : Linked (holder earlier) first)
    (latter : Linked (holder (earlier ++ [first])) second) :
    (second.type = .assigned → first.type = .unassigned) ∧
      (second.type = .reassigned → first.type ≠ .unassigned) := by
  rw [holder_concat] at latter
  constructor
  · intro assigned
    exact former.unassigned.mpr (latter.assigned.mp assigned).1
  · intro reassigned unassigned
    exact (latter.reassigned.mp reassigned).1 (former.unassigned.mp unassigned)

/-- In whatever order the steps of calls are taken, the assignments of a stream are linked one to
the next, and the last says who has the task. Their types alone never show a task assigned that is
held, reassigned that is not, or reassigned first of all. -/
theorem assignments_form_a_chain (ran : Ran past session) (served : Served past)
    (short : Short session.store) (id : TaskId) :
    (∀ earlier entry later, assignments (session.store.stream id) = earlier ++ entry :: later →
        Linked (holder earlier) entry) ∧
      (∀ earlier first second later,
        assignments (session.store.stream id) = earlier ++ first :: second :: later →
          (second.type = .assigned → first.type = .unassigned) ∧
            (second.type = .reassigned → first.type ≠ .unassigned)) ∧
      (∀ first later, assignments (session.store.stream id) = first :: later →
        first.type ≠ .reassigned) ∧
      holder (assignments (session.store.stream id)) =
        (Task.replay id (session.store.stream id)).assignee := by
  have decided := decided_of_ran ran served short id
  refine ⟨fun _ _ _ split => linked_of_decided decided split, ?_, ?_, holder_assignments id _⟩
  · intro earlier first second later split
    have regrouped : assignments (session.store.stream id) =
        (earlier ++ [first]) ++ second :: later := by
      rw [split, List.append_assoc, List.singleton_append]
    exact types_of_linked (linked_of_decided decided split) (linked_of_decided decided regrouped)
  · intro first later split reassigned
    have linked : Linked (holder []) first := linked_of_decided decided split
    exact (linked.reassigned.mp reassigned).1 rfl

/-- A task is given to someone without a name and created again while another call is about to hand
it on. That call is refused and repeated; in the end the task is taken away. -/
def handovers : List Step :=
  [.begin 0 ⟨⟨7⟩, .assign ⟨some "u1", none⟩, {}⟩,
    .commit ⟨⟨7⟩, 0⟩,
    .begin 1 ⟨⟨7⟩, .assign ⟨some "u2", some "Ben"⟩, {}⟩,
    .begin 2 ⟨⟨7⟩, .create ⟨{}, none, {}⟩, {}⟩,
    .commit ⟨⟨7⟩, 2⟩,
    .commit ⟨⟨7⟩, 1⟩,
    .begin 1 ⟨⟨7⟩, .assign ⟨some "u2", some "Ben"⟩, {}⟩,
    .commit ⟨⟨7⟩, 1⟩,
    .begin 0 ⟨⟨7⟩, .assign {}, {}⟩,
    .commit ⟨⟨7⟩, 0⟩]

/-- What the steps of the handovers are told. -/
def handoverAnswers : List Answer :=
  [.nothing,
    .handled ⟨⟨7⟩, .assign ⟨some "u1", none⟩, {}⟩
      (.ok [⟨⟨7⟩, .assigned ⟨some "u1", some ""⟩ .assigned "Assigned to: ", {}⟩]),
    .nothing, .nothing,
    .handled ⟨⟨7⟩, .create ⟨{}, none, {}⟩, {}⟩ (.ok [⟨⟨7⟩, .created ⟨{}, none, {}⟩, {}⟩]),
    .handled ⟨⟨7⟩, .assign ⟨some "u2", some "Ben"⟩, {}⟩ (.error (.versionConflict ⟨7⟩ 1 2)),
    .nothing,
    .handled ⟨⟨7⟩, .assign ⟨some "u2", some "Ben"⟩, {}⟩
      (.ok [⟨⟨7⟩, .assigned ⟨some "u2", some "Ben"⟩ .reassigned
        "Re-assigned from: , to: Ben", {}⟩]),
    .nothing,
    .handled ⟨⟨7⟩, .assign {}, {}⟩
      (.ok [⟨⟨7⟩, .assigned {} .unassigned "Un-assigned from: Ben", {}⟩])]

theorem handovers_are_linked :
    Ran (handovers.zipWith Observed.mk handoverAnswers) (Session.follow {} handovers) ∧
      Served (handovers.zipWith Observed.mk handoverAnswers) ∧
      Short (Session.follow {} handovers).store ∧
      Linked (some ⟨"u1", ""⟩)
        ⟨⟨some "u2", some "Ben"⟩, .reassigned, "Re-assigned from: , to: Ben"⟩ ∧
      Linked (some ⟨"u2", "Ben"⟩) ⟨{}, .unassigned, "Un-assigned from: Ben"⟩ ∧
      (Task.replay ⟨7⟩ ((Session.follow {} handovers).store.stream ⟨7⟩)).assignee = none := by
  have told : Session.observe {} handovers = handovers.zipWith Observed.mk handoverAnswers := by
    cbv
  have ran : Ran (handovers.zipWith Observed.mk handoverAnswers) (Session.follow {} handovers) := by
    rw [← told]
    exact ran_follow .start handovers
  have served : Served (handovers.zipWith Observed.mk handoverAnswers) := by
    simp [Served, handovers, handoverAnswers]
  have short : Short (Session.follow {} handovers).store := by
    intro id
    rw [stream_eq_additions ran]
    simp only [handovers, handoverAnswers, List.zipWith, additions, List.flatMap_cons,
      Observed.addition]
    split <;> simp [greatestVersion, UInt64.size]
  have chained : assignments ((Session.follow {} handovers).store.stream ⟨7⟩) =
      [⟨⟨some "u1", some ""⟩, .assigned, "Assigned to: "⟩,
        ⟨⟨some "u2", some "Ben"⟩, .reassigned, "Re-assigned from: , to: Ben"⟩,
        ⟨{}, .unassigned, "Un-assigned from: Ben"⟩] := by
    rw [stream_eq_additions ran]
    rfl
  obtain ⟨linked, _, _, held⟩ := assignments_form_a_chain ran served short ⟨7⟩
  rw [chained] at held
  exact ⟨ran, served, short, linked [_] _ [_] chained, linked [_, _] _ [] chained, held.symm⟩

end Docket.AssignmentChain
