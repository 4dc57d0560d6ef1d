import Docket.Proofs.Linearization

/-! Where nobody writes but the service, a stream is one decision after another, and each was made
of the very task that the events before it replay to. So an event can be judged where it stands:
it fits the task as it was right before it, whoever else was at work when it was decided. -/
namespace Docket.DecidedStreams
open Interleaving Linearization

/-- Nobody writes to the store directly. -/
def Served (past : List Observed) : Prop :=
  ∀ observed ∈ past, ∀ id expected events, observed.step ≠ .write id expected events

/-- A stream of whole decisions, each of a command on its task and made of what the stream before
it replays to. -/
inductive Decided (id : TaskId) : List Event → Prop where
  | start : Decided id []
  | next {stream : List Event} (earlier : Decided id stream) (command : Command)
      (own : command.task = id) :
      Decided id (stream ++ (Task.replay id stream).eventsFor command)

/-- A change that says about a task only what is so: an update changes something, and what is told
of an assignee or a queue is told against the one that the task has. -/
inductive Fits (task : Task) : Change → Prop where
  | created (creation : Creation) : Fits task (.created creation)
  | assigned (next : Option Assignee) :
      Fits task (.assigned (.ofRef? next) (describeAssignment task.assignee next).1
        (describeAssignment task.assignee next).2)
  | completed (date : Time.Instant) : Fits task (.completed date)
  | deleted (reason : Option String) (date : Time.Instant) : Fits task (.deleted reason date)
  | dueDate {date : Option Time.Instant} (differs : date ≠ task.dueDate) :
      Fits task (.dueDateUpdated date)
  | workQueue {next : Option WorkQueue} {details : String}
      (described : describeWorkQueueChange task.workQueue next = some details) :
      Fits task (.workQueueUpdated (.ofRef? next) details)

variable {past : List Observed} {session : Session} {step : Step} {task : Task}
variable {command : Command} {id : TaskId} {stream ahead before after : List Event} {event : Event}

private theorem first_of_single {first change : Change} {changes rest : List Change}
    (single : [first] = changes ++ change :: rest) : changes = [] ∧ change = first := by
  rcases List.singleton_eq_append_iff.mp single with ⟨none, same⟩ | ⟨_, more⟩
  · exact ⟨none, (List.cons.inj same).1⟩
  · cases more

/-- Of two changes that an update implies, that of the queue comes second. It was described before
the due date changed, by the queue that the task still has. -/
theorem fits_of_update {changes rest : List Change} {change : Change}
    {dueDate : Option Time.Instant} {workQueue : RefParts}
    (decision : task.changesForUpdate dueDate workQueue = changes ++ change :: rest)
    (author : Author) :
    Fits (task.applyAll (changes.map fun change => ⟨id, change, author⟩)) change := by
  unfold Task.changesForUpdate at decision
  cases described : describeWorkQueueChange task.workQueue workQueue.ref? with
  | none =>
    by_cases kept : dueDate = task.dueDate
    · simp [described, kept] at decision
    · simp only [described, if_neg kept, List.append_nil] at decision
      obtain ⟨rfl, rfl⟩ := first_of_single decision
      exact .dueDate kept
  | some details =>
    by_cases kept : dueDate = task.dueDate
    · simp only [described, if_pos kept, List.nil_append] at decision
      obtain ⟨rfl, rfl⟩ := first_of_single decision
      exact .workQueue described
    · simp only [described, if_neg kept, List.cons_append, List.nil_append] at decision
      rcases List.cons_eq_append_iff.mp decision with ⟨rfl, first⟩ | ⟨others, rfl, second⟩
      · obtain ⟨rfl, _⟩ := List.cons.inj first
        exact .dueDate kept
      · obtain ⟨rfl, rfl⟩ := first_of_single second
        exact .workQueue described

/-- Each change of a decision fits the task that the changes ahead of it lead to. -/
theorem fits_of_changes {changes rest : List Change} {change : Change} {action : Action}
    (decision : task.changesFor action = changes ++ change :: rest) (author : Author) :
    Fits (task.applyAll (changes.map fun change => ⟨id, change, author⟩)) change := by
  cases action with
  | create creation =>
    obtain ⟨rfl, rfl⟩ := first_of_single decision
    exact .created creation
  | assign assignee =>
    obtain ⟨rfl, rfl⟩ := first_of_single decision
    exact .assigned assignee.ref?
  | complete date =>
    obtain ⟨rfl, rfl⟩ := first_of_single decision
    exact .completed date
  | delete reason date =>
    obtain ⟨rfl, rfl⟩ := first_of_single decision
    exact .deleted reason date
  | update dueDate workQueue => exact fits_of_update decision author

theorem fits_of_decision {rest : List Event}
    (decision : task.eventsFor command = ahead ++ event :: rest) :
    Fits (task.applyAll ahead) event.change := by
  obtain ⟨changes, others, split, rfl, tail⟩ := List.map_eq_append_iff.mp decision
  obtain ⟨change, later, rfl, rfl, _⟩ := List.map_eq_cons_iff.mp tail
  exact fits_of_changes split command.author

/-- Every event of a stream of decisions fits the task that the events before it replay to. -/
theorem fits_of_decided (decided : Decided id stream) (split : stream = before ++ event :: after) :
    Fits (Task.replay id before) event.change := by
  induction decided generalizing before after with
  | start => simp at split
  | @next stream earlier command own ih =>
    rcases List.append_eq_append_iff.mp split with ⟨ahead, rfl, decision⟩ | ⟨rest, inside, decision⟩
    · have continued : Task.replay id (stream ++ ahead) = (Task.replay id stream).applyAll ahead :=
        Task.applyAll_append ..
      rw [continued]
      exact fits_of_decision decision
    · cases rest with
      | nil =>
        rw [List.append_nil] at inside
        subst inside
        have fits : Fits ((Task.replay id stream).applyAll []) event.change :=
          fits_of_decision decision.symm
        exact fits
      | cons first rest =>
        obtain ⟨rfl, _⟩ := List.cons.inj decision
        exact ih inside

/-- A step of the service adds nothing to a stream or a decision made of the whole of it. -/
theorem decided_take (informed : Informed session) (short : Short session.store)
    (served : ∀ id expected events, step ≠ .write id expected events)
    (decided : ∀ id, Decided id (session.store.stream id)) (id : TaskId) :
    Decided id ((session.take step).1.store.stream id) := by
  have unchanged (none : Observed.addition id ⟨step, (session.take step).2⟩ = []) :
      Decided id ((session.take step).1.store.stream id) := by
    rw [stream_take, none, List.append_nil]
    exact decided id
  cases answer : (session.take step).2 with
  | nothing | stream | task => exact unchanged (by rw [answer]; cases step <;> rfl)
  | written result =>
    refine unchanged ?_
    rw [answer]
    cases step with
    | write id expected events => exact absurd rfl (served id expected events)
    | _ => cases result <;> rfl
  | handled command result =>
    cases result with
    | error error => exact unchanged (by rw [answer, addition_handled_error])
    | ok events =>
      obtain ⟨answered, _⟩ := acknowledged_at_once informed short answer
      by_cases own : command.task = id
      · subst own
        rw [stream_take, answer, addition_handled_ok, if_pos rfl, handle_answers_decision answered]
        exact .next (decided command.task) command rfl
      · exact unchanged (by rw [answer, addition_handled_ok, if_neg own])

/-- Whatever the order of the steps, the streams that the service has written are streams of
decisions: what a call has decided of a stream that others have added to since is refused. -/
theorem decided_of_ran (ran : Ran past session) (served : Served past)
    (short : Short session.store) (id : TaskId) : Decided id (session.store.stream id) := by
  induction ran generalizing id with
  | start =>
    rw [Store.stream_empty]
    exact .start
  | @next past session ran step ih =>
    have shortBefore := short_of_step short
    have servedBefore : Served past := fun observed member =>
      served observed (List.mem_append_left _ member)
    exact decided_take (informed_of_ran ran) shortBefore
      (served _ (List.mem_append_right _ List.mem_cons_self))
      (ih servedBefore shortBefore) id

end Docket.DecidedStreams
