import Docket.Service
import Mathlib.Data.List.Induction
import Mathlib.Logic.Function.Basic

/-! Many use one store at once: some call the service, others read or write the store
directly. A command is carried out in two steps, and the steps of all of them may follow one
another in any order. A run records each step with its answer; what a run has added to a
stream is told from the answers alone. -/
namespace Docket.Interleaving

/-- The name of a call of the service: the task addressed and a number that the caller picks. -/
structure Call where
  task : TaskId
  number : Nat
deriving DecidableEq

/-- One step, which nothing comes in between of. -/
inductive Step where
  | read (id : TaskId)
  | view (id : TaskId)
  | write (id : TaskId) (expected : UInt64) (events : List Event)
  | begin (number : Nat) (command : Command)
  | commit (call : Call)

/-- What the one who takes a step learns from it. A call gets its answer with its last step. -/
inductive Answer where
  | nothing
  | stream (events : List Event)
  | task (result : Except StoreError Task)
  | written (result : Except StoreError Unit)
  | handled (command : Command) (result : Except StoreError (List Event))

/-- The store together with the calls that have loaded a stream and not yet appended to it. -/
structure Session where
  store : Store := .empty
  inFlight : Call → Option Pending := fun _ => none

/-- The last step of a call, after which it is no longer in flight. -/
def Session.finish (session : Session) (call : Call) (pending : Pending) : Session × Answer :=
  let outcome := pending.commit .none session.store
  ({ store := outcome.store, inFlight := Function.update session.inFlight call none },
    .handled pending.command outcome.result)

/-- Takes one step. A command that implies no events ends with its load; all others remain in
flight until their append. A name in use cannot begin another call, and a call that is not in
flight cannot append. -/
def Session.take (session : Session) : Step → Session × Answer
  | .read id => (session, .stream (session.store.stream id))
  | .view id => (session, .task (session.store.loadTask .none id).result)
  | .write id expected events =>
    match session.store.append id expected events with
    | .ok after => ({ session with store := after }, .written (.ok ()))
    | .error error => (session, .written (.error error))
  | .begin number command =>
    let call : Call := ⟨command.task, number⟩
    let pending := command.begin (session.store.stream command.task)
    match session.inFlight call with
    | some _ => (session, .nothing)
    | none =>
      if pending.events.isEmpty then session.finish call pending
      else
        ({ session with inFlight := Function.update session.inFlight call (some pending) },
          .nothing)
  | .commit call =>
    match session.inFlight call with
    | some pending => session.finish call pending
    | none => (session, .nothing)

/-- A step with its answer. -/
structure Observed where
  step : Step
  answer : Answer

/-- The steps taken so far, the earliest first, and the session that they have led to. -/
inductive Ran : List Observed → Session → Prop where
  | start : Ran [] {}
  | next {past : List Observed} {session : Session} (ran : Ran past session) (step : Step) :
      Ran (past ++ [⟨step, (session.take step).2⟩]) (session.take step).1

/-- The steps of a schedule with their answers. -/
def Session.observe : Session → List Step → List Observed
  | _, [] => []
  | session, step :: steps => ⟨step, (session.take step).2⟩ :: (session.take step).1.observe steps

/-- The session that a schedule leads to. -/
def Session.follow (session : Session) (steps : List Step) : Session :=
  steps.foldl (fun session step => (session.take step).1) session

/-- Steps can be taken in whatever order. -/
theorem ran_follow {past : List Observed} {session : Session} (ran : Ran past session)
    (steps : List Step) : Ran (past ++ session.observe steps) (session.follow steps) := by
  induction steps generalizing past session with
  | nil => simpa [Session.observe, Session.follow] using ran
  | cons step steps ih => simpa [Session.observe, Session.follow] using ih (ran.next step)

/-- The events that an observed step has added to the stream of a task: those answered to a
command, or those that a writer has been told are written. -/
def Observed.addition (id : TaskId) : Observed → List Event
  | ⟨_, .handled command (.ok events)⟩ => if command.task = id then events else []
  | ⟨.write stream _ events, .written (.ok _)⟩ => if stream = id then events else []
  | _ => []

@[simp] theorem addition_handled_ok (id : TaskId) (step : Step) (command : Command)
    (events : List Event) :
    Observed.addition id ⟨step, .handled command (.ok events)⟩ =
      if command.task = id then events else [] := rfl

@[simp] theorem addition_handled_error (id : TaskId) (step : Step) (command : Command)
    (error : StoreError) :
    Observed.addition id ⟨step, .handled command (.error error)⟩ = [] := by
  cases step <;> rfl

/-- The events that a run has added to the stream of a task, in the order of its steps. -/
def additions (id : TaskId) (past : List Observed) : List Event :=
  past.flatMap (Observed.addition id)

@[simp] theorem additions_append (id : TaskId) (past later : List Observed) :
    additions id (past ++ later) = additions id past ++ additions id later := by
  simp [additions]

@[simp] theorem additions_cons (id : TaskId) (observed : Observed) (later : List Observed) :
    additions id (observed :: later) = observed.addition id ++ additions id later := by
  simp [additions]

@[simp] theorem additions_nil (id : TaskId) : additions id [] = [] := rfl

/-- The second step of a command either leaves the store alone, because nothing was decided or the
append was refused, or appends what was decided and answers it. -/
theorem commit_cases (pending : Pending) (store : Store) :
    ((pending.commit .none store).store = store ∧
        ((pending.events = [] ∧ (pending.commit .none store).result = .ok []) ∨
          ∃ error, (pending.commit .none store).result = .error error)) ∨
      (store.append pending.command.task pending.snapshot.version pending.events =
          .ok (pending.commit .none store).store ∧
        (pending.commit .none store).result = .ok pending.events) := by
  unfold Pending.commit
  by_cases empty : pending.events = []
  · simp [empty]
  · cases appended : store.append pending.command.task pending.snapshot.version pending.events with
    | error error => simp [empty, appended]
    | ok after => simp [empty, appended]

theorem stream_finish (session : Session) (call : Call) (pending : Pending) (step : Step)
    (id : TaskId) :
    (session.finish call pending).1.store.stream id =
      session.store.stream id ++ Observed.addition id ⟨step, (session.finish call pending).2⟩ := by
  simp only [Session.finish]
  rcases commit_cases pending session.store with
    ⟨same, ⟨_, answer⟩ | ⟨error, answer⟩⟩ | ⟨appended, answer⟩
  · simp [same, answer]
  · simp [same, answer]
  · rw [Store.stream_of_append appended, answer, addition_handled_ok]

/-- Every step adds to the streams just what its answer tells. -/
theorem stream_take (session : Session) (step : Step) (id : TaskId) :
    (session.take step).1.store.stream id =
      session.store.stream id ++ Observed.addition id ⟨step, (session.take step).2⟩ := by
  cases step with
  | read stream => simp [Session.take, Observed.addition]
  | view stream => simp [Session.take, Observed.addition]
  | write stream expected events =>
    cases appended : session.store.append stream expected events with
    | error error => simp [Session.take, appended, Observed.addition]
    | ok after => simp [Session.take, appended, Observed.addition, Store.stream_of_append appended]
  | begin number command =>
    simp only [Session.take]
    split
    · simp [Observed.addition]
    · split
      · exact stream_finish ..
      · simp [Observed.addition]
  | commit call =>
    simp only [Session.take]
    split
    · exact stream_finish ..
    · simp [Observed.addition]

/-- A stream holds exactly what the run has added to it. -/
theorem stream_eq_additions {past : List Observed} {session : Session} (ran : Ran past session)
    (id : TaskId) : session.store.stream id = additions id past := by
  induction ran with
  | start => simp
  | next ran step ih => simp [stream_take, ih]

/-- A call is in flight either from before a step or because the step has begun it, with the
stream as it stands and with events to append. -/
theorem inFlight_take {session : Session} {step : Step} {call : Call} {pending : Pending}
    (flying : (session.take step).1.inFlight call = some pending) :
    session.inFlight call = some pending ∨
      ∃ command number, step = .begin number command ∧ call = ⟨command.task, number⟩ ∧
        pending = command.begin (session.store.stream command.task) ∧ pending.events ≠ [] := by
  have kept {other : Call} {value : Option Pending} (differs : other ≠ call)
      (held : Function.update session.inFlight other value call = some pending) :
      session.inFlight call = some pending := by
    rwa [Function.update_of_ne differs.symm] at held
  have finished {other : Call} (held : Function.update session.inFlight other none call =
      some pending) : session.inFlight call = some pending := by
    refine kept (fun same => ?_) held
    simp [same] at held
  cases step with
  | read stream => exact .inl flying
  | view stream => exact .inl flying
  | write stream expected events =>
    refine .inl ?_
    cases appended : session.store.append stream expected events <;>
      simpa [Session.take, appended] using flying
  | begin number command =>
    simp only [Session.take] at flying
    split at flying
    · exact .inl flying
    · split at flying
      · exact .inl (finished flying)
      · rename_i decided
        by_cases same : (⟨command.task, number⟩ : Call) = call
        · subst same
          simp only [Function.update_self, Option.some.injEq] at flying
          subst flying
          exact .inr ⟨command, number, rfl, rfl, rfl, by simpa using decided⟩
        · exact .inl (kept same flying)
  | commit other =>
    simp only [Session.take] at flying
    split at flying
    · exact .inl (finished flying)
    · exact .inl flying

/-- An answer to a command comes from its second step, taken for a call in flight or right after
the load. -/
theorem handled_take {session : Session} {step : Step} {command : Command}
    {result : Except StoreError (List Event)}
    (answered : (session.take step).2 = .handled command result) :
    ∃ pending, pending.command = command ∧
      ((∃ call, session.inFlight call = some pending) ∨
        pending = command.begin (session.store.stream command.task)) ∧
      result = (pending.commit .none session.store).result ∧
      (session.take step).1.store = (pending.commit .none session.store).store := by
  cases step with
  | read stream => simp [Session.take] at answered
  | view stream => simp [Session.take] at answered
  | write stream expected events =>
    cases appended : session.store.append stream expected events <;>
      simp [Session.take, appended] at answered
  | begin number other =>
    simp only [Session.take] at answered ⊢
    split at answered
    · simp at answered
    · split at answered
      · simp only [Session.finish, Answer.handled.injEq] at answered
        obtain ⟨rfl, rfl⟩ := answered
        refine ⟨other.begin (session.store.stream other.task), rfl, .inr rfl, rfl, ?_⟩
        simp_all [Session.finish]
      · simp at answered
  | commit call =>
    simp only [Session.take] at answered ⊢
    split at answered
    · rename_i pending flying
      simp only [Session.finish, Answer.handled.injEq] at answered
      obtain ⟨rfl, rfl⟩ := answered
      exact ⟨pending, rfl, .inl ⟨call, flying⟩, rfl, by simp [Session.finish]⟩
    · simp at answered

theorem ran_concat {past : List Observed} {observed : Observed} {session : Session}
    (ran : Ran (past ++ [observed]) session) :
    ∃ earlier step, Ran past earlier ∧ observed = ⟨step, (earlier.take step).2⟩ ∧
      session = (earlier.take step).1 := by
  generalize whole : past ++ [observed] = steps at ran
  cases ran with
  | start => simp at whole
  | @next others earlier ran step =>
    obtain ⟨rfl, same⟩ := List.append_inj' whole rfl
    exact ⟨earlier, step, ran, List.singleton_inj.mp same, rfl⟩

/-- Each step of a run was taken in a session that the steps before it had led to. -/
theorem ran_split {before after : List Observed} {observed : Observed} {session : Session}
    (ran : Ran (before ++ observed :: after) session) :
    ∃ earlier step, Ran before earlier ∧ observed = ⟨step, (earlier.take step).2⟩ := by
  induction after using List.reverseRecOn generalizing session with
  | nil =>
    obtain ⟨earlier, step, ran, same, _⟩ := ran_concat ran
    exact ⟨earlier, step, ran, same⟩
  | append_singleton after last ih =>
    have whole : before ++ observed :: (after ++ [last]) = (before ++ observed :: after) ++ [last] := by
      simp
    rw [whole] at ran
    obtain ⟨_, _, ran, _, _⟩ := ran_concat ran
    exact ih ran

end Docket.Interleaving
