import Docket.Proofs.ConflictDetection

/-! Tasks do not interfere. A step reads and writes the stream of the task it is addressed to and
nothing else that another task could notice, so what has been done to a task and what was answered
can be told from the steps addressed to it alone. Whatever else goes on is as if it were not. -/
namespace Docket.NonInterference
open ConflictDetection Interleaving StreamLog

/-- The steps of a schedule that are addressed to a task. -/
def stepsOf (id : TaskId) (steps : List Step) : List Step :=
  steps.filter fun step => addressee step = id

/-- The steps of a run that are addressed to a task, with their answers. -/
def partOf (id : TaskId) (past : List Observed) : List Observed :=
  past.filter fun observed => addressee observed.step = id

/-- What the commands of a run were answered, in the order of their answers. -/
def handled (past : List Observed) : List (Command × Except StoreError (List Event)) :=
  past.filterMap fun observed =>
    match observed.answer with
    | .handled command result => some (command, result)
    | _ => none

/-- Two sessions in which a task has the same stream and the same calls in flight. -/
structure Alike (id : TaskId) (one other : Session) : Prop where
  stream : one.store.stream id = other.store.stream id
  flights : ∀ call, call.task = id → one.inFlight call = other.inFlight call

/-- Two commands that get the same answers and leave the same streams in either order. -/
structure Commute (store : Store) (first second : Command) : Prop where
  one : ((store.handle .none second).store.handle .none first).result =
    (store.handle .none first).result
  other : ((store.handle .none first).store.handle .none second).result =
    (store.handle .none second).result
  streams : ∀ id, ((store.handle .none first).store.handle .none second).store.stream id =
    ((store.handle .none second).store.handle .none first).store.stream id

variable {id : TaskId} {one other session : Session} {step : Step} {call : Call}
variable {pending : Pending} {command : Command} {store later : Store}

/-- How an append is answered, and what the stream holds afterwards, hangs on the stream alone. -/
theorem append_alike (same : store.stream id = later.stream id) (expected : UInt64)
    (events : List Event) :
    (∃ error, store.append id expected events = .error error ∧
        later.append id expected events = .error error) ∨
      ∃ after ending, store.append id expected events = .ok after ∧
        later.append id expected events = .ok ending ∧ after.stream id = ending.stream id := by
  have version : store.version id = later.version id := congrArg versionOf same
  unfold Store.append
  rw [version]
  split
  · exact .inl ⟨_, rfl, rfl⟩
  · split
    · exact .inr ⟨_, _, rfl, rfl, by simp only [Store.stream_extend_self, same]⟩
    · exact .inl ⟨_, rfl, rfl⟩

theorem commit_alike (same : store.stream pending.command.task = later.stream pending.command.task) :
    (pending.commit .none store).result = (pending.commit .none later).result ∧
      (pending.commit .none store).store.stream pending.command.task =
        (pending.commit .none later).store.stream pending.command.task := by
  unfold Pending.commit
  split
  · exact ⟨rfl, same⟩
  · simp only [Disturbance.append_none]
    rcases append_alike same pending.snapshot.version pending.events with
      ⟨error, refused, refusedToo⟩ | ⟨after, ending, appended, appendedToo, stream⟩
    · simp only [refused, refusedToo, same, and_self]
    · simp only [appended, appendedToo, stream, and_self]

theorem handle_alike (same : store.stream command.task = later.stream command.task) :
    (store.handle .none command).result = (later.handle .none command).result ∧
      (store.handle .none command).store.stream command.task =
        (later.handle .none command).store.stream command.task := by
  have begun : command.begin (store.stream command.task) =
      command.begin (later.stream command.task) := congrArg command.begin same
  simp only [Store.handle, Disturbance.load_none, begun]
  exact @commit_alike (command.begin (later.stream command.task)) _ _ same

/-- The last step of a call is answered alike where its task finds the same. -/
theorem finish_alike (alike : Alike id one other) (addressed : pending.command.task = id) :
    (one.finish call pending).2 = (other.finish call pending).2 ∧
      Alike id (one.finish call pending).1 (other.finish call pending).1 := by
  subst addressed
  obtain ⟨result, stream⟩ := commit_alike alike.stream
  refine ⟨congrArg (Answer.handled pending.command) result, stream, fun another own => ?_⟩
  simp only [Session.finish, Function.update_apply, alike.flights another own]

/-- A step addressed to a task is answered alike where the task finds the same, and leaves it the
same. -/
theorem take_alike (alike : Alike id one other) (named : Named one) (own : addressee step = id) :
    (one.take step).2 = (other.take step).2 ∧
      Alike id (one.take step).1 (other.take step).1 := by
  subst own
  cases step with
  | read id => exact ⟨congrArg Answer.stream alike.stream, alike⟩
  | view id =>
    have loaded := congrArg (fun stream => Answer.task (.ok (Task.replay id stream))) alike.stream
    exact ⟨loaded, alike⟩
  | write id expected events =>
    have stream : one.store.stream id = other.store.stream id := alike.stream
    rcases append_alike stream expected events with
      ⟨error, refused, refusedToo⟩ | ⟨after, ending, appended, appendedToo, stream⟩
    · simp only [Session.take, refused, refusedToo, true_and]
      exact alike
    · simp only [Session.take, appended, appendedToo, true_and]
      exact ⟨stream, alike.flights⟩
  | begin number command =>
    have flight := alike.flights ⟨command.task, number⟩ rfl
    have stream : one.store.stream command.task = other.store.stream command.task := alike.stream
    simp only [Session.take, addressee, flight, stream]
    split
    · exact ⟨rfl, alike⟩
    · split
      · exact finish_alike alike rfl
      · refine ⟨rfl, stream, fun another own => ?_⟩
        simp only [Function.update_apply, alike.flights another own]
  | commit call =>
    have flight := alike.flights call rfl
    simp only [Session.take, addressee, ← flight]
    split
    · rename_i pending flying
      exact finish_alike alike (named call pending flying)
    · exact ⟨rfl, alike⟩

/-- A step addressed to another task leaves a task what it was. -/
theorem take_elsewhere (named : Named session) (foreign : addressee step ≠ id) :
    Alike id (session.take step).1 session := by
  have orderly : Orderly session.store (session.take step).1.store (addressee step)
      (Refused (session.take step).2) := orderly_of_append (take_appends named step)
  refine ⟨orderly.elsewhere id foreign.symm, fun call own => ?_⟩
  -- The only call that a step can begin or land is one of its own task.
  have apart {another : Call} (addressed : another.task = addressee step) : call ≠ another := by
    rintro rfl
    exact foreign (addressed.symm.trans own)
  cases step with
  | read | view => rfl
  | write stream expected events =>
    simp only [Session.take]
    split <;> rfl
  | begin number command =>
    simp only [Session.take]
    split
    · rfl
    · split
      · exact Function.update_of_ne (@apart ⟨command.task, number⟩ rfl) none session.inFlight
      · exact Function.update_of_ne (@apart ⟨command.task, number⟩ rfl) _ session.inFlight
  | commit another =>
    simp only [Session.take]
    split
    · exact Function.update_of_ne (apart rfl) none session.inFlight
    · rfl

theorem Alike.trans {last : Session} (first : Alike id one other) (second : Alike id other last) :
    Alike id one last :=
  ⟨first.stream.trans second.stream, fun call own =>
    (first.flights call own).trans (second.flights call own)⟩

/-- The part of a run that is addressed to a task is a run of its own, and leaves the task the
same. -/
theorem partOf_observe (alike : Alike id one other) (named : Named one) (steps : List Step) :
    partOf id (one.observe steps) = other.observe (stepsOf id steps) ∧
      Alike id (one.follow steps) (other.follow (stepsOf id steps)) := by
  -- The two sessions stay alike: steps of the task are taken in both, others change neither view.
  induction steps generalizing one other with
  | nil => exact ⟨rfl, alike⟩
  | cons step steps ih =>
    by_cases own : addressee step = id
    · obtain ⟨answer, after⟩ := take_alike alike named own
      obtain ⟨answers, final⟩ := ih after (named_take named step)
      have kept : stepsOf id (step :: steps) = step :: stepsOf id steps :=
        List.filter_cons_of_pos (decide_eq_true own)
      have told : partOf id (one.observe (step :: steps)) =
          ⟨step, (one.take step).2⟩ :: partOf id ((one.take step).1.observe steps) :=
        List.filter_cons_of_pos (decide_eq_true own)
      rw [told, kept, answer, answers]
      exact ⟨rfl, final⟩
    · obtain ⟨answers, final⟩ := ih ((take_elsewhere named own).trans alike) (named_take named step)
      have left : stepsOf id (step :: steps) = stepsOf id steps :=
        List.filter_cons_of_neg (by simpa using own)
      have told : partOf id (one.observe (step :: steps)) =
          partOf id ((one.take step).1.observe steps) :=
        List.filter_cons_of_neg (by simpa using own)
      rw [told, left, answers]
      exact ⟨rfl, final⟩

/-- A command with nobody else at its stream is answered its decision, which is then the end of the
stream. -/
theorem finish_undisturbed (session : Session) (call : Call) (command : Command) :
    (session.finish call (command.begin (session.store.stream command.task))).2 =
        .handled command (.ok (decision command (session.store.stream command.task))) ∧
      (session.finish call (command.begin (session.store.stream command.task))).1.store.stream
          command.task =
        session.store.stream command.task ++
          decision command (session.store.stream command.task) := by
  have ended : Ending command.task (session.store.stream command.task) []
      (decision command (session.store.stream command.task)) Disturbance.none.failAppend
      ((command.begin (session.store.stream command.task)).commit .none session.store).result
      (((command.begin (session.store.stream command.task)).commit .none
        session.store).store.stream command.task) :=
    ending_of_commit (List.append_nil _).symm fun others => absurd rfl others
  have answered := ended.ok_of_alone rfl rfl
  refine ⟨congrArg (Answer.handled command) answered, ?_⟩
  rcases ended.added_or_kept with ⟨_, grown⟩ | ⟨⟨error, refused⟩, _⟩
  · exact grown
  · cases answered.symm.trans refused

/-- Of the two steps of a command, one right after the other, just one answers it: the load where
nothing was decided, and else the append. -/
theorem take_command {number : Nat} (free : session.inFlight ⟨command.task, number⟩ = none) :
    ((session.take (.begin number command)).2 =
          .handled command (.ok (decision command (session.store.stream command.task))) ∧
        ((session.take (.begin number command)).1.take (.commit ⟨command.task, number⟩)).2 =
          .nothing ∨
      (session.take (.begin number command)).2 = .nothing ∧
        ((session.take (.begin number command)).1.take (.commit ⟨command.task, number⟩)).2 =
          .handled command (.ok (decision command (session.store.stream command.task)))) ∧
      ((session.take (.begin number command)).1.take
          (.commit ⟨command.task, number⟩)).1.store.stream command.task =
        session.store.stream command.task ++
          decision command (session.store.stream command.task) := by
  let call : Call := ⟨command.task, number⟩
  let pending := command.begin (session.store.stream command.task)
  -- Without events the call lands at once, and its append then finds nothing in flight.
  by_cases nothing : pending.events.isEmpty
  · obtain ⟨answer, stream⟩ := finish_undisturbed session call command
    have begun : session.take (.begin number command) = session.finish call pending := by
      simp only [Session.take, free, nothing, pending, call, ↓reduceIte]
    have landed : (session.finish call pending).1.inFlight call = none := Function.update_self ..
    have ended : (session.finish call pending).1.take (.commit call) =
        ((session.finish call pending).1, .nothing) := by
      simp only [Session.take, landed]
    rw [begun, ended]
    exact ⟨.inl ⟨answer, rfl⟩, stream⟩
  · let flying : Session :=
      { session with inFlight := Function.update session.inFlight call (some pending) }
    obtain ⟨answer, stream⟩ := finish_undisturbed flying call command
    have begun : session.take (.begin number command) = (flying, .nothing) := by
      simp only [Session.take, free, nothing, pending, call, flying]
      rfl
    have waiting : flying.inFlight call = some pending := Function.update_self ..
    have ended : flying.take (.commit call) = flying.finish call pending := by
      simp only [Session.take, waiting]
    rw [begun, ended]
    exact ⟨.inr ⟨rfl, answer⟩, stream⟩

/-- A command on a task that no other step is addressed to is answered its decision, once, and adds
it to the stream, whatever is done to other tasks in between. -/
theorem command_undisturbed {number : Nat} {steps : List Step} (named : Named session)
    (free : session.inFlight ⟨command.task, number⟩ = none)
    (own : stepsOf command.task steps = [.begin number command, .commit ⟨command.task, number⟩]) :
    handled (partOf command.task (session.observe steps)) =
        [(command, .ok (decision command (session.store.stream command.task)))] ∧
      (session.follow steps).store.stream command.task =
        session.store.stream command.task ++
          decision command (session.store.stream command.task) := by
  obtain ⟨answers, final⟩ :=
    @partOf_observe command.task _ _ ⟨rfl, fun _ _ => rfl⟩ named steps
  rw [answers, final.stream, own]
  obtain ⟨answered, stream⟩ := take_command free
  refine ⟨?_, stream⟩
  rcases answered with ⟨first, second⟩ | ⟨first, second⟩ <;>
    simp only [Session.observe, handled, List.filterMap_cons, first, second, List.filterMap_nil]

theorem handle_away (store : Store) (command : Command) {other : TaskId}
    (differs : other ≠ command.task) :
    (store.handle .none command).store.stream other = store.stream other :=
  handle_elsewhere (fun _ member => absurd member List.not_mem_nil) differs

theorem commute_of_ne {first second : Command} (apart : first.task ≠ second.task) :
    Commute store first second := by
  have first_alike := handle_alike (handle_away store second apart)
  have second_alike := handle_alike (handle_away store first apart.symm)
  refine ⟨first_alike.1, second_alike.1, fun id => ?_⟩
  by_cases isFirst : id = first.task
  · subst isFirst
    rw [handle_away _ second apart, first_alike.2]
  · rw [handle_away _ first isFirst]
    by_cases isSecond : id = second.task
    · subst isSecond
      exact second_alike.2
    · rw [handle_away _ second isSecond, handle_away _ second isSecond,
        handle_away _ first isFirst]

theorem named_follow (before : List Step) : Named (Session.follow {} before) :=
  named_of_ran (ran_follow .start before)

/-- Whatever is done to other tasks, and whenever, makes no difference to a task: neither to what
its steps are answered nor to its stream. So the order between steps of different tasks does not
matter, a command is in nobody's way but those who address its own task, and commands on different
tasks come to the same in either order. -/
theorem tasks_do_not_interfere :
    (∀ id steps, partOf id (Session.observe {} steps) = Session.observe {} (stepsOf id steps) ∧
      (Session.follow {} steps).store.stream id =
        (Session.follow {} (stepsOf id steps)).store.stream id) ∧
    (∀ steps others, (∀ id, stepsOf id steps = stepsOf id others) → ∀ id,
      partOf id (Session.observe {} steps) = partOf id (Session.observe {} others) ∧
        (Session.follow {} steps).store.stream id = (Session.follow {} others).store.stream id) ∧
    (∀ before number command steps,
      (Session.follow {} before).inFlight ⟨command.task, number⟩ = none →
      stepsOf command.task steps = [.begin number command, .commit ⟨command.task, number⟩] →
        handled (partOf command.task ((Session.follow {} before).observe steps)) =
            [(command, .ok (decision command
              ((Session.follow {} before).store.stream command.task)))] ∧
          ((Session.follow {} before).follow steps).store.stream command.task =
            (Session.follow {} before).store.stream command.task ++
              decision command ((Session.follow {} before).store.stream command.task)) ∧
    ∀ (store : Store) (first second : Command), first.task ≠ second.task →
      Commute store first second := by
  have alone (id : TaskId) (steps : List Step) :=
    @partOf_observe id {} {} ⟨rfl, fun _ _ => rfl⟩ named_start steps
  refine ⟨fun id steps => ?_, fun steps others same id => ?_,
    fun before number command steps free own => ?_, fun store first second apart => ?_⟩
  · exact ⟨(alone id steps).1, (alone id steps).2.stream⟩
  · obtain ⟨answers, final⟩ := alone id steps
    obtain ⟨answersOther, finalOther⟩ := alone id others
    rw [answers, answersOther, final.stream, finalOther.stream, same id]
    exact ⟨rfl, rfl⟩
  · exact command_undisturbed (named_follow before) free own
  · exact commute_of_ne apart

/-- A command that gives a task to somebody. -/
def assignment : Command := ⟨⟨7⟩, .assign ⟨some "u1", some "Ada"⟩, {}⟩

/-- A command that completes another task. -/
def closing : Command := ⟨⟨8⟩, .complete ⟨.first, .midnight⟩, {}⟩

/-- One task is completed while the other is being given to somebody. -/
def interleaved : List Step :=
  [.begin 0 assignment, .begin 0 closing, .commit ⟨⟨8⟩, 0⟩, .commit ⟨⟨7⟩, 0⟩]

/-- The same two commands, one after the other. -/
def inTurn : List Step :=
  [.begin 0 assignment, .commit ⟨⟨7⟩, 0⟩, .begin 0 closing, .commit ⟨⟨8⟩, 0⟩]

theorem stepsOf_interleaved (id : TaskId) : stepsOf id interleaved = stepsOf id inTurn := by
  by_cases given : assignment.task = id
  · subst given
    rfl
  · by_cases completed : closing.task = id
    · subst completed
      rfl
    · have stays (step : Step) (listed : step ∈ interleaved ∨ step ∈ inTurn) :
          addressee step ≠ id := by
        simp only [interleaved, inTurn, List.mem_cons, List.not_mem_nil, or_false] at listed
        rcases listed with (rfl | rfl | rfl | rfl) | (rfl | rfl | rfl | rfl)
        all_goals assumption
      have neither (steps : List Step) (others : ∀ step ∈ steps, addressee step ≠ id) :
          stepsOf id steps = [] :=
        List.filter_eq_nil_iff.mpr fun step listed => by simpa using others step listed
      rw [neither interleaved fun step listed => stays step (.inl listed),
        neither inTurn fun step listed => stays step (.inr listed)]

theorem assignment_ignores_closing :
    (∀ id, stepsOf id interleaved = stepsOf id inTurn) ∧
      assignment.task ≠ closing.task ∧
      (Session.follow {} interleaved).store.stream ⟨8⟩ =
        (Session.follow {} inTurn).store.stream ⟨8⟩ ∧
      handled (partOf ⟨7⟩ (Session.observe {} interleaved)) =
        [(assignment, .ok [⟨⟨7⟩, .assigned ⟨some "u1", some "Ada"⟩ .assigned "Assigned to: Ada",
          {}⟩])] ∧
      Commute .empty assignment closing := by
  obtain ⟨_, reordered, undisturbed, commute⟩ := tasks_do_not_interfere
  have apart : assignment.task ≠ closing.task := by decide
  have own : stepsOf assignment.task interleaved =
      [.begin 0 assignment, .commit ⟨assignment.task, 0⟩] := by
    simp [stepsOf, interleaved, addressee, assignment, closing]
  have decided : decision assignment (Store.empty.stream ⟨7⟩) =
      [⟨⟨7⟩, .assigned ⟨some "u1", some "Ada"⟩ .assigned "Assigned to: Ada", {}⟩] := by
    rw [Store.stream_empty]
    decide
  refine ⟨stepsOf_interleaved, apart, (reordered _ _ stepsOf_interleaved ⟨8⟩).2, ?_,
    commute .empty assignment closing apart⟩
  rw [← decided]
  exact (undisturbed [] 0 assignment interleaved rfl own).1

end Docket.NonInterference
