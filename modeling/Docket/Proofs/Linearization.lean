import Docket.Proofs.Interleaving
import Mathlib

/-! However the steps of many calls and writers are interleaved, what they have been told is
what one after another would have been told. The version of a stream says how many events it
holds, and a call appends only where the stream still has the version that it has loaded; so
the events it answers were decided against the very stream they now follow. -/
namespace Docket.Linearization
open Interleaving

/-- Every stream is shorter than the greatest version, so that versions tell lengths apart. -/
def Short (store : Store) : Prop := ∀ id, (store.stream id).length < greatestVersion

/-- The snapshot of a call is what a beginning of the stream of its task replays to. -/
def Saw (pending : Pending) (stream : List Event) : Prop :=
  ∃ seen, seen <+: stream ∧ pending = pending.command.begin seen

/-- Each call in flight has seen a beginning of its stream and has something to append. -/
def Informed (session : Session) : Prop :=
  ∀ call pending, session.inFlight call = some pending →
    Saw pending (session.store.stream pending.command.task) ∧ pending.events ≠ []

/-- Whether a step has answered an operation with success. -/
def acknowledged : Observed → Bool
  | ⟨_, .handled _ (.ok _)⟩ => true
  | ⟨.write _ _ _, .written (.ok _)⟩ => true
  | _ => false

/-- Operations carried out one after another, each from its load to its append before the next
begins, all of them with success. -/
inductive Serial : List Observed → Store → Prop where
  | start : Serial [] .empty
  | handled {past : List Observed} {store : Store} {command : Command} {events : List Event}
      (earlier : Serial past store) (step : Step)
      (answered : (store.handle .none command).result = .ok events) :
      Serial (past ++ [⟨step, .handled command (.ok events)⟩]) (store.handle .none command).store
  | written {past : List Observed} {store later : Store} {id : TaskId} {expected : UInt64}
      {events : List Event} (earlier : Serial past store)
      (appended : store.append id expected events = .ok later) :
      Serial (past ++ [⟨.write id expected events, .written (.ok ())⟩]) later

/-- What a run has to show for its answers and for the store that it leaves behind. -/
structure Linearized (past : List Observed) (store : Store) : Prop where
  /-- Each stream is the acknowledged lists of events for it, whole and in the order of their
  answers, and nothing else. -/
  streams : ∀ id, store.stream id = additions id past
  /-- What a command has answered stands in one piece in its stream, and is what the command
  implies for the task that the part of the stream before it has made. -/
  decisions : ∀ before step command events after,
    past = before ++ ⟨step, .handled command (.ok events)⟩ :: after →
      store.stream command.task =
          additions command.task before ++ events ++ additions command.task after ∧
        events = (Task.replay command.task (additions command.task before)).eventsFor command
  /-- The acknowledged operations, carried out one after another in the order of their answers,
  get the same answers and leave the same store. -/
  serial : Serial (past.filter acknowledged) store

variable {past before after : List Observed} {session : Session} {step : Step}
variable {command : Command} {events : List Event} {store : Store}

/-- Streams that are short after a step were short before it. -/
theorem short_of_step (short : Short (session.take step).1.store) : Short session.store := by
  intro id
  have bound := short id
  rw [stream_take, List.length_append] at bound
  omega

private theorem saw_longer {pending : Pending} {stream longer : List Event} (saw : Saw pending stream)
    (included : stream <+: longer) : Saw pending longer := by
  obtain ⟨seen, beginning, loaded⟩ := saw
  exact ⟨seen, beginning.trans included, loaded⟩

/-- A beginning with the version of a short stream is the whole stream. -/
theorem prefix_eq_of_version {seen stream : List Event} (beginning : seen <+: stream)
    (short : stream.length < greatestVersion) (same : versionOf stream = versionOf seen) :
    seen = stream := by
  have lengths := congrArg UInt64.toNat same
  rw [toNat_versionOf, toNat_versionOf] at lengths
  have shorter := beginning.length_le
  exact beginning.eq_of_length (by omega)

/-- A step takes nothing away from what a call has seen, and a call that it begins has seen the
stream as it stands. -/
theorem informed_take (informed : Informed session) (step : Step) :
    Informed (session.take step).1 := by
  intro call pending flying
  have grown (id : TaskId) : session.store.stream id <+: (session.take step).1.store.stream id := by
    rw [stream_take]
    exact List.prefix_append ..
  rcases inFlight_take flying with before | ⟨command, number, _, _, begun, decided⟩
  · obtain ⟨saw, decided⟩ := informed call pending before
    exact ⟨saw_longer saw (grown _), decided⟩
  · subst begun
    exact ⟨⟨_, grown _, rfl⟩, decided⟩

theorem informed_of_ran (ran : Ran past session) : Informed session := by
  induction ran with
  | start =>
    intro call pending flying
    simp at flying
  | next ran step ih => exact informed_take ih step

/-- A call whose append succeeds has seen the whole of a short stream. -/
theorem saw_whole {pending : Pending} {later : Store} (short : Short store)
    (saw : Saw pending (store.stream pending.command.task))
    (appended : store.append pending.command.task pending.snapshot.version pending.events =
      .ok later) :
    pending = pending.command.begin (store.stream pending.command.task) := by
  obtain ⟨seen, beginning, loaded⟩ := saw
  obtain ⟨_, expected, _⟩ := Store.append_eq_ok.mp appended
  have version : pending.snapshot.version = versionOf seen := by
    rw [loaded]
    exact Task.version_replay ..
  have whole := prefix_eq_of_version beginning (short _) (expected.trans version)
  rw [← whole]
  exact loaded

/-- A command answered with success has done what it would have done at once, with nobody between
its load and its append. -/
theorem acknowledged_at_once (informed : Informed session) (short : Short session.store)
    (answered : (session.take step).2 = .handled command (.ok events)) :
    (session.store.handle .none command).result = .ok events ∧
      (session.store.handle .none command).store = (session.take step).1.store := by
  obtain ⟨pending, rfl, source, result, left⟩ := handled_take answered
  have whole : pending = pending.command.begin (session.store.stream pending.command.task) := by
    rcases source with ⟨call, flying⟩ | begun
    · obtain ⟨saw, decided⟩ := informed call pending flying
      rcases commit_cases pending session.store with
        ⟨_, ⟨empty, _⟩ | ⟨error, refused⟩⟩ | ⟨appended, _⟩
      · exact absurd empty decided
      · rw [refused] at result
        cases result
      · exact saw_whole short saw appended
    · exact begun
  have atOnce : session.store.handle .none pending.command =
      pending.commit .none session.store := by
    rw [whole]
    rfl
  rw [atOnce]
  exact ⟨result.symm, left.symm⟩

theorem handle_answers_decision (answered : (store.handle .none command).result = .ok events) :
    events = (Task.replay command.task (store.stream command.task)).eventsFor command := by
  change ((command.begin (store.stream command.task)).commit .none store).result = _ at answered
  rcases commit_cases (command.begin (store.stream command.task)) store with
    ⟨_, ⟨empty, answer⟩ | ⟨error, answer⟩⟩ | ⟨_, answer⟩
  · rw [answer] at answered
    cases answered
    exact empty.symm
  · rw [answer] at answered
    cases answered
  · rw [answer] at answered
    cases answered
    rfl

private theorem finish_unacknowledged {call : Call} {pending : Pending}
    (refused : acknowledged ⟨step, (session.finish call pending).2⟩ = false) :
    (session.finish call pending).1.store = session.store := by
  simp only [Session.finish] at refused ⊢
  rcases commit_cases pending session.store with ⟨same, _⟩ | ⟨_, answer⟩
  · exact same
  · rw [answer] at refused
    simp [acknowledged] at refused

theorem unacknowledged_leaves_store
    (refused : acknowledged ⟨step, (session.take step).2⟩ = false) :
    (session.take step).1.store = session.store := by
  cases step with
  | read id => rfl
  | view id => rfl
  | write id expected events =>
    cases appended : session.store.append id expected events with
    | error error => simp [Session.take, appended]
    | ok later => simp [Session.take, appended, acknowledged] at refused
  | begin number command =>
    simp only [Session.take] at refused ⊢
    split
    · rfl
    · rename_i free
      simp only [free] at refused
      split
      · rename_i empty
        simp only [empty, ↓reduceIte] at refused
        exact finish_unacknowledged refused
      · rfl
  | commit call =>
    simp only [Session.take] at refused ⊢
    split
    · rename_i flying
      simp only [flying] at refused
      exact finish_unacknowledged refused
    · rfl

/-- A step that acknowledges an operation is the next of the operations carried out one after
another. -/
theorem serial_take {earlier : List Observed} (informed : Informed session)
    (short : Short session.store) (serial : Serial earlier session.store)
    (accepted : acknowledged ⟨step, (session.take step).2⟩ = true) :
    Serial (earlier ++ [⟨step, (session.take step).2⟩]) (session.take step).1.store := by
  cases answer : (session.take step).2 with
  | nothing => cases step <;> simp [answer, acknowledged] at accepted
  | stream events => cases step <;> simp [answer, acknowledged] at accepted
  | task result => cases step <;> simp [answer, acknowledged] at accepted
  | written result =>
    cases step with
    | write id expected events =>
      cases appended : session.store.append id expected events with
      | error error => simp [Session.take, appended, acknowledged] at accepted
      | ok later =>
        simp only [Session.take, appended] at answer ⊢
        cases answer
        exact serial.written appended
    | _ => simp [answer, acknowledged] at accepted
  | handled command result =>
    cases result with
    | error error => cases step <;> simp [answer, acknowledged] at accepted
    | ok events =>
      obtain ⟨answered, left⟩ := acknowledged_at_once informed short answer
      rw [← left]
      exact serial.handled step answered

/-- The operations acknowledged in a run could have been carried out one after another, in the
order of their answers, with the same answers and the same store in the end. -/
theorem serial_of_ran (ran : Ran past session) (short : Short session.store) :
    Serial (past.filter acknowledged) session.store := by
  induction ran with
  | start => exact .start
  | @next past session ran step ih =>
    have shortBefore := short_of_step short
    rw [List.filter_append]
    cases accepted : acknowledged ⟨step, (session.take step).2⟩ with
    | true =>
      simp only [List.filter_cons, accepted, ↓reduceIte, List.filter_nil]
      exact serial_take (informed_of_ran ran) shortBefore (ih shortBefore) accepted
    | false =>
      simp only [List.filter_cons, accepted, Bool.false_eq_true, ↓reduceIte, List.filter_nil,
        List.append_nil]
      rw [unacknowledged_leaves_store accepted]
      exact ih shortBefore

private theorem short_of_split (ran : Ran past session) (short : Short session.store)
    {earlier : Session} (ranBefore : Ran before earlier) (included : before <+: past) :
    Short earlier.store := by
  intro id
  obtain ⟨after, rfl⟩ := included
  have bound := short id
  rw [stream_eq_additions ran, additions_append, List.length_append] at bound
  rw [stream_eq_additions ranBefore]
  omega

/-- Every interleaving of calls and direct writers linearizes as long as streams stay short. -/
theorem interleaved_runs_linearize (ran : Ran past session) (short : Short session.store) :
    Linearized past session.store where
  streams := stream_eq_additions ran
  decisions := by
    rintro before step command events after rfl
    obtain ⟨earlier, taken, ranBefore, same⟩ := ran_split ran
    have answered : (earlier.take taken).2 = .handled command (.ok events) :=
      (congrArg Observed.answer same).symm
    have shortBefore := short_of_split ran short ranBefore (List.prefix_append ..)
    obtain ⟨atOnce, _⟩ := acknowledged_at_once (informed_of_ran ranBefore) shortBefore answered
    have decided := handle_answers_decision atOnce
    rw [stream_eq_additions ranBefore] at decided
    refine ⟨?_, decided⟩
    rw [stream_eq_additions ran]
    simp
  serial := serial_of_ran ran short

/-- Two calls load the same empty stream; the second appends first and the first is refused. A
direct writer who knows the new version is let in. -/
def race : List Step :=
  [.begin 0 ⟨⟨7⟩, .assign ⟨some "u1", some "Ada"⟩, {}⟩,
    .begin 1 ⟨⟨7⟩, .assign ⟨some "u2", some "Ben"⟩, {}⟩,
    .commit ⟨⟨7⟩, 1⟩,
    .commit ⟨⟨7⟩, 0⟩,
    .write ⟨7⟩ 1 [⟨⟨7⟩, .dueDateUpdated none, {}⟩]]

/-- What the steps of the race are told. -/
def raceAnswers : List Answer :=
  [.nothing, .nothing,
    .handled ⟨⟨7⟩, .assign ⟨some "u2", some "Ben"⟩, {}⟩
      (.ok [⟨⟨7⟩, .assigned ⟨some "u2", some "Ben"⟩ .assigned "Assigned to: Ben", {}⟩]),
    .handled ⟨⟨7⟩, .assign ⟨some "u1", some "Ada"⟩, {}⟩ (.error (.versionConflict ⟨7⟩ 0 1)),
    .written (.ok ())]

theorem race_linearizes :
    Ran (race.zipWith Observed.mk raceAnswers) (Session.follow {} race) ∧
      Short (Session.follow {} race).store ∧
      Linearized (race.zipWith Observed.mk raceAnswers) (Session.follow {} race).store := by
  have told : Session.observe {} race = race.zipWith Observed.mk raceAnswers := by cbv
  have ran : Ran (race.zipWith Observed.mk raceAnswers) (Session.follow {} race) := by
    rw [← told]
    exact ran_follow .start race
  have short : Short (Session.follow {} race).store := by
    intro id
    rw [stream_eq_additions ran]
    simp only [race, raceAnswers, List.zipWith, additions, List.flatMap_cons, Observed.addition]
    split <;> simp [greatestVersion, UInt64.size]
  exact ⟨ran, short, interleaved_runs_linearize ran short⟩

end Docket.Linearization
