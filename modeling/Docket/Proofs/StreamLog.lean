import Docket.Proofs.Linearization

/-! Streams are logs. Whatever is read, written or commanded, and in whatever order, a stream holds
events of its own task only, it changes only when its task is addressed, and then only by growing
at its end; what is refused leaves nothing behind. How an append is answered can be told from the
events and the length of the stream alone. -/
namespace Docket.StreamLog
open Interleaving Linearization

/-- The task whose stream a step may change. -/
def addressee : Step → TaskId
  | .read id | .view id | .write id _ _ => id
  | .begin _ command => command.task
  | .commit call => call.task

/-- Whether a step is answered with an error. -/
inductive Refused : Answer → Prop
  | task {error : StoreError} : Refused (.task (.error error))
  | written {error : StoreError} : Refused (.written (.error error))
  | handled {command : Command} {error : StoreError} : Refused (.handled command (.error error))

/-- Every event is in the stream of its own task. -/
def Owned (store : Store) : Prop := ∀ id, ∀ event ∈ store.stream id, event.task = id

/-- What an operation addressed to a task may do to a store. -/
structure Orderly (before after : Store) (id : TaskId) (refused : Prop) : Prop where
  elsewhere : ∀ other, other ≠ id → after.stream other = before.stream other
  grown : before.stream id <+: after.stream id
  whole : refused → ∀ other, after.stream other = before.stream other

/-- How an append to a stream has to be answered. The first foreign event is named, whatever the
version; the version counts only where all events are the task's own. -/
inductive Verdict (stream : List Event) (id : TaskId) (expected : UInt64) (events : List Event) :
    Except StoreError Unit → Prop
  | foreign {before after : List Event} {event : Event} (split : events = before ++ event :: after)
      (own : ∀ earlier ∈ before, earlier.task = id) (strange : event.task ≠ id) :
      Verdict stream id expected events (.error (.foreignEvent id event.task))
  | conflict {actual : UInt64} (own : ∀ event ∈ events, event.task = id)
      (counted : actual.toNat = stream.length) (differs : expected.toNat ≠ stream.length) :
      Verdict stream id expected events (.error (.versionConflict id expected actual))
  | written (own : ∀ event ∈ events, event.task = id) (same : expected.toNat = stream.length) :
      Verdict stream id expected events (.ok ())

/-- Each call in flight is named for the task of its command. -/
def Named (session : Session) : Prop :=
  ∀ call pending, session.inFlight call = some pending → pending.command.task = call.task

variable {past : List Observed} {session : Session} {store after : Store} {refused : Prop}
variable {id : TaskId} {expected : UInt64} {events : List Event}

theorem named_start : Named {} := by
  intro call pending flying
  cases flying

theorem named_take (named : Named session) (step : Step) : Named (session.take step).1 := by
  intro call pending flying
  rcases inFlight_take flying with before | ⟨command, number, _, rfl, rfl, _⟩
  · exact named call pending before
  · rfl

theorem named_of_ran (ran : Ran past session) : Named session := by
  induction ran with
  | start => exact named_start
  | next ran step ih => exact named_take ih step

/-- The second step of a command leaves the store alone or is an accepted append. -/
theorem commit_appends (pending : Pending) (store : Store) :
    (pending.commit .none store).store = store ∨
      (¬ ∃ error, (pending.commit .none store).result = .error error) ∧
        ∃ expected events, store.append pending.command.task expected events =
          .ok (pending.commit .none store).store := by
  rcases commit_cases pending store with ⟨same, _⟩ | ⟨appended, answer⟩
  · exact .inl same
  · refine .inr ⟨?_, _, _, appended⟩
    rintro ⟨error, failed⟩
    cases answer.symm.trans failed

theorem finish_appends (session : Session) (call : Call) (pending : Pending) :
    (session.finish call pending).1.store = session.store ∨
      ¬ Refused (session.finish call pending).2 ∧
        ∃ expected events, session.store.append pending.command.task expected events =
          .ok (session.finish call pending).1.store := by
  rcases commit_appends pending session.store with same | ⟨accepted, appended⟩
  · exact .inl same
  · refine .inr ⟨fun refused => ?_, appended⟩
    simp only [Session.finish] at refused
    generalize answer : (pending.commit .none session.store).result = result at refused accepted
    cases refused
    exact accepted ⟨_, rfl⟩

/-- There is only one way for a store to change: an accepted append to the stream of the task that
the step is addressed to. -/
theorem take_appends (named : Named session) (step : Step) :
    (session.take step).1.store = session.store ∨
      ¬ Refused (session.take step).2 ∧
        ∃ expected events, session.store.append (addressee step) expected events =
          .ok (session.take step).1.store := by
  cases step with
  | read id => exact .inl rfl
  | view id => exact .inl rfl
  | write id expected events =>
    cases appended : session.store.append id expected events with
    | error error => exact .inl (by simp only [Session.take, appended])
    | ok after =>
      refine .inr ⟨?_, expected, events, by simp only [Session.take, appended, addressee]⟩
      simp only [Session.take, appended]
      intro refused
      cases refused
  | begin number command =>
    simp only [Session.take, addressee]
    split
    · exact .inl rfl
    · split
      · exact finish_appends session _ (command.begin (session.store.stream command.task))
      · exact .inl rfl
  | commit call =>
    simp only [Session.take, addressee]
    split
    · rename_i pending flying
      rw [← named call pending flying]
      exact finish_appends session call pending
    · exact .inl rfl

/-- An accepted append lets none but the task's own events into its stream. -/
theorem owned_of_append (owned : Owned store)
    (appended : store.append id expected events = .ok after) : Owned after := by
  intro other event member
  obtain ⟨own, _, _⟩ := Store.append_eq_ok.mp appended
  rw [Store.stream_of_append appended, List.mem_append] at member
  rcases member with before | added
  · exact owned other event before
  · by_cases same : id = other
    · rw [if_pos same] at added
      exact (own event added).trans same
    · rw [if_neg same] at added
      cases added

theorem owned_of_ran (ran : Ran past session) : Owned session.store := by
  induction ran with
  | start =>
    intro id event member
    simp at member
  | next ran step ih =>
    rcases take_appends (named_of_ran ran) step with same | ⟨_, expected, events, appended⟩
    · rw [same]
      exact ih
    · exact owned_of_append ih appended

/-- What leaves a store alone or appends to one stream is orderly. -/
theorem orderly_of_append
    (changed : after = store ∨
      ¬ refused ∧ ∃ expected events, store.append id expected events = .ok after) :
    Orderly store after id refused := by
  rcases changed with rfl | ⟨accepted, expected, events, appended⟩
  · exact ⟨fun _ _ => rfl, List.prefix_refl _, fun _ _ => rfl⟩
  · refine ⟨fun other differs => ?_, ?_, fun refused => absurd refused accepted⟩
    · rw [Store.stream_of_append appended, if_neg differs.symm, List.append_nil]
    · rw [Store.stream_of_append appended]
      exact List.prefix_append ..

theorem version_eq_iff {stream : List Event} (short : stream.length < greatestVersion) :
    versionOf stream = expected ↔ expected.toNat = stream.length := by
  have counted := toNat_versionOf stream
  rw [Nat.min_eq_left short.le] at counted
  rw [← UInt64.toNat_inj, counted, eq_comm]

/-- The answer to a write is the one that has to be given. -/
theorem verdict_of_append (short : (store.stream id).length < greatestVersion) :
    Verdict (store.stream id) id expected events
      ((store.append id expected events).map fun _ => ()) := by
  unfold Store.append
  split
  · rename_i foreign found
    obtain ⟨strange, before, after, split, own⟩ := List.find?_eq_some_iff_append.mp found
    refine .foreign split (fun earlier member => ?_) (by simpa using strange)
    simpa using own earlier member
  · rename_i missing
    have own : ∀ event ∈ events, event.task = id := by
      intro event member
      simpa using List.find?_eq_none.mp missing event member
    split
    · rename_i same
      exact .written own ((version_eq_iff short).mp same)
    · rename_i differs
      have counted := toNat_versionOf (store.stream id)
      rw [Nat.min_eq_left short.le] at counted
      exact .conflict own counted fun same => differs ((version_eq_iff short).mpr same)

theorem no_foreign_event (own : ∀ event ∈ events, event.task = id) :
    events.find? (fun event => event.task ≠ id) = none := by
  rw [List.find?_eq_none]
  intro event member
  simpa using own event member

/-- No other answer is one that has to be given. -/
theorem append_of_verdict {result : Except StoreError Unit}
    (short : (store.stream id).length < greatestVersion)
    (verdict : Verdict (store.stream id) id expected events result) :
    (store.append id expected events).map (fun _ => ()) = result := by
  cases verdict with
  | @foreign before after event split own strange =>
    have found : events.find? (fun event => event.task ≠ id) = some event := by
      rw [List.find?_eq_some_iff_append]
      refine ⟨by simpa using strange, before, after, split, fun earlier member => ?_⟩
      simpa using own earlier member
    simp only [Store.append, found]
    rfl
  | @conflict actual own counted differs =>
    have current : store.version id = actual := (version_eq_iff short).mpr counted
    have mismatch : actual ≠ expected := fun same => differs (same ▸ counted)
    simp only [Store.append, no_foreign_event own, current, if_neg mismatch]
    rfl
  | written own same =>
    have current : store.version id = expected := (version_eq_iff short).mpr same
    simp only [Store.append, no_foreign_event own, if_pos current]
    rfl

theorem answer_of_write (session : Session) (id : TaskId) (expected : UInt64)
    (events : List Event) :
    (session.take (.write id expected events)).2 =
      .written ((session.store.append id expected events).map fun _ => ()) := by
  cases appended : session.store.append id expected events with
  | ok after => simp only [Session.take, appended, Except.map]
  | error error => simp only [Session.take, appended, Except.map]

/-- What holds of every session that a run leads to. -/
structure Logged (session : Session) : Prop where
  owned : ∀ id, ∀ event ∈ session.store.stream id, event.task = id
  steps : ∀ step, Orderly session.store (session.take step).1.store (addressee step)
    (Refused (session.take step).2)
  /-- The same holds of a command carried out at once, from its load to its append. -/
  commands : ∀ command, Orderly session.store (session.store.handle .none command).store
    command.task (∃ error, (session.store.handle .none command).result = .error error)
  writes : ∀ id expected events result,
    (session.take (.write id expected events)).2 = .written result ↔
      Verdict (session.store.stream id) id expected events result
  extended : ∀ id expected events,
    (session.take (.write id expected events)).2 = .written (.ok ()) →
      (session.take (.write id expected events)).1.store.stream id =
        session.store.stream id ++ events

/-- After any run, as long as the streams are short, every stream is a log: it holds its own events
only, grows at its end or not at all, and takes an append as a whole or refuses it as a whole. -/
theorem runs_keep_streams_as_logs (ran : Ran past session) (short : Short session.store) :
    Logged session where
  owned := owned_of_ran ran
  steps step := orderly_of_append (take_appends (named_of_ran ran) step)
  commands command :=
    orderly_of_append
      (commit_appends (command.begin (session.store.stream command.task)) session.store)
  writes id expected events result := by
    rw [answer_of_write]
    constructor
    · intro answered
      cases answered
      exact verdict_of_append (short id)
    · intro verdict
      rw [append_of_verdict (short id) verdict]
  extended id expected events answered := by
    rw [stream_take, answered]
    simp [Observed.addition]

/-- A direct write between the two steps of a command, which is refused for it, and a batch that
ends with an event of another task. -/
def overtaken : List Step :=
  [.begin 0 ⟨⟨7⟩, .complete ⟨.first, .midnight⟩, {}⟩,
    .write ⟨7⟩ 0 [⟨⟨7⟩, .dueDateUpdated none, {}⟩],
    .commit ⟨⟨7⟩, 0⟩]

/-- A batch for the first task whose last event is of another one. -/
def mixedBatch : List Event := [⟨⟨7⟩, .dueDateUpdated none, {}⟩, ⟨⟨8⟩, .dueDateUpdated none, {}⟩]

theorem mixed_batch_leaves_nothing :
    Ran (Session.observe {} overtaken) (Session.follow {} overtaken) ∧
      Short (Session.follow {} overtaken).store ∧
      ((Session.follow {} overtaken).take (.write ⟨7⟩ 5 mixedBatch)).2 =
        .written (.error (.foreignEvent ⟨7⟩ ⟨8⟩)) ∧
      (∀ id, ((Session.follow {} overtaken).take (.write ⟨7⟩ 5 mixedBatch)).1.store.stream id =
        (Session.follow {} overtaken).store.stream id) ∧
      ((Session.follow {} overtaken).take (.write ⟨7⟩ 5 (mixedBatch.take 1))).2 =
        .written (.error (.versionConflict ⟨7⟩ 5 1)) := by
  have ran : Ran (Session.observe {} overtaken) (Session.follow {} overtaken) :=
    ran_follow .start overtaken
  have told : Session.observe {} overtaken = overtaken.zipWith Observed.mk
      [.nothing, .written (.ok ()), .handled ⟨⟨7⟩, .complete ⟨.first, .midnight⟩, {}⟩
        (.error (.versionConflict ⟨7⟩ 0 1))] := by cbv
  have streams (id : TaskId) : (Session.follow {} overtaken).store.stream id =
      if (⟨7⟩ : TaskId) = id then mixedBatch.take 1 else [] := by
    rw [stream_eq_additions ran, told]
    simp [overtaken, mixedBatch, additions, Observed.addition]
  have short : Short (Session.follow {} overtaken).store := by
    intro id
    rw [streams]
    split <;> simp [mixedBatch, greatestVersion, UInt64.size]
  have logged := runs_keep_streams_as_logs ran short
  have foreign : ((Session.follow {} overtaken).take (.write ⟨7⟩ 5 mixedBatch)).2 =
      .written (.error (.foreignEvent ⟨7⟩ ⟨8⟩)) := by
    refine (logged.writes ..).mpr
      (@Verdict.foreign _ _ _ _ (mixedBatch.take 1) [] _ rfl ?_ (by decide))
    simp [mixedBatch]
  refine ⟨ran, short, foreign, fun id => ?_, (logged.writes ..).mpr (.conflict ?_ ?_ ?_)⟩
  · refine (logged.steps _).whole ?_ id
    rw [foreign]
    exact .written
  · simp [mixedBatch]
  · rw [streams]
    rfl
  · rw [streams]
    decide

end Docket.StreamLog
