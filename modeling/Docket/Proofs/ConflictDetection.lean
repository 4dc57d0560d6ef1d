import Docket.Proofs.StreamLog

/-! A command is refused just where others have written to its stream after it was loaded and it has
something to add. The version that it has replayed counts the events it has seen, so that none who
come between can go unnoticed and nobody else is ever in the way. A command with nothing to add does
not ask the store, and one that the store fails leaves nothing behind. -/
namespace Docket.ConflictDetection
open StreamLog

/-- The events that a command implies for a task with this stream. -/
def decision (command : Command) (loaded : List Event) : List Event :=
  (Task.replay command.task loaded).eventsFor command

/-- The events that others append between the two steps of a command. -/
def competing (disturbance : Disturbance) : List Event := disturbance.intruder.getD []

/-- How a command ends that has loaded a stream and finds the events of others behind it: its
answer, and what the stream holds afterwards. -/
inductive Ending (id : TaskId) (loaded others decided : List Event) (failing : Option String) :
    Except StoreError (List Event) → List Event → Prop where
  /-- With nothing to add, it succeeds whatever the store would have said. -/
  | idle (nothing : decided = []) :
      Ending id loaded others decided failing (.ok decided) (loaded ++ others)
  | failed {detail : String} (something : decided ≠ []) (fails : failing = some detail) :
      Ending id loaded others decided failing (.error (.persistence detail)) (loaded ++ others)
  | conflict {expected actual : UInt64} (something : decided ≠ []) (works : failing = none)
      (overtaken : others ≠ []) (seen : expected.toNat = loaded.length)
      (found : actual.toNat = loaded.length + others.length) :
      Ending id loaded others decided failing (.error (.versionConflict id expected actual))
        (loaded ++ others)
  | appended (something : decided ≠ []) (works : failing = none) (alone : others = []) :
      Ending id loaded others decided failing (.ok decided) (loaded ++ decided)

namespace Ending

variable {id : TaskId} {loaded others decided ending : List Event} {failing : Option String}
variable {result : Except StoreError (List Event)}

/-- None of the ends is a refusal of the task's own events as another's. -/
theorem native {stream task : TaskId}
    (ended : Ending id loaded others decided failing result ending) :
    result ≠ .error (.foreignEvent stream task) := by
  cases ended <;> nofun

theorem ok_of_alone (ended : Ending id loaded others decided failing result ending)
    (works : failing = none) (alone : others = []) : result = .ok decided := by
  cases ended with
  | idle | appended => rfl
  | failed something fails => cases works.symm.trans fails
  | conflict something works overtaken => exact absurd alone overtaken

/-- Where nobody has come between, all of the decision is added or the stream stays. -/
theorem added_or_kept (ended : Ending id loaded [] decided failing result ending) :
    (result = .ok decided ∧ ending = loaded ++ decided) ∨
      ((∃ error, result = .error error) ∧ ending = loaded) := by
  cases ended with
  | idle nothing => exact .inl ⟨rfl, by rw [nothing]⟩
  | failed something fails => exact .inr ⟨⟨_, rfl⟩, List.append_nil _⟩
  | conflict something works overtaken => exact absurd rfl overtaken
  | appended => exact .inl ⟨rfl, rfl⟩

end Ending

/-- All that can become of a command on a store. -/
structure Settled (store : Store) (command : Command) (disturbance : Disturbance) : Prop where
  /-- Where the load fails, its error is the answer and nothing has changed. -/
  unread : ∀ detail, disturbance.failLoad = some detail →
    (store.handle disturbance command).result = .error (.persistence detail) ∧
      (store.handle disturbance command).store = store
  atOnce : disturbance.failLoad = none →
    Ending command.task (store.stream command.task) (competing disturbance)
      (decision command (store.stream command.task)) disturbance.failAppend
      (store.handle disturbance command).result
      ((store.handle disturbance command).store.stream command.task)
  /-- It is the same whichever writers the events come from and whatever else they write. -/
  inSteps : ∀ later : Store,
    later.stream command.task = store.stream command.task ++ competing disturbance →
      Ending command.task (store.stream command.task) (competing disturbance)
        (decision command (store.stream command.task)) disturbance.failAppend
        ((command.begin (store.stream command.task)).commit disturbance later).result
        (((command.begin (store.stream command.task)).commit disturbance later).store.stream
          command.task)
  elsewhere : ∀ other, other ≠ command.task →
    (store.handle disturbance command).store.stream other = store.stream other
  /-- The events that a command decides on are never taken for those of another task. -/
  native : ∀ stream task,
    (store.handle disturbance command).result ≠ .error (.foreignEvent stream task)
  /-- With nobody in between and a store that works, every command succeeds. -/
  alone : disturbance.failLoad = none → disturbance.failAppend = none →
    competing disturbance = [] →
      (store.handle disturbance command).result =
        .ok (decision command (store.stream command.task))

variable {store later : Store} {command : Command} {disturbance : Disturbance} {id : TaskId}
variable {loaded others events decided : List Event} {failing : Option String}

/-- Where all events are the task's own, only the version decides. -/
theorem append_own (own : ∀ event ∈ events, event.task = id) (expected : UInt64) :
    store.append id expected events =
      if store.version id = expected then .ok (store.extend id events)
      else .error (.versionConflict id expected (store.version id)) := by
  simp only [Store.append, no_foreign_event own]

/-- Where the load works, the command has seen the stream as it was, and the other writer's events
stand behind it in the store. -/
theorem load_read (read : disturbance.failLoad = none)
    (own : ∀ event ∈ competing disturbance, event.task = id) :
    ∃ after, disturbance.load store id = .ok (store.stream id, after) ∧
      ∀ other, after.stream other =
        store.stream other ++ if id = other then competing disturbance else [] := by
  cases intruder : disturbance.intruder with
  | none =>
    refine ⟨store, ?_, ?_⟩
    · simp only [Disturbance.load, read, Disturbance.intrude, intruder, Except.map]
    · simp [competing, intruder]
  | some events =>
    have written : competing disturbance = events := by
      rw [competing, intruder, Option.getD_some]
    rw [written] at own ⊢
    -- The other writer asks for the version that is there, so only a foreign event could stop it.
    have appended : store.append id (store.version id) events = .ok (store.extend id events) := by
      rw [append_own own, if_pos rfl]
    refine ⟨store.extend id events, ?_, Store.stream_of_append appended⟩
    simp only [Disturbance.load, read, Disturbance.intrude, intruder, appended, Except.map]

theorem handle_of_load {stream : List Event} {after : Store}
    (loaded : disturbance.load store command.task = .ok (stream, after)) :
    store.handle disturbance command = (command.begin stream).commit disturbance after := by
  simp only [Store.handle, loaded]

theorem handle_unread {detail : String} (failed : disturbance.failLoad = some detail) :
    store.handle disturbance command = { result := .error (.persistence detail), store := store } := by
  simp only [Store.handle, Disturbance.load, failed]

/-- A command with nothing to add leaves the store alone. -/
theorem commit_idle (nothing : decision command loaded = []) :
    ((command.begin loaded).commit disturbance later).result = .ok [] ∧
      ((command.begin loaded).commit disturbance later).store = later := by
  have empty : (command.begin loaded).events.isEmpty = true := List.isEmpty_iff.mpr nothing
  simp only [Pending.commit, empty, ↓reduceIte, and_self]

/-- A command with something to add appends it for the version that it has seen. -/
theorem commit_asks (something : decision command loaded ≠ [])
    {answer : Except StoreError Store}
    (answered : disturbance.append later command.task (versionOf loaded)
      (decision command loaded) = answer) :
    ((command.begin loaded).commit disturbance later).result =
        answer.map (fun _ => decision command loaded) ∧
      ((command.begin loaded).commit disturbance later).store = answer.toOption.getD later := by
  have decided : (command.begin loaded).events = decision command loaded := rfl
  have snapshot : (command.begin loaded).snapshot.version = versionOf loaded :=
    Task.version_replay ..
  have addressed : (command.begin loaded).command = command := rfl
  have full : (decision command loaded).isEmpty = false := List.isEmpty_eq_false_iff.mpr something
  unfold Pending.commit
  simp only [decided, snapshot, addressed, full, Bool.false_eq_true, ↓reduceIte, answered]
  cases answer with
  | error error => exact ⟨rfl, rfl⟩
  | ok after => exact ⟨rfl, rfl⟩

/-- Versions tell a short stream from its beginnings. -/
theorem version_overtaken (overtaken : others ≠ [])
    (room : loaded.length + others.length < greatestVersion) :
    (versionOf loaded).toNat = loaded.length ∧
      (versionOf (loaded ++ others)).toNat = loaded.length + others.length ∧
      versionOf (loaded ++ others) ≠ versionOf loaded := by
  have positive := List.length_pos_iff.mpr overtaken
  have seen : (versionOf loaded).toNat = loaded.length := by
    rw [toNat_versionOf]
    omega
  have found : (versionOf (loaded ++ others)).toNat = loaded.length + others.length := by
    rw [toNat_versionOf, List.length_append]
    omega
  refine ⟨seen, found, fun same => ?_⟩
  rw [same, seen] at found
  omega

theorem ending_of_append (something : decision command loaded ≠ [])
    (works : disturbance.failAppend = none) (grown : later.stream command.task = loaded ++ others)
    (room : others ≠ [] → loaded.length + others.length < greatestVersion) :
    Ending command.task loaded others (decision command loaded) disturbance.failAppend
      ((command.begin loaded).commit disturbance later).result
      (((command.begin loaded).commit disturbance later).store.stream command.task) := by
  have own : ∀ event ∈ decision command loaded, event.task = command.task :=
    fun event member => Task.task_of_mem_eventsFor member
  have asked : disturbance.append later command.task (versionOf loaded) (decision command loaded) =
      if later.version command.task = versionOf loaded then
        .ok (later.extend command.task (decision command loaded))
      else .error (.versionConflict command.task (versionOf loaded) (later.version command.task)) := by
    simp only [Disturbance.append, works, append_own own]
  -- The version that was seen is the one that is found just where nobody has come between.
  by_cases alone : others = []
  · have current : later.version command.task = versionOf loaded := by
      rw [Store.version, grown, alone, List.append_nil]
    rw [if_pos current] at asked
    obtain ⟨result, stored⟩ := commit_asks something asked
    rw [result, stored]
    simp only [Except.map, Except.toOption, Option.getD_some, Store.stream_extend_self, grown,
      alone, List.append_nil]
    exact .appended something works rfl
  · have current : later.version command.task = versionOf (loaded ++ others) := by
      rw [Store.version, grown]
    obtain ⟨seen, found, differs⟩ := version_overtaken alone (room alone)
    rw [← current] at found differs
    rw [if_neg differs] at asked
    obtain ⟨result, stored⟩ := commit_asks something asked
    rw [result, stored]
    simp only [Except.map, Except.toOption, Option.getD_none, grown]
    exact .conflict something works alone seen found

/-- The second step of a command ends as it has to. How long the stream is matters only where others
have come between. -/
theorem ending_of_commit (grown : later.stream command.task = loaded ++ others)
    (room : others ≠ [] → loaded.length + others.length < greatestVersion) :
    Ending command.task loaded others (decision command loaded) disturbance.failAppend
      ((command.begin loaded).commit disturbance later).result
      (((command.begin loaded).commit disturbance later).store.stream command.task) := by
  by_cases nothing : decision command loaded = []
  · obtain ⟨result, stored⟩ := @commit_idle later command disturbance loaded nothing
    rw [result, stored, grown, ← nothing]
    exact .idle nothing
  · cases failing : disturbance.failAppend with
    | none =>
      rw [← failing]
      exact ending_of_append nothing failing grown room
    | some detail =>
      have asked : disturbance.append later command.task (versionOf loaded)
          (decision command loaded) = .error (.persistence detail) := by
        simp only [Disturbance.append, failing]
      obtain ⟨result, stored⟩ := commit_asks nothing asked
      rw [result, stored]
      simp only [Except.map, Except.toOption, Option.getD_none, grown]
      exact .failed nothing rfl

/-- The second step of a command changes no stream but its own. -/
theorem commit_elsewhere {other : TaskId} (differs : other ≠ command.task) :
    ((command.begin loaded).commit disturbance later).store.stream other = later.stream other := by
  by_cases nothing : decision command loaded = []
  · rw [(commit_idle nothing).2]
  · rw [(commit_asks nothing rfl).2]
    cases failing : disturbance.failAppend with
    | some detail => simp only [Disturbance.append, failing, Except.toOption, Option.getD_none]
    | none =>
      simp only [Disturbance.append, failing]
      cases appended : later.append command.task (versionOf loaded) (decision command loaded) with
      | error error => rfl
      | ok after =>
        simp only [Except.toOption, Option.getD_some]
        rw [Store.stream_of_append appended, if_neg differs.symm, List.append_nil]

/-- A command that could load its stream goes on with what others have written behind it. -/
theorem handle_read (read : disturbance.failLoad = none)
    (own : ∀ event ∈ competing disturbance, event.task = command.task) :
    ∃ after, store.handle disturbance command =
        (command.begin (store.stream command.task)).commit disturbance after ∧
      ∀ other, after.stream other =
        store.stream other ++ if command.task = other then competing disturbance else [] := by
  obtain ⟨after, loaded, grown⟩ := load_read read own
  exact ⟨after, handle_of_load loaded, grown⟩

theorem ending_of_handle (read : disturbance.failLoad = none)
    (own : ∀ event ∈ competing disturbance, event.task = command.task)
    (room : competing disturbance ≠ [] →
      (store.stream command.task).length + (competing disturbance).length < greatestVersion) :
    Ending command.task (store.stream command.task) (competing disturbance)
      (decision command (store.stream command.task)) disturbance.failAppend
      (store.handle disturbance command).result
      ((store.handle disturbance command).store.stream command.task) := by
  obtain ⟨after, handled, grown⟩ := handle_read read own
  rw [handled]
  exact ending_of_commit (by rw [grown, if_pos rfl]) room

/-- A command changes no stream but its own, however it ends. -/
theorem handle_elsewhere (own : ∀ event ∈ competing disturbance, event.task = command.task)
    {other : TaskId} (differs : other ≠ command.task) :
    (store.handle disturbance command).store.stream other = store.stream other := by
  cases failing : disturbance.failLoad with
  | some detail => rw [handle_unread failing]
  | none =>
    obtain ⟨after, handled, grown⟩ := handle_read failing own
    rw [handled, commit_elsewhere differs, grown, if_neg differs.symm, List.append_nil]

/-- Whatever a store holds, whoever comes between the steps of a command on it and however the store
fails, the command comes to the one end that is due. -/
theorem conflicts_are_detected_exactly
    (own : ∀ event ∈ competing disturbance, event.task = command.task)
    (room : (store.stream command.task).length + (competing disturbance).length <
      greatestVersion) : Settled store command disturbance where
  unread detail failed := by
    rw [handle_unread failed]
    exact ⟨rfl, rfl⟩
  atOnce read := ending_of_handle read own fun _ => room
  inSteps later grown := ending_of_commit grown fun _ => room
  elsewhere other differs := handle_elsewhere own differs
  native stream task foreign := by
    cases failing : disturbance.failLoad with
    | some detail =>
      rw [handle_unread failing] at foreign
      cases foreign
    | none => exact (ending_of_handle failing own fun _ => room).native foreign
  alone read works nobody :=
    (ending_of_handle read own fun _ => room).ok_of_alone works nobody

/-- A task right after its creation. -/
def opened : Store := Store.empty.extend ⟨7⟩ [⟨⟨7⟩, .created ⟨{}, none, {}⟩, {}⟩]

/-- A command that completes the task. -/
def completion : Command := ⟨⟨7⟩, .complete ⟨.first, .midnight⟩, {}⟩

/-- Somebody who assigns the task and clears its due date while the command is on its way. -/
def intrusion : Disturbance where
  intruder := some
    [⟨⟨7⟩, .assigned ⟨some "u1", some "Ada"⟩ .assigned "Assigned to: Ada", {}⟩,
      ⟨⟨7⟩, .dueDateUpdated none, {}⟩]

theorem completion_is_overtaken :
    (∀ event ∈ competing intrusion, event.task = completion.task) ∧
      (opened.stream completion.task).length + (competing intrusion).length < greatestVersion ∧
      (opened.handle intrusion completion).result = .error (.versionConflict ⟨7⟩ 1 3) ∧
      (opened.handle intrusion completion).store.stream ⟨7⟩ =
        opened.stream ⟨7⟩ ++ competing intrusion := by
  have own : ∀ event ∈ competing intrusion, event.task = completion.task := by
    simp [competing, intrusion, completion]
  have length : (opened.stream completion.task).length = 1 := by
    rw [opened, completion, Store.stream_extend_self, Store.stream_empty]
    rfl
  have room : (opened.stream completion.task).length + (competing intrusion).length <
      greatestVersion := by
    rw [length]
    simp [competing, intrusion, greatestVersion, UInt64.size]
  have ended := (conflicts_are_detected_exactly own room).atOnce rfl
  refine ⟨own, room, ?_⟩
  change _ ∧ (opened.handle intrusion completion).store.stream completion.task = _
  generalize (opened.handle intrusion completion).result = result at ended ⊢
  generalize (opened.handle intrusion completion).store.stream completion.task = stream at ended ⊢
  cases ended with
  | idle nothing => cases nothing
  | failed something fails => cases fails
  | appended something works alone => cases alone
  | conflict something works overtaken seen found =>
    rw [length] at seen found
    rw [UInt64.toNat_inj.mp (seen.trans rfl : _ = (1 : UInt64).toNat),
      UInt64.toNat_inj.mp (found.trans rfl : _ = (3 : UInt64).toNat)]
    exact ⟨rfl, rfl⟩

end Docket.ConflictDetection
