import Std.Data.HashMap
import Docket.Task.State

/-! The store keeps one stream of events for each task. A stream only grows at its end, and
only for a writer who knows its length: an append says how many events it expects, and a
writer who has missed some is refused. Nothing of a refused append is kept. -/
namespace Docket
open Docket.Text

/-- Why the store refuses. -/
inductive StoreError where
  | versionConflict (task : TaskId) (expected actual : UInt64)
  | foreignEvent (stream task : TaskId)
  | persistence (detail : String)
deriving DecidableEq

/-- The wording of an error. -/
def StoreError.message : StoreError → String
  | .versionConflict task expected actual =>
    "version conflict for task " ++ task.text ++ ": expected " ++ decimal expected.toNat ++
      ", found " ++ decimal actual.toNat
  | .foreignEvent stream task =>
    "event for task " ++ task.text ++ " appended to stream of task " ++ stream.text
  | .persistence detail => "persistence error: " ++ detail

/-- The streams of all tasks; a task without a stream has no events. -/
structure Store where
  streams : Std.HashMap TaskId (List Event) := ∅

/-- The version of a stream: its length, up to the greatest version. -/
def versionOf (stream : List Event) : UInt64 := UInt64.ofNat (min stream.length greatestVersion)

theorem toNat_versionOf (stream : List Event) :
    (versionOf stream).toNat = min stream.length greatestVersion := by
  rw [versionOf, UInt64.toNat_ofNat']
  exact Nat.mod_eq_of_lt (by simp only [greatestVersion, UInt64.size]; omega)

/-- A task replayed from a stream has the version of the stream. -/
theorem Task.version_replay (id : TaskId) (stream : List Event) :
    (Task.replay id stream).version = versionOf stream := by
  apply UInt64.toNat_inj.mp
  rw [toNat_versionOf, Task.replay, Task.toNat_version_applyAll]
  simp [Task.uncreated]

namespace Store

/-- A store without events. -/
def empty : Store := {}

/-- The events of a task, the earliest first. -/
def stream (store : Store) (id : TaskId) : List Event := store.streams.getD id []

/-- The version of a task's stream. -/
def version (store : Store) (id : TaskId) : UInt64 := versionOf (store.stream id)

/-- Adds events at the end of a stream, whoever they belong to. -/
def extend (store : Store) (id : TaskId) (events : List Event) : Store :=
  ⟨store.streams.insert id (store.stream id ++ events)⟩

/-- Appends events to a task's stream. A foreign event is found before the version is looked
at, and the first of several is named. -/
def append (store : Store) (id : TaskId) (expected : UInt64) (events : List Event) :
    Except StoreError Store :=
  match events.find? fun event => event.task ≠ id with
  | some foreign => .error (.foreignEvent id foreign.task)
  | none =>
    if store.version id = expected then .ok (store.extend id events)
    else .error (.versionConflict id expected (store.version id))

@[simp] theorem stream_empty (id : TaskId) : empty.stream id = [] := by
  simp [empty, stream]

theorem stream_extend (store : Store) (id other : TaskId) (events : List Event) :
    (store.extend id events).stream other =
      if id = other then store.stream id ++ events else store.stream other := by
  simp [extend, stream, Std.HashMap.getD_insert]

@[simp] theorem stream_extend_self (store : Store) (id : TaskId) (events : List Event) :
    (store.extend id events).stream id = store.stream id ++ events := by
  simp [stream_extend]

/-- An append succeeds just where every event belongs to the task and the version is as
expected. -/
theorem append_eq_ok {store next : Store} {id : TaskId} {expected : UInt64} {events : List Event} :
    store.append id expected events = .ok next ↔
      (∀ event ∈ events, event.task = id) ∧ store.version id = expected ∧
        store.extend id events = next := by
  unfold append
  split
  · next foreign found =>
    have member := List.mem_of_find?_eq_some found
    have differs := List.find?_some found
    simp only [reduceCtorEq, false_iff, not_and]
    exact fun own => absurd (own foreign member) (by simpa using differs)
  · next missing =>
    have own : ∀ event ∈ events, event.task = id := by
      intro event member
      have := List.find?_eq_none.mp missing event member
      simpa using this
    split
    · next same => simp [same]; exact fun _ => own
    · next differs => simp [differs]

/-- A successful append adds its events to the one stream and nothing to the others. -/
theorem stream_of_append {store after : Store} {id : TaskId} {expected : UInt64}
    {events : List Event} (appended : store.append id expected events = .ok after)
    (other : TaskId) :
    after.stream other = store.stream other ++ if id = other then events else [] := by
  obtain ⟨_, _, rfl⟩ := append_eq_ok.mp appended
  rw [stream_extend]
  by_cases same : id = other <;> simp [same]

end Store
end Docket
