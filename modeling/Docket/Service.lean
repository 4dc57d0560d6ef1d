import Docket.Journal
import Docket.Store.Disturbance
import Docket.Task.Decision

/-! The service carries commands out in two steps. The first loads the stream of the task and
fixes the snapshot that the command is decided against. The second appends the decided
events for the version of that snapshot; where nothing was decided, it leaves the store
alone. Whatever other writers do between the steps, the events are either appended to the
very stream they were decided against or refused. -/
namespace Docket
open Docket.Journal Docket.Text

namespace Service

/-- What the service enters in the journal. -/
inductive Entry where
  | terminalState (task : TaskId) (lifecycle : Lifecycle) (operation : String)
  | noChange (task : TaskId) (operation : String)
  | appended (task : TaskId) (operation : String) (version : UInt64) (types : List String)
deriving DecidableEq

/-- A list of names in brackets, each of them in quotes. -/
def quotedList (names : List String) : String :=
  "[" ++ ", ".intercalate (names.map fun name => "\"" ++ name ++ "\"") ++ "]"

/-- The line that an entry is written as. -/
def Entry.line : Entry → Line
  | .terminalState task lifecycle operation => {
      level := .warn
      message := "command received for a task in a terminal state"
      fields := [("task_id", task.text), ("lifecycle", lifecycle.name), ("operation", operation)] }
  | .noChange task operation => {
      level := .debug
      message := "command produced no observable change"
      fields := [("task_id", task.text), ("operation", operation)] }
  | .appended task operation version types => {
      level := .info
      message := "appended task events"
      fields :=
        [("task_id", task.text), ("operation", operation), ("version", decimal version.toNat),
          ("events", quotedList types)] }

end Service

/-- What an operation of the service answers, the store it leaves behind, and what it entered in
the journal, in order. -/
structure Outcome (α : Type) where
  result : Except StoreError α
  store : Store
  journal : List Service.Entry := []

/-- A command between its two steps: the task as it was loaded. -/
structure Pending where
  command : Command
  snapshot : Task

/-- The first step of a command, which sees the stream of its task. -/
def Command.begin (command : Command) (stream : List Event) : Pending :=
  ⟨command, .replay command.task stream⟩

namespace Pending

/-- The events decided. -/
def events (pending : Pending) : List Event := pending.snapshot.eventsFor pending.command

/-- What is noted before anything is decided: a command for a task that has ended. -/
def warnings (pending : Pending) : List Service.Entry :=
  if pending.snapshot.lifecycle.isTerminal then
    [.terminalState pending.command.task pending.snapshot.lifecycle
      pending.command.action.operation]
  else []

/-- The second step of a command. -/
def commit (pending : Pending) (disturbance : Disturbance) (store : Store) : Outcome (List Event) :=
  let command := pending.command
  if pending.events.isEmpty then
    { result := .ok []
      store := store
      journal := pending.warnings ++ [.noChange command.task command.action.operation] }
  else
    match disturbance.append store command.task pending.snapshot.version pending.events with
    | .error error => { result := .error error, store := store, journal := pending.warnings }
    | .ok after =>
      { result := .ok pending.events
        store := after
        journal := pending.warnings ++
          [.appended command.task command.action.operation pending.snapshot.version
            (pending.events.map Event.typeName)] }

end Pending

namespace Store

/-- The current state of a task. -/
def loadTask (store : Store) (disturbance : Disturbance) (id : TaskId) : Outcome Task :=
  match disturbance.load store id with
  | .error error => { result := .error error, store := store }
  | .ok (stream, after) => { result := .ok (Task.replay id stream), store := after }

/-- Carries a command out, one step after the other. -/
def handle (store : Store) (disturbance : Disturbance) (command : Command) : Outcome (List Event) :=
  match disturbance.load store command.task with
  | .error error => { result := .error error, store := store }
  | .ok (stream, after) => (command.begin stream).commit disturbance after

end Store
end Docket
