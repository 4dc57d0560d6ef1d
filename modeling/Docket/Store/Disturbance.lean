import Docket.Store

/-! A store may fail, and another writer may come between the load of a stream and the append
that follows it. A disturbance says which of this befalls one operation. -/
namespace Docket

/-- What befalls one operation on the store: a failing load, a failing append, and the events that
another writer appends to the stream right after it has been loaded. -/
structure Disturbance where
  failLoad : Option String := none
  failAppend : Option String := none
  intruder : Option (List Event) := none

namespace Disturbance

/-- Nothing befalls the operation. -/
def none : Disturbance := {}

/-- What another writer leaves behind, who knows the version that has just been loaded. -/
def intrude (disturbance : Disturbance) (store : Store) (id : TaskId) : Except StoreError Store :=
  match disturbance.intruder with
  | .none => .ok store
  | .some events => store.append id (store.version id) events

/-- Loads a stream. The other writer's events are in the store afterwards, but not among those
loaded; where they are refused, so is the load. -/
def load (disturbance : Disturbance) (store : Store) (id : TaskId) :
    Except StoreError (List Event × Store) :=
  match disturbance.failLoad with
  | .some detail => .error (.persistence detail)
  | .none => (disturbance.intrude store id).map fun after => (store.stream id, after)

/-- Appends to a stream, unless the append fails before anything is looked at. -/
def append (disturbance : Disturbance) (store : Store) (id : TaskId) (expected : UInt64)
    (events : List Event) : Except StoreError Store :=
  match disturbance.failAppend with
  | .some detail => .error (.persistence detail)
  | .none => store.append id expected events

@[simp] theorem load_none (store : Store) (id : TaskId) :
    none.load store id = .ok (store.stream id, store) := rfl

@[simp] theorem append_none (store : Store) (id : TaskId) (expected : UInt64)
    (events : List Event) :
    none.append store id expected events = store.append id expected events := rfl

end Disturbance
end Docket
