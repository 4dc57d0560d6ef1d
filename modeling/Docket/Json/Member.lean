import Docket.Json.Basic

/-! Records are read member by member. A member that a record knows may stand at any place
but only once; members that it does not know are never looked at. -/
namespace Docket.Json

/-- How often a key stands among members, and its value where it stands once. -/
inductive Occurrence where
  | absent
  | once (value : Json)
  | repeated

/-- Looks a key up among members. -/
def find (members : List (String × Json)) (key : String) : Occurrence :=
  match members.filter (·.1 == key) with
  | [] => .absent
  | [(_, value)] => .once value
  | _ => .repeated

/-- Reads a member that has to be there. -/
def required {α : Type} (members : List (String × Json)) (key : String) (read : Json → Option α) :
    Option α :=
  match find members key with
  | .once value => read value
  | _ => none

/-- Reads a member that may be missing or null. -/
def optional {α : Type} (members : List (String × Json)) (key : String) (read : Json → Option α) :
    Option (Option α) :=
  match find members key with
  | .absent => some none
  | .once .null => some none
  | .once value => (read value).map some
  | .repeated => none

/-- Reads a member that has a value of its own where it is missing, but may not be null. -/
def defaulted {α : Type} (members : List (String × Json)) (key : String) (missing : α)
    (read : Json → Option α) : Option α :=
  match find members key with
  | .absent => some missing
  | .once value => read value
  | .repeated => none

/-- The members of an object, and of nothing else. -/
def members? : Json → Option (List (String × Json))
  | .object members => some members
  | _ => none

/-- The members of a record, which may also stand as the array of all its values in the order
of `keys`. -/
def record? (keys : List String) : Json → Option (List (String × Json))
  | .object members => some members
  | .array items => if items.length = keys.length then some (keys.zip items) else none
  | _ => none

/-- The members of a record whose array may leave the last values out. -/
def shortRecord? (keys : List String) : Json → Option (List (String × Json))
  | .object members => some members
  | .array items => if items.length ≤ keys.length then some (keys.zip items) else none
  | _ => none

/-- The value of a text. -/
def text? : Json → Option String
  | .text value => some value
  | _ => none

/-- The value of a counting number below a bound. -/
def naturalBelow? (bound : Nat) : Json → Option Nat
  | .natural value => if value < bound then some value else none
  | _ => none

/-- The items of an array. -/
def items? : Json → Option (List Json)
  | .array items => some items
  | _ => none

/-- One of a few named values: its name, or an object of its name and an empty content. -/
def named? (isEmpty : Json → Bool) : Json → Option String
  | .text name => some name
  | .object [(name, content)] => if isEmpty content then some name else none
  | _ => none

/-- Null, the only content that a named value has. -/
def isNull : Json → Bool
  | .null => true
  | _ => false

/-- Null or the empty object. -/
def isNullOrEmpty : Json → Bool
  | .null => true
  | .object [] => true
  | _ => false

end Docket.Json
