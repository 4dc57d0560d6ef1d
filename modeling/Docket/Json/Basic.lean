/-! JSON documents as trees. The members of an object keep their order and their
repetitions, because both decide what a reader may accept. Counting numbers stand
apart from all others: only they can be versions and counts. -/
namespace Docket

/-- A number with a sign, a fraction or an exponent: `significand` times ten to the
`exponent`, negative or not. A negative zero is such a number. -/
structure Decimal where
  negative : Bool
  significand : Nat
  exponent : Int
deriving DecidableEq

/-- A JSON document. `unreadable` is a text, or an object with a key, that escapes half of a
surrogate pair: well formed, so that it can be passed over, but without a value. -/
inductive Json where
  | null
  | bool (value : Bool)
  | natural (value : Nat)
  | decimal (value : Decimal)
  | text (value : String)
  | array (items : List Json)
  | object (members : List (String × Json))
  | unreadable

namespace Json

instance : Inhabited Json := ⟨.null⟩

/-- A text, or null where there is none. -/
def ofOption {α : Type} (encode : α → Json) : Option α → Json
  | some value => encode value
  | none => .null

mutual

/-- How deep arrays and objects are nested; a plain value is at depth 0. -/
def depth : Json → Nat
  | .array items => 1 + depthOfItems items
  | .object members => 1 + depthOfMembers members
  | _ => 0

/-- The greatest depth among the items of an array. -/
def depthOfItems : List Json → Nat
  | [] => 0
  | item :: items => max item.depth (depthOfItems items)

/-- The greatest depth among the values of an object. -/
def depthOfMembers : List (String × Json) → Nat
  | [] => 0
  | (_, value) :: members => max value.depth (depthOfMembers members)

end

mutual

/-- Whether every plain value anywhere in the document satisfies the test. -/
def allPlain (test : Json → Bool) : Json → Bool
  | .array items => allPlainItems test items
  | .object members => allPlainMembers test members
  | plain => test plain

/-- Whether the test holds throughout the items of an array. -/
def allPlainItems (test : Json → Bool) : List Json → Bool
  | [] => true
  | item :: items => item.allPlain test && allPlainItems test items

/-- Whether the test holds throughout the values of an object. -/
def allPlainMembers (test : Json → Bool) : List (String × Json) → Bool
  | [] => true
  | (_, value) :: members => value.allPlain test && allPlainMembers test members

end

end Json
end Docket
