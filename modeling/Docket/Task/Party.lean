/-! Those that a task refers to are known by an identifier and a display name. Commands and
events carry the two separately, and either may be missing. -/
namespace Docket

/-- A reference to someone or something outside: an identifier and the name to show. -/
structure NamedRef where
  id : String
  name : String
deriving DecidableEq

/-- The queue that a task waits in. -/
abbrev WorkQueue := NamedRef

/-- The person that a task is given to. -/
abbrev Assignee := NamedRef

/-- Whoever caused a change. -/
structure Author where
  name : String := ""
  id : String := ""
deriving DecidableEq

/-- A reference in two parts, each of which may be missing. -/
structure RefParts where
  id : Option String := none
  name : Option String := none
deriving DecidableEq

namespace RefParts

/-- The reference that two parts name: none only where both are missing; a single missing part
counts as empty. -/
def ref? (parts : RefParts) : Option NamedRef :=
  match parts.id, parts.name with
  | none, none => none
  | id, name => some ⟨id.getD "", name.getD ""⟩

/-- The parts of a reference, both present or both missing. -/
def ofRef? (ref : Option NamedRef) : RefParts := ⟨ref.map (·.id), ref.map (·.name)⟩

/-- Taking a reference apart loses nothing. -/
@[simp] theorem ref?_ofRef? (ref : Option NamedRef) : (ofRef? ref).ref? = ref := by
  cases ref <;> rfl

theorem ref?_eq_none {parts : RefParts} :
    parts.ref? = none ↔ parts.id = none ∧ parts.name = none := by
  obtain ⟨_ | id, _ | name⟩ := parts <;> simp [ref?]

end RefParts
end Docket
