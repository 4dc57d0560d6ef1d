import Docket.Json.Member
import Docket.Task.Lifecycle
import Docket.Time.InstantText

/-! The plain values that records are made of: identifiers, dates and instants are texts, and
a value out of a few is its name. -/
namespace Docket
open Docket.Time

/-- A task identifier as a document. -/
def TaskId.toJson (id : TaskId) : Json := .text id.text

/-- Reads a task identifier. -/
def TaskId.ofJson? (document : Json) : Option TaskId := document.text? >>= TaskId.ofText?

/-- A date as a document. -/
def Time.Date.toJson (date : Date) : Json := .text date.text

/-- Reads a date. -/
def Time.Date.ofJson? (document : Json) : Option Date := document.text? >>= Date.ofText?

/-- An instant as a document. -/
def Time.Instant.toJson (instant : Instant) : Json := .text instant.text

/-- Reads an instant. -/
def Time.Instant.ofJson? (document : Json) : Option Instant := document.text? >>= Instant.ofText?

/-- A stage of life as a document. -/
def Lifecycle.toJson (stage : Lifecycle) : Json := .text stage.name

/-- Reads a stage of life: its name, or an object with its name and null. -/
def Lifecycle.ofJson? (document : Json) : Option Lifecycle :=
  document.named? Json.isNull >>= Lifecycle.ofName?

/-- An assignment type as a document. -/
def AssignmentType.toJson (type : AssignmentType) : Json := .text type.name

/-- Reads an assignment type: its name, or an object with its name and a content that counts as
empty. -/
def AssignmentType.ofJson? (isEmpty : Json → Bool) (document : Json) : Option AssignmentType :=
  document.named? isEmpty >>= AssignmentType.ofName?

/-- A reference as a document. -/
def NamedRef.toJson (ref : NamedRef) : Json :=
  .object [("id", .text ref.id), ("name", .text ref.name)]

/-- Reads a reference. -/
def NamedRef.ofJson? (document : Json) : Option NamedRef := do
  let members ← document.record? ["id", "name"]
  return {
    id := ← Json.required members "id" Json.text?
    name := ← Json.required members "name" Json.text? }

/-- The two members that an author takes in a record. -/
def Author.members (author : Author) : List (String × Json) :=
  [("changeAuthor", .text author.name), ("changeAuthorId", .text author.id)]

/-- Reads an author out of the members of a record. -/
def Author.ofMembers? (members : List (String × Json)) : Option Author := do
  return {
    name := ← Json.required members "changeAuthor" Json.text?
    id := ← Json.required members "changeAuthorId" Json.text? }

/-- An author as a document of its own. -/
def Author.toJson (author : Author) : Json := .object author.members

/-- Reads an author. -/
def Author.ofJson? (document : Json) : Option Author :=
  document.record? ["changeAuthor", "changeAuthorId"] >>= Author.ofMembers?

end Docket
