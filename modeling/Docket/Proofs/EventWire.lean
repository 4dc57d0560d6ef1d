import Docket.Proofs.JsonText
import Docket.Proofs.RecordMembers
import Docket.Wire.Event

/-! Events survive their written form. The keys of an event are all different, whatever its type,
so each member is found where a reader looks for it; the type tells which members these are. -/
namespace Docket.EventWire
open Docket.Json Docket.RecordMembers Docket.Time

/-- The members of an event, its type first. -/
def fields (event : Event) : List (String × Json) :=
  ("eventType", .text event.typeName) :: ("id", event.task.toJson) ::
    (event.change.members ++ event.author.members)

theorem toJson_eq (event : Event) : event.toJson = .object (fields event) := rfl

/-- The keys of an event's members depend on its type alone, and none of them stands twice. -/
theorem distinct_fields (event : Event) : Distinct (fields event) := by
  obtain ⟨task, change, author⟩ := event
  unfold Distinct
  -- Once the type is known, the keys are literals.
  cases change <;> simp [fields, Change.members, Author.members]

theorem assignmentType_read (type : AssignmentType) :
    AssignmentType.ofJson? isNullOrEmpty type.toJson = some type := by
  rw [AssignmentType.toJson, AssignmentType.ofJson?, named?, Option.bind_eq_bind, Option.bind_some,
    AssignmentType.ofName?_name]

section
variable {members : List (String × Json)} (distinct : Distinct members)
include distinct

theorem creation_read {creation : Creation}
    (held : (Change.created creation).members ⊆ members) :
    Creation.ofMembers? members = some creation := by
  simp only [Change.members, List.cons_subset] at held
  obtain ⟨taskTypeId, taskType, reference, note, createdDate, dueDate, hearingDate, queueId,
    queueName, courtId, jurisdiction, -⟩ := held
  simp only [Creation.ofMembers?, optional_of_mem readable_text distinct taskTypeId,
    optional_of_mem readable_text distinct taskType,
    optional_of_mem readable_text distinct reference,
    optional_of_mem readable_text distinct note,
    optional_of_mem readable_instant distinct createdDate,
    optional_of_mem readable_instant distinct dueDate,
    optional_of_mem readable_instant distinct hearingDate,
    optional_of_mem readable_text distinct queueId,
    optional_of_mem readable_text distinct queueName,
    optional_of_mem readable_text distinct courtId,
    optional_of_mem readable_text distinct jurisdiction]
  rfl

/-- A change is read out of any members that its own are among. -/
theorem change_read {change : Change} (held : change.members ⊆ members) :
    Change.ofMembers? members change.name = some change := by
  cases change with
  | created creation =>
    simp only [Change.name, Change.ofMembers?, creation_read distinct held]
    rfl
  | assigned assignee type details =>
    simp only [Change.members, List.cons_subset] at held
    obtain ⟨assigneeId, assigneeName, assignmentType, note, -⟩ := held
    simp only [Change.name, Change.ofMembers?, optional_of_mem readable_text distinct assigneeId,
      optional_of_mem readable_text distinct assigneeName,
      required_of_mem distinct assignmentType, required_of_mem distinct note, assignmentType_read]
    rfl
  | completed date =>
    simp only [Change.members, List.cons_subset] at held
    simp only [Change.name, Change.ofMembers?, required_of_mem distinct held.1,
      readable_instant.back]
    rfl
  | deleted reason date =>
    simp only [Change.members, List.cons_subset] at held
    obtain ⟨why, deletedDate, -⟩ := held
    simp only [Change.name, Change.ofMembers?, optional_of_mem readable_text distinct why,
      required_of_mem distinct deletedDate, readable_instant.back]
    rfl
  | dueDateUpdated dueDate =>
    simp only [Change.members, List.cons_subset] at held
    simp only [Change.name, Change.ofMembers?, optional_of_mem readable_instant distinct held.1]
    rfl
  | workQueueUpdated workQueue details =>
    simp only [Change.members, List.cons_subset] at held
    obtain ⟨queueId, queueName, note, -⟩ := held
    simp only [Change.name, Change.ofMembers?, optional_of_mem readable_text distinct queueId,
      optional_of_mem readable_text distinct queueName, required_of_mem distinct note]
    rfl

theorem author_read {author : Author} (held : author.members ⊆ members) :
    Author.ofMembers? members = some author := by
  simp only [Author.members, List.cons_subset] at held
  obtain ⟨name, id, -⟩ := held
  simp only [Author.ofMembers?, required_of_mem distinct name, required_of_mem distinct id]
  rfl

end

/-- An event is read from its own document. -/
theorem ofJson?_toJson (event : Event) : Event.ofJson? event.toJson = some event := by
  have distinct := distinct_fields event
  have type : ("eventType", Json.text event.change.name) ∈ fields event := by
    simp [fields, Event.typeName]
  have task : ("id", event.task.toJson) ∈ fields event := by simp [fields]
  have change : event.change.members ⊆ fields event := by
    intro member held
    simp [fields, held]
  have author : event.author.members ⊆ fields event := by
    intro member held
    simp [fields, held]
  have read : Event.ofMembers? (fields event) = some event := by
    simp only [Event.ofMembers?, required_of_mem distinct type, required_of_mem distinct task,
      readable_text.back, readable_task.back, Option.bind_eq_bind, Option.bind_some,
      change_read distinct change, author_read distinct author]
    rfl
  rw [toJson_eq, Event.ofJson?, members?, Option.bind_eq_bind, Option.bind_some, read]

theorem listOfJson?_listToJson (events : List Event) :
    Event.listOfJson? (Event.listToJson events) = some events :=
  JsonText.mapM_written ofJson?_toJson events

/-- A document of limited depth whose plain values can all be held. -/
structure Shallow (limit : Nat) (document : Json) : Prop where
  depth : document.depth ≤ limit
  plain : document.allPlain isHeld = true

theorem shallow_text (text : String) : Shallow 0 (.text text) := ⟨Nat.le_refl 0, rfl⟩

theorem shallow_ofOption {α : Type} {encode : α → Json} (shallow : ∀ a, Shallow 0 (encode a))
    (a : Option α) : Shallow 0 (ofOption encode a) := by
  cases a with
  | none => exact ⟨Nat.le_refl 0, rfl⟩
  | some a => exact shallow a

theorem shallow_items {limit : Nat} {items : List Json}
    (shallow : ∀ item ∈ items, Shallow limit item) :
    depthOfItems items ≤ limit ∧ allPlainItems isHeld items = true := by
  induction items with
  | nil => exact ⟨Nat.zero_le limit, rfl⟩
  | cons item items ih =>
    obtain ⟨first, rest⟩ := List.forall_mem_cons.mp shallow
    obtain ⟨depth, plain⟩ := ih rest
    exact ⟨max_le first.depth depth, Bool.and_eq_true_iff.mpr ⟨first.plain, plain⟩⟩

theorem shallow_array {limit : Nat} {items : List Json}
    (shallow : ∀ item ∈ items, Shallow limit item) : Shallow (limit + 1) (.array items) := by
  obtain ⟨depth, plain⟩ := shallow_items shallow
  have deeper : (Json.array items).depth = 1 + depthOfItems items := rfl
  exact ⟨by omega, plain⟩

/-- The keys of an object make it neither deeper nor harder to hold than the array of its values. -/
theorem measures_of_members (members : List (String × Json)) :
    depthOfMembers members = depthOfItems (members.map Prod.snd) ∧
      allPlainMembers isHeld members = allPlainItems isHeld (members.map Prod.snd) := by
  induction members with
  | nil => exact ⟨rfl, rfl⟩
  | cons member members ih =>
    exact ⟨congrArg (max member.2.depth) ih.1, congrArg (member.2.allPlain isHeld && ·) ih.2⟩

theorem shallow_object {limit : Nat} {members : List (String × Json)}
    (shallow : ∀ member ∈ members, Shallow limit member.2) :
    Shallow (limit + 1) (.object members) := by
  obtain ⟨depth, plain⟩ := shallow_items (List.forall_mem_map.mpr shallow)
  obtain ⟨sameDepth, samePlain⟩ := measures_of_members members
  have deeper : (Json.object members).depth = 1 + depthOfMembers members := rfl
  exact ⟨by omega, samePlain.trans plain⟩

theorem isHoldable_of_shallow {limit : Nat} {document : Json} (shallow : Shallow limit document)
    (low : limit < depthLimit) : document.isHoldable = true := by
  have depth : document.depth < depthLimit := lt_of_le_of_lt shallow.depth low
  rw [isHoldable, shallow.plain, decide_eq_true depth]
  rfl

theorem shallow_change (change : Change) : ∀ member ∈ change.members, Shallow 0 member.2 := by
  have text (value : Option String) : Shallow 0 (ofOption .text value) :=
    shallow_ofOption shallow_text value
  have spelled (value : Instant) : Shallow 0 value.toJson := shallow_text value.text
  have instant (value : Option Instant) : Shallow 0 (ofOption Instant.toJson value) :=
    shallow_ofOption spelled value
  cases change <;>
    simp [Change.members, text, instant, shallow_text, AssignmentType.toJson, Instant.toJson]

theorem shallow_toJson (event : Event) : Shallow 1 event.toJson := by
  rw [toJson_eq]
  refine shallow_object (List.forall_mem_cons.mpr ⟨shallow_text _, ?_⟩)
  refine List.forall_mem_cons.mpr ⟨shallow_text _, ?_⟩
  refine List.forall_mem_append.mpr ⟨shallow_change event.change, ?_⟩
  simp [Author.members, shallow_text]

/-- What is not too deep is read back from its written form, to be held. -/
theorem parseHeld?_print {limit : Nat} {document : Json} (shallow : Shallow limit document)
    (low : limit < depthLimit) : Json.parseHeld? document.print = some document := by
  rw [Json.parseHeld?, JsonText.parse?_print, Option.bind_eq_bind, Option.bind_some,
    if_pos (isHoldable_of_shallow shallow low)]

theorem parse?_print (event : Event) : Event.parse? event.print = some event := by
  have held := parseHeld?_print (shallow_toJson event) (by decide)
  rw [Event.parse?, Event.print, held, Option.bind_eq_bind, Option.bind_some, ofJson?_toJson]

theorem parseList?_printList (events : List Event) :
    Event.parseList? (Event.printList events) = some events := by
  have shallow : ∀ document ∈ events.map Event.toJson, Shallow 1 document := by
    intro document written
    obtain ⟨event, -, rfl⟩ := List.mem_map.mp written
    exact shallow_toJson event
  have held := parseHeld?_print (shallow_array shallow) (by decide)
  rw [← Event.listToJson] at held
  rw [Event.parseList?, Event.printList, held, Option.bind_eq_bind, Option.bind_some,
    listOfJson?_listToJson]

theorem injective_of_read {α : Type} {write : α → String} {read : String → Option α}
    (back : ∀ a, read (write a) = some a) : Function.Injective write := by
  intro first second alike
  have same : some first = some second := by rw [← back first, alike, back second]
  exact Option.some.inj same

/-- Every event and every list of events is read back from its written form as it was, so that no
two of them are written alike. -/
theorem events_survive_writing :
    (∀ events, Event.parseList? (Event.printList events) = some events) ∧
      (∀ event, Event.parse? event.print = some event) ∧
      Function.Injective Event.printList ∧ Function.Injective Event.print :=
  ⟨parseList?_printList, parse?_print, injective_of_read parseList?_printList,
    injective_of_read parse?_print⟩

end Docket.EventWire
