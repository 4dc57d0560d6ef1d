import Docket.Proofs.EventWire
import Docket.Proofs.NumberRange
import Mathlib.Logic.Relation

/-! Collaborators send events with their members in another order, with members of their own, with
nulls or without them. None of this changes what is read from a text: an event depends on the
members that its type has, and on nothing else. There is one condition. The type may stand last, so
all members are held before anyone knows which of them are needed, and a member that cannot be held,
because it is nested too deep, torn or too large, spoils the event whatever its key is. -/
namespace Docket.EventMembers
open Docket.Json Docket.Time

/-- The kinds of change that an event may state. -/
inductive Kind where
  | created
  | assigned
  | completed
  | deleted
  | dueDateUpdated
  | workQueueUpdated

/-- Whether a member has to be there, or may be missing or null. -/
inductive Need where
  | required
  | optional

namespace Kind

/-- The name that events of a kind bear. -/
def name : Kind → String
  | created => "TaskCreated"
  | assigned => "TaskAssigned"
  | completed => "TaskCompleted"
  | deleted => "TaskDeleted"
  | dueDateUpdated => "TaskDueDateUpdated"
  | workQueueUpdated => "TaskWorkqueueUpdated"

/-- The members that say what a change of a kind does. -/
def payload : Kind → List (String × Need)
  | created => [("taskTypeId", .optional), ("taskType", .optional), ("reference", .optional),
      ("note", .optional), ("createdDate", .optional), ("dueDate", .optional),
      ("hearingDate", .optional), ("workQueue", .optional), ("workQueueName", .optional),
      ("courtId", .optional), ("jurisdiction", .optional)]
  | assigned => [("assignTo", .optional), ("assignName", .optional), ("assignmentType", .required),
      ("details", .required)]
  | completed => [("completedDate", .required)]
  | deleted => [("deletionReason", .optional), ("deletedDate", .required)]
  | dueDateUpdated => [("dueDate", .optional)]
  | workQueueUpdated => [("workQueue", .optional), ("workQueueName", .optional),
      ("details", .required)]

/-- All the members that an event of a kind has. -/
def members (kind : Kind) : List (String × Need) :=
  ("eventType", .required) :: ("id", .required) ::
    (kind.payload ++ [("changeAuthor", .required), ("changeAuthorId", .required)])

end Kind

/-- The kind of a change. -/
def kindOf : Change → Kind
  | .created .. => .created
  | .assigned .. => .assigned
  | .completed .. => .completed
  | .deleted .. => .deleted
  | .dueDateUpdated .. => .dueDateUpdated
  | .workQueueUpdated .. => .workQueueUpdated

/-- The values that stand under a key, in their order. -/
def values (members : List (String × Json)) (key : String) : List Json :=
  (members.filter (·.1 == key)).map Prod.snd

/-- Members that say, once, of which kind their event is. -/
def Tagged (members : List (String × Json)) (kind : Kind) : Prop :=
  values members "eventType" = [.text kind.name]

/-- The keys that mean something among members: the key of the kind, and all keys of the kind that
the members are tagged with. -/
def Known (members : List (String × Json)) (key : String) : Prop :=
  key = "eventType" ∨ ∃ kind, Tagged members kind ∧ key ∈ kind.members.map Prod.fst

/-- A value that can be held in a member: it is nested at most 126 deep, and there is no torn text
and no number beyond the floating-point range in it. -/
def Fits (value : Json) : Prop := EventWire.Shallow 126 value

/-- The magnitude of a number, and of nothing else. -/
def magnitude : Json → Option ℚ
  | .natural value => some value
  | .decimal value => some (NumberRange.magnitude value.significand value.exponent)
  | _ => none

/-- What may be done to members on their way. Done the other way round, the last two take a
member out. -/
inductive Edit : List (String × Json) → List (String × Json) → Prop
  /-- The members are put in another order. -/
  | reorder {members other} (same : members.Perm other) : Edit members other
  /-- A member that means nothing is put anywhere. -/
  | foreign (before after key value) (unknown : ¬ Known (before ++ after) key)
      (fits : Fits value) :
      Edit (before ++ after) (before ++ (key, value) :: after)
  /-- A member that is optional and missing is put anywhere as a null. -/
  | blank (before after key kind) (tagged : Tagged (before ++ after) kind)
      (spare : (key, .optional) ∈ kind.members) (missing : values (before ++ after) key = []) :
      Edit (before ++ after) (before ++ (key, .null) :: after)

/-- A text spells an object of these members, in this order. -/
def Spells (text : String) (members : List (String × Json)) : Prop :=
  Json.parse? text = some (.object members)

/-- A member stands where it has to: a required one once and not as a null, an optional one at
most once. -/
def Stands (members : List (String × Json)) : String × Need → Prop
  | (key, .required) => ∃ value, value ≠ .null ∧ values members key = [value]
  | (key, .optional) => (values members key).length ≤ 1

section
variable {members other : List (String × Json)} {key : String} {α : Type} {read : Json → Option α}

/-- How often a key stands is seen from its values. -/
theorem find_eq (members : List (String × Json)) (key : String) :
    find members key = match values members key with
      | [] => .absent
      | [value] => .once value
      | _ => .repeated := by
  unfold find values
  generalize members.filter (·.1 == key) = found
  rcases found with _ | ⟨_, _ | ⟨_, _⟩⟩ <;> rfl

theorem find_eq_once {value : Json} :
    find members key = .once value ↔ values members key = [value] := by
  rw [find_eq]
  generalize values members key = found
  rcases found with _ | ⟨_, _ | ⟨_, _⟩⟩ <;> simp

theorem find_of_values (same : values members key = values other key) :
    find members key = find other key := by
  rw [find_eq, find_eq, same]

theorem values_of_perm (same : members.Perm other) (key : String) :
    (values members key).Perm (values other key) := (same.filter _).map _

/-- The order of repeated members is lost, but they are refused anyhow. -/
theorem find_of_perm (same : members.Perm other) (key : String) :
    find members key = find other key := by
  have shuffled := values_of_perm same key
  rw [find_eq, find_eq]
  generalize values members key = ours at shuffled
  generalize values other key = theirs at shuffled
  match ours with
  | [] => rw [shuffled.nil_eq]
  | [value] => rw [List.perm_singleton.mp shuffled.symm]
  | _ :: _ :: _ =>
    match theirs, shuffled.length_eq with
    | _ :: _ :: _, _ => rfl

theorem values_append (before after : List (String × Json)) (key : String) :
    values (before ++ after) key = values before key ++ values after key := by
  simp only [values, List.filter_append, List.map_append]

theorem values_cons (added key : String) (value : Json) (after : List (String × Json)) :
    values ((added, value) :: after) key =
      if added = key then value :: values after key else values after key := by
  simp only [values, List.filter_cons, beq_iff_eq]
  split <;> rfl

theorem values_of_other (before after : List (String × Json)) {added : String} (value : Json)
    (apart : added ≠ key) :
    values (before ++ (added, value) :: after) key = values (before ++ after) key := by
  rw [values_append, values_append, values_cons, if_neg apart]

/-- A missing key stands once where it has been put. -/
theorem values_of_missing {before after : List (String × Json)} (value : Json)
    (missing : values (before ++ after) key = []) :
    values (before ++ (key, value) :: after) key = [value] := by
  rw [values_append] at missing
  obtain ⟨front, back⟩ := List.append_eq_nil_iff.mp missing
  rw [values_append, values_cons, if_pos rfl, front, back, List.nil_append]

/-- Two lists of members do the same for a reader who looks for one member. -/
def AgreeOn (members other : List (String × Json)) : String × Need → Prop
  | (key, .required) => find members key = find other key
  | (key, .optional) => find members key = find other key ∨
      find members key = .absent ∧ find other key = .once .null

theorem agreeOn_of_find {entry : String × Need}
    (same : find members entry.1 = find other entry.1) : AgreeOn members other entry := by
  obtain ⟨key, need⟩ := entry
  cases need with
  | required => exact same
  | optional => exact .inl same

theorem required_congr (agree : AgreeOn members other (key, .required)) :
    required members key read = required other key read := by
  unfold AgreeOn at agree
  rw [required, required, agree]

/-- A missing member is read as a null is. -/
theorem optional_congr (agree : AgreeOn members other (key, .optional)) :
    Json.optional members key read = Json.optional other key read := by
  rcases agree with same | ⟨missing, null⟩
  · rw [Json.optional, Json.optional, same]
  · rw [Json.optional, Json.optional, missing, null]

theorem stands_of_required {a : α} (nonnull : read .null = none)
    (taken : required members key read = some a) : Stands members (key, .required) := by
  unfold required at taken
  split at taken
  · rename_i value once
    refine ⟨value, ?_, find_eq_once.mp once⟩
    rintro rfl
    cases nonnull.symm.trans taken
  · cases taken

/-- A text that has been read is the one value that stands under its key. -/
theorem values_of_text {text : String} (taken : required members key text? = some text) :
    values members key = [.text text] := by
  obtain ⟨value, -, once⟩ := stands_of_required rfl taken
  rw [required, find_eq_once.mpr once] at taken
  cases value with
  | text spelled =>
    cases taken
    exact once
  | _ => cases taken

theorem stands_of_optional {a : Option α} (taken : Json.optional members key read = some a) :
    Stands members (key, .optional) := by
  have notTwice : find members key ≠ .repeated := by
    intro twice
    rw [Json.optional, twice] at taken
    cases taken
  rw [find_eq] at notTwice
  change (values members key).length ≤ 1
  split at notTwice
  · rename_i none
    rw [none]
    exact Nat.zero_le 1
  · rename_i once
    rw [once]
    exact Nat.le_refl 1
  · cases notTwice rfl

end

section
variable {members other : List (String × Json)} {kind : Kind}

/-- A change of a kind is read from the members of the kind. -/
theorem change_congr (agree : ∀ entry ∈ kind.payload, AgreeOn members other entry) :
    Change.ofMembers? members kind.name = Change.ofMembers? other kind.name := by
  cases kind <;>
    simp only [Kind.payload, List.forall_mem_cons] at agree <;>
    simp only [Kind.name, Change.ofMembers?]
  case created =>
    obtain ⟨taskTypeId, taskType, reference, note, createdDate, dueDate, hearingDate, queueId,
      queueName, courtId, jurisdiction, -⟩ := agree
    simp only [Creation.ofMembers?, optional_congr taskTypeId, optional_congr taskType,
      optional_congr reference, optional_congr note, optional_congr createdDate,
      optional_congr dueDate, optional_congr hearingDate, optional_congr queueId,
      optional_congr queueName, optional_congr courtId, optional_congr jurisdiction]
  case assigned =>
    obtain ⟨assigneeId, assigneeName, assignmentType, details, -⟩ := agree
    simp only [optional_congr assigneeId, optional_congr assigneeName,
      required_congr assignmentType, required_congr details]
  case completed => simp only [required_congr agree.1]
  case deleted =>
    obtain ⟨reason, date, -⟩ := agree
    simp only [optional_congr reason, required_congr date]
  case dueDateUpdated => simp only [optional_congr agree.1]
  case workQueueUpdated =>
    obtain ⟨queueId, queueName, details, -⟩ := agree
    simp only [optional_congr queueId, optional_congr queueName, required_congr details]

theorem change_unknown {type : String} (unknown : ∀ kind : Kind, type ≠ kind.name) :
    Change.ofMembers? members type = none := by
  unfold Change.ofMembers?
  split
  · exact absurd rfl (unknown .created)
  · exact absurd rfl (unknown .assigned)
  · exact absurd rfl (unknown .completed)
  · exact absurd rfl (unknown .deleted)
  · exact absurd rfl (unknown .dueDateUpdated)
  · exact absurd rfl (unknown .workQueueUpdated)
  · rfl

/-- An event is read from the members of its kind. -/
theorem event_congr (tagged : Tagged members kind)
    (agree : ∀ entry ∈ kind.members, AgreeOn members other entry) :
    Event.ofMembers? members = Event.ofMembers? other := by
  simp only [Kind.members, List.forall_mem_cons, List.forall_mem_append] at agree
  obtain ⟨type, task, payload, author, authorId, -⟩ := agree
  have named : required members "eventType" text? = some kind.name := by
    rw [required, find_eq, tagged]
    rfl
  have named' : required other "eventType" text? = some kind.name :=
    (required_congr type).symm.trans named
  simp only [Event.ofMembers?, Author.ofMembers?, named, named', Option.bind_eq_bind,
    Option.bind_some, change_congr payload, required_congr task, required_congr author,
    required_congr authorId]

theorem unread_of_untagged (untagged : ∀ kind, ¬ Tagged members kind) :
    Event.ofMembers? members = none := by
  cases named : required members "eventType" text? with
  | none => simp only [Event.ofMembers?, named, Option.bind_eq_bind, Option.bind_none]
  | some type =>
    have unknown (kind : Kind) : type ≠ kind.name := by
      rintro rfl
      exact untagged kind (values_of_text named)
    simp only [Event.ofMembers?, named, Option.bind_eq_bind, Option.bind_some,
      change_unknown unknown, Option.bind_none, Option.bind_fun_none]

end

theorem Kind.name_injective {one other : Kind} (same : one.name = other.name) : one = other := by
  cases one <;> cases other <;> simp_all [Kind.name]

theorem Kind.members_nodup (kind : Kind) : (kind.members.map Prod.fst).Nodup := by
  cases kind <;> simp [Kind.members, Kind.payload]

section
variable {members other : List (String × Json)} {key : String} {kind : Kind}

theorem kind_unique {one : Kind} (tagged : Tagged members one) (also : Tagged members kind) :
    one = kind := by
  have same : [Json.text one.name] = [Json.text kind.name] := tagged.symm.trans also
  exact Kind.name_injective (Json.text.inj (List.cons.inj same).1)

/-- Where the kind is told, a key outside of it means nothing. -/
theorem unknown_of_tagged (tagged : Tagged members kind) (apart : key ≠ "eventType")
    (outside : key ∉ kind.members.map Prod.fst) : ¬ Known members key := by
  rintro (same | ⟨also, tagged', listed⟩)
  · exact apart same
  · cases kind_unique tagged tagged'
    exact outside listed

/-- No edit touches the member that tells the kind. -/
theorem find_type_of_edit (edit : Edit members other) :
    find members "eventType" = find other "eventType" := by
  cases edit with
  | reorder same => exact find_of_perm same _
  | foreign before after key value unknown fits =>
    have apart : key ≠ "eventType" := fun same => unknown (.inl same)
    exact find_of_values (values_of_other before after value apart).symm
  | blank before after key kind tagged spare missing =>
    have apart : key ≠ "eventType" := by
      rintro rfl
      cases tagged.symm.trans missing
    exact find_of_values (values_of_other before after .null apart).symm

/-- A reader who knows the kind does not notice an edit. -/
theorem agree_of_edit (edit : Edit members other) (tagged : Tagged members kind) :
    ∀ entry ∈ kind.members, AgreeOn members other entry := by
  rintro ⟨key, need⟩ listed
  cases edit with
  | reorder same => exact agreeOn_of_find (find_of_perm same key)
  | foreign before after added value unknown fits =>
    have apart : added ≠ key := by
      rintro rfl
      exact unknown (.inr ⟨kind, tagged, List.mem_map_of_mem listed⟩)
    exact agreeOn_of_find (find_of_values (values_of_other before after value apart).symm)
  | blank before after added kind' tagged' spare missing =>
    by_cases same : added = key
    · subst same
      cases kind_unique tagged' tagged
      cases List.inj_on_of_nodup_map kind.members_nodup listed spare rfl
      refine .inr ⟨?_, find_eq_once.mpr (values_of_missing .null missing)⟩
      rw [find_eq, missing]
    · exact agreeOn_of_find (find_of_values (values_of_other before after .null same).symm)

theorem read_of_edit (edit : Edit members other) :
    Event.ofMembers? members = Event.ofMembers? other := by
  by_cases tagged : ∃ kind, Tagged members kind
  · obtain ⟨kind, tagged⟩ := tagged
    exact event_congr tagged (agree_of_edit edit tagged)
  · have untagged (kind : Kind) : ¬ Tagged other kind := by
      intro tagged'
      apply tagged
      refine ⟨kind, find_eq_once.mp ?_⟩
      rw [find_type_of_edit edit]
      exact find_eq_once.mpr tagged'
    rw [unread_of_untagged (not_exists.mp tagged), unread_of_untagged untagged]

/-- What one edit keeps, any number of them keep, in either direction. -/
theorem kept_by_edits {α : Sort*} {value : List (String × Json) → α}
    (kept : ∀ members other, Edit members other → value members = value other)
    (edits : Relation.EqvGen Edit members other) : value members = value other := by
  induction edits with
  | rel members other edit => exact kept members other edit
  | refl _ => rfl
  | symm _ _ _ ih => exact ih.symm
  | trans _ _ _ _ _ one other => exact one.trans other

theorem read_of_edits (edits : Relation.EqvGen Edit members other) :
    Event.ofMembers? members = Event.ofMembers? other :=
  kept_by_edits (fun _ _ => read_of_edit) edits

theorem creation_stands {creation : Creation}
    (decoded : Creation.ofMembers? members = some creation) :
    ∀ entry ∈ Kind.created.payload, Stands members entry := by
  simp only [Creation.ofMembers?, Option.bind_eq_bind, Option.bind_eq_some_iff] at decoded
  obtain ⟨_, taskTypeId, _, taskType, _, reference, _, note, _, createdDate, _, hearingDate,
    _, courtId, _, jurisdiction, _, dueDate, _, queueId, _, queueName, -⟩ := decoded
  simp only [Kind.payload, List.forall_mem_cons]
  exact ⟨stands_of_optional taskTypeId, stands_of_optional taskType, stands_of_optional reference,
    stands_of_optional note, stands_of_optional createdDate, stands_of_optional dueDate,
    stands_of_optional hearingDate, stands_of_optional queueId, stands_of_optional queueName,
    stands_of_optional courtId, stands_of_optional jurisdiction, List.forall_mem_nil _⟩

/-- A change that has been read is of the kind that was named, and its members stood there. -/
theorem change_stands {type : String} {change : Change}
    (decoded : Change.ofMembers? members type = some change) :
    type = (kindOf change).name ∧ ∀ entry ∈ (kindOf change).payload, Stands members entry := by
  unfold Change.ofMembers? at decoded
  simp only [Option.bind_eq_bind, Option.pure_def] at decoded
  split at decoded
  case h_7 => cases decoded
  all_goals simp only [Option.bind_eq_some_iff] at decoded
  · obtain ⟨_, creation, ⟨⟩⟩ := decoded
    exact ⟨rfl, creation_stands creation⟩
  · obtain ⟨_, assigneeId, _, assigneeName, _, assignmentType, _, details, ⟨⟩⟩ := decoded
    refine ⟨rfl, ?_⟩
    simp only [kindOf, Kind.payload, List.forall_mem_cons]
    exact ⟨stands_of_optional assigneeId, stands_of_optional assigneeName,
      stands_of_required rfl assignmentType, stands_of_required rfl details,
      List.forall_mem_nil _⟩
  · obtain ⟨_, date, ⟨⟩⟩ := decoded
    exact ⟨rfl, List.forall_mem_cons.mpr ⟨stands_of_required rfl date, List.forall_mem_nil _⟩⟩
  · obtain ⟨_, reason, _, date, ⟨⟩⟩ := decoded
    refine ⟨rfl, List.forall_mem_cons.mpr ⟨stands_of_optional reason, ?_⟩⟩
    exact List.forall_mem_cons.mpr ⟨stands_of_required rfl date, List.forall_mem_nil _⟩
  · obtain ⟨_, dueDate, ⟨⟩⟩ := decoded
    exact ⟨rfl, List.forall_mem_cons.mpr ⟨stands_of_optional dueDate, List.forall_mem_nil _⟩⟩
  · obtain ⟨_, queueId, _, queueName, _, details, ⟨⟩⟩ := decoded
    refine ⟨rfl, ?_⟩
    simp only [kindOf, Kind.payload, List.forall_mem_cons]
    exact ⟨stands_of_optional queueId, stands_of_optional queueName,
      stands_of_required rfl details, List.forall_mem_nil _⟩

theorem event_stands {event : Event} (decoded : Event.ofMembers? members = some event) :
    Tagged members (kindOf event.change) ∧
      ∀ entry ∈ (kindOf event.change).members, Stands members entry := by
  simp only [Event.ofMembers?, Author.ofMembers?, Option.bind_eq_bind, Option.bind_eq_some_iff,
    Option.pure_def] at decoded
  obtain ⟨type, named, _, task, _, changed, _, ⟨_, author, _, authorId, -⟩, ⟨⟩⟩ := decoded
  obtain ⟨rfl, payload⟩ := change_stands changed
  refine ⟨values_of_text named, ?_⟩
  simp only [Kind.members, List.forall_mem_cons, List.forall_mem_append]
  exact ⟨stands_of_required rfl named, stands_of_required rfl task, payload,
    stands_of_required rfl author, stands_of_required rfl authorId, List.forall_mem_nil _⟩

end

section
variable {members other : List (String × Json)} {text : String}

theorem fits_of_measures (depth : depthOfMembers members ≤ 126)
    (plain : allPlainMembers isHeld members = true) : ∀ member ∈ members, Fits member.2 := by
  induction members with
  | nil => exact List.forall_mem_nil _
  | cons member members ih =>
    obtain ⟨first, rest⟩ := max_le_iff.mp depth
    obtain ⟨firstPlain, restPlain⟩ := Bool.and_eq_true_iff.mp plain
    exact List.forall_mem_cons.mpr ⟨⟨first, firstPlain⟩, ih rest restPlain⟩

/-- An object can be held just where each of its values can be held one deeper. -/
theorem isHoldable_object :
    (Json.object members).isHoldable = true ↔ ∀ member ∈ members, Fits member.2 := by
  constructor
  · intro holdable
    obtain ⟨shallow, plain⟩ := Bool.and_eq_true_iff.mp holdable
    have depth : 1 + depthOfMembers members < 128 := of_decide_eq_true shallow
    exact fits_of_measures (by omega) plain
  · intro fit
    exact EventWire.isHoldable_of_shallow (EventWire.shallow_object fit) (by decide)

theorem parse?_of_fits (spells : Spells text members)
    (fit : ∀ member ∈ members, Fits member.2) :
    Event.parse? text = Event.ofMembers? members := by
  have held : Json.parseHeld? text = some (.object members) := by
    rw [Json.parseHeld?, spells, Option.bind_eq_bind, Option.bind_some,
      if_pos (isHoldable_object.mpr fit)]
  rw [Event.parse?, held]
  rfl

/-- One member that cannot be held is enough. -/
theorem parse?_of_unfit (spells : Spells text members)
    (unfit : ¬ ∀ member ∈ members, Fits member.2) : Event.parse? text = none := by
  have refused : Json.parseHeld? text = none := by
    rw [Json.parseHeld?, spells, Option.bind_eq_bind, Option.bind_some,
      if_neg (unfit ∘ isHoldable_object.mp)]
  rw [Event.parse?, refused, Option.bind_eq_bind, Option.bind_none]

/-- What is read comes from an object whose values can all be held. -/
theorem spells_of_parse? {event : Event} (parsed : Event.parse? text = some event) :
    ∃ members, Spells text members ∧ Event.ofMembers? members = some event := by
  simp only [Event.parse?, Json.parseHeld?, Option.bind_eq_bind, Option.bind_eq_some_iff]
    at parsed
  obtain ⟨document, ⟨_, spells, held⟩, read⟩ := parsed
  split at held
  · cases held
    rw [Event.ofJson?, Option.bind_eq_bind, Option.bind_eq_some_iff] at read
    obtain ⟨members, isObject, read⟩ := read
    cases document with
    | object _ =>
      cases isObject
      exact ⟨_, spells, read⟩
    | _ => cases isObject
  · cases held

theorem fits_of_holds {number : Json} {significand : Nat} {exponent : Int}
    (holds : Fits number ↔ holdsMagnitude significand exponent = true) :
    (NumberRange.magnitude significand exponent < 10 ^ 308 → Fits number) ∧
      (10 ^ 309 ≤ NumberRange.magnitude significand exponent → ¬ Fits number) := by
  refine ⟨fun small => holds.mpr (NumberRange.holds_of_small small), fun large fits => ?_⟩
  cases (holds.mp fits).symm.trans (NumberRange.refuses_large large)

/-- Only between `10 ^ 308` and `10 ^ 309` does it take the digits to tell whether a number fits. -/
theorem fits_of_magnitude {number : Json} {size : ℚ} (measured : magnitude number = some size) :
    (size < 10 ^ 308 → Fits number) ∧ (10 ^ 309 ≤ size → ¬ Fits number) := by
  cases number with
  | natural value =>
    have holds : Fits (.natural value) ↔ holdsMagnitude value 0 = true :=
      ⟨fun fits => fits.plain, fun held => ⟨Nat.zero_le 126, held⟩⟩
    have whole : NumberRange.magnitude value 0 = size := by
      rw [NumberRange.magnitude, zpow_zero, mul_one]
      exact Option.some.inj measured
    exact whole ▸ fits_of_holds holds
  | decimal value =>
    have holds : Fits (.decimal value) ↔
        holdsMagnitude value.significand value.exponent = true :=
      ⟨fun fits => fits.plain, fun held => ⟨Nat.zero_le 126, held⟩⟩
    cases measured
    exact fits_of_holds holds
  | _ => cases measured

/-- Of the plain values that are no numbers, only what is torn does not fit. -/
theorem fits_of_unmeasured {value : Json} (plain : value.depth = 0)
    (unmeasured : magnitude value = none) : Fits value ↔ value ≠ .unreadable := by
  cases value with
  | null | bool | text => exact ⟨fun _ => nofun, fun _ => ⟨Nat.zero_le 126, rfl⟩⟩
  | unreadable =>
    exact ⟨fun fits => absurd fits.plain Bool.false_ne_true, fun whole => absurd rfl whole⟩
  | natural | decimal => cases unmeasured
  | array | object =>
    rw [Json.depth] at plain
    omega

theorem fits_insert {before after : List (String × Json)} {key : String} {value : Json}
    (fits : Fits value) :
    (∀ member ∈ before ++ after, Fits member.2) ↔
      ∀ member ∈ before ++ (key, value) :: after, Fits member.2 := by
  simp only [List.forall_mem_append, List.forall_mem_cons, fits, true_and]

theorem fits_of_edit (edit : Edit members other) :
    (∀ member ∈ members, Fits member.2) ↔ ∀ member ∈ other, Fits member.2 := by
  cases edit with
  | reorder same => simp only [same.mem_iff]
  | foreign before after key value unknown fits => exact fits_insert fits
  | blank before after key kind tagged spare missing => exact fits_insert ⟨Nat.zero_le 126, rfl⟩

/-- Edits neither bring in nor take out what cannot be held. -/
theorem fits_of_edits (edits : Relation.EqvGen Edit members other) :
    (∀ member ∈ members, Fits member.2) ↔ ∀ member ∈ other, Fits member.2 :=
  iff_of_eq (kept_by_edits (fun _ _ edit => propext (fits_of_edit edit)) edits)

/-- Texts whose members differ by edits are read alike, also where they cannot be read. -/
theorem parse?_of_edits {text' : String} (edits : Relation.EqvGen Edit members other)
    (spells : Spells text members) (spells' : Spells text' other) :
    Event.parse? text = Event.parse? text' := by
  by_cases fit : ∀ member ∈ members, Fits member.2
  · rw [parse?_of_fits spells fit, parse?_of_fits spells' ((fits_of_edits edits).mp fit),
      read_of_edits edits]
  · rw [parse?_of_unfit spells fit, parse?_of_unfit spells' (fit ∘ (fits_of_edits edits).mpr)]

end

/-- The members that an event is written with are those of its kind. -/
theorem keys_written (event : Event) :
    (EventWire.fields event).map Prod.fst = (kindOf event.change).members.map Prod.fst := by
  obtain ⟨task, change, author⟩ := event
  cases change <;> rfl

/-- Whatever members there are, some text spells them. -/
theorem spells_print (members : List (String × Json)) :
    Spells (Json.object members).print members :=
  JsonText.parse?_print (.object members)

/-- A text spells one object at most. -/
theorem members_unique {text : String} {members other : List (String × Json)}
    (spells : Spells text members) (also : Spells text other) : members = other :=
  Json.object.inj (Option.some.inj (spells.symm.trans also))

/-- What a text is read as depends on the members of its kind alone: not on their order, not on
members that mean nothing, and not on whether an optional one is null or missing. An event that is
read had all that its kind requires, once and not as a null, and nothing that its kind knows twice;
and every event that has been written is read, whatever has been done to its members. This goes for
members that can be held. One that cannot, also one that means nothing, leaves nothing to read. Of
plain values these are what is torn and numbers that are too large: each number below `10 ^ 308` can
be held, and none from `10 ^ 309` on. -/
theorem events_read_by_known_members :
    (∀ event : Event, event.typeName = (kindOf event.change).name ∧
      ∃ own, Spells event.print own ∧
        own.map Prod.fst = (kindOf event.change).members.map Prod.fst ∧
        ∀ members text, Relation.EqvGen Edit own members → Spells text members →
          Event.parse? text = some event) ∧
    (∀ members other, Relation.EqvGen Edit members other →
      ∀ text text', Spells text members → Spells text' other →
        Event.parse? text = Event.parse? text') ∧
    (∀ text event, Event.parse? text = some event →
      ∃ members, Spells text members ∧ Tagged members (kindOf event.change) ∧
        ∀ entry ∈ (kindOf event.change).members, Stands members entry) ∧
    (∀ members text, Spells text members → (∃ member ∈ members, ¬ Fits member.2) →
      Event.parse? text = none) ∧
    ∀ value, value.depth = 0 →
      (∀ size, magnitude value = some size →
        (size < 10 ^ 308 → Fits value) ∧ (10 ^ 309 ≤ size → ¬ Fits value)) ∧
      (magnitude value = none → (Fits value ↔ value ≠ .unreadable)) := by
  refine ⟨fun event => ⟨?_, EventWire.fields event, spells_print _, keys_written event,
    fun members text edits spells => ?_⟩,
    fun members other edits text text' => parse?_of_edits edits,
    fun text event parsed => ?_, fun members text spells unfit => ?_,
    fun value plain => ⟨fun size => fits_of_magnitude, fits_of_unmeasured plain⟩⟩
  · obtain ⟨task, change, author⟩ := event
    cases change <;> rfl
  · rw [← parse?_of_edits edits (spells_print _) spells]
    exact EventWire.parse?_print event
  · obtain ⟨members, spells, read⟩ := spells_of_parse? parsed
    exact ⟨members, spells, event_stands read⟩
  · obtain ⟨member, listed, unfit⟩ := unfit
    exact parse?_of_unfit spells fun fit => unfit (fit member listed)

/-- The completion of a task on the tenth of January 2024, at ten o'clock. -/
def completion : Event where
  task := ⟨0x67e5504410b1426f9247bb680e5fe0c8⟩
  change := .completed ⟨(Date.ofCalendar? 2024 1 10).getD .first, ⟨36000, 0, by decide, by decide⟩⟩
  author := ⟨"a", "b"⟩

/-- The completion with a member that no event has. -/
def remarked (remark : Json) : List (String × Json) :=
  EventWire.fields completion ++ [("n", remark)]

/-- Arrays inside of each other, as many as told. -/
def nested : Nat → Json
  | 0 => .null
  | depth + 1 => .array [nested depth]

theorem depth_nested (depth : Nat) : (nested depth).depth = depth := by
  induction depth with
  | zero => rfl
  | succ depth ih =>
    have deeper : (nested (depth + 1)).depth = 1 + max (nested depth).depth 0 := rfl
    rw [deeper, ih]
    omega

theorem plain_nested (depth : Nat) : (nested depth).allPlain isHeld = true := by
  induction depth with
  | zero => rfl
  | succ depth ih => exact Bool.and_eq_true_iff.mpr ⟨ih, rfl⟩

theorem fits_nested {depth : Nat} : Fits (nested depth) ↔ depth ≤ 126 := by
  constructor
  · intro fits
    exact (depth_nested depth).symm.trans_le fits.depth
  · intro low
    exact ⟨(depth_nested depth).trans_le low, plain_nested depth⟩

theorem magnitude_huge : 10 ^ 309 ≤ NumberRange.magnitude 1 309 := by
  rw [NumberRange.magnitude, Nat.cast_one, one_mul]
  exact (zpow_natCast (10 : ℚ) 309).ge

theorem unknown_remark : ¬ Known (EventWire.fields completion) "n" := by
  have tagged : Tagged (EventWire.fields completion) .completed := rfl
  exact unknown_of_tagged tagged (by decide) (by simp [Kind.members, Kind.payload])

theorem remark_passed {remark : Json} (fits : Fits remark) :
    Event.parse? (Json.object (remarked remark)).print = some completion := by
  have whole : EventWire.fields completion ++ [] = EventWire.fields completion :=
    List.append_nil _
  have edit : Edit (EventWire.fields completion ++ []) (remarked remark) :=
    .foreign (EventWire.fields completion) [] "n" remark (whole.symm ▸ unknown_remark) fits
  rw [whole] at edit
  rw [← parse?_of_edits (.rel _ _ edit) (spells_print _) (spells_print _)]
  exact EventWire.parse?_print completion

theorem remark_refused {remark : Json} (unfit : ¬ Fits remark) :
    Event.parse? (Json.object (remarked remark)).print = none := by
  apply parse?_of_unfit (spells_print _)
  intro fit
  exact unfit (fit ("n", remark) (List.mem_append_right _ List.mem_cons_self))

/-- A member without a meaning is not always passed over. An event that can be read cannot be read
any more once it has one that holds too large a number, half of a surrogate pair or an array that
is nested too deep; one level less would do. -/
theorem completion_spoiled_by_remark :
    ¬ Known (EventWire.fields completion) "n" ∧
      Event.parse? ("\x7b\"eventType\":\"TaskCompleted\"," ++
        "\"id\":\"67e55044-10b1-426f-9247-bb680e5fe0c8\"," ++
        "\"completedDate\":\"2024-01-10T10:00:00Z\"," ++
        "\"changeAuthor\":\"a\",\"changeAuthorId\":\"b\"\x7d") = some completion ∧
      Event.parse? ("\x7b\"eventType\":\"TaskCompleted\"," ++
        "\"id\":\"67e55044-10b1-426f-9247-bb680e5fe0c8\"," ++
        "\"completedDate\":\"2024-01-10T10:00:00Z\"," ++
        "\"changeAuthor\":\"a\",\"changeAuthorId\":\"b\",\"n\":1e309\x7d") = none ∧
      Event.parse? (Json.object (remarked .unreadable)).print = none ∧
      Event.parse? (Json.object (remarked (nested 126))).print = some completion ∧
      Event.parse? (Json.object (remarked (nested 127))).print = none := by
  have huge : ¬ Fits (.decimal ⟨false, 1, 309⟩) := (fits_of_magnitude rfl).2 magnitude_huge
  have torn : ¬ Fits .unreadable := fun fits => Bool.false_ne_true fits.plain
  have deep : ¬ Fits (nested 127) := fun fits => absurd (fits_nested.mp fits) (by decide)
  have bare := EventWire.parse?_print completion
  have spoiled := remark_refused huge
  refine ⟨unknown_remark, ?_, ?_, remark_refused torn,
    remark_passed (fits_nested.mpr (Nat.le_refl 126)), remark_refused deep⟩
  · convert bare using 2
    decide +kernel
  · convert spoiled using 2
    decide +kernel

/-- A deletion for which no reason is given. -/
def deletion : Event := ⟨⟨7⟩, .deleted none ⟨.first, .midnight⟩, ⟨"Clerk", "c-1"⟩⟩

/-- The members of the deletion without the reason, its kind last. -/
def reversed : List (String × Json) :=
  [("changeAuthorId", .text "c-1"), ("changeAuthor", .text "Clerk"),
    ("deletedDate", (Instant.mk .first .midnight).toJson), ("id", (TaskId.mk 7).toJson),
    ("eventType", .text "TaskDeleted")]

/-- The deletion with a member in front that other kinds have, and no kind could read. -/
def enriched : List (String × Json) := ("dueDate", .text "never") :: reversed

/-- The deletion comes through three edits, and is lost with a number that cannot be held. -/
theorem deletion_read_enriched :
    Relation.EqvGen Edit (EventWire.fields deletion) enriched ∧
      Event.parse? (Json.object enriched).print = some deletion ∧
      Event.parse? (Json.object (EventWire.fields deletion)).print =
        Event.parse? (Json.object enriched).print ∧
      (∀ entry ∈ Kind.deleted.members, Stands enriched entry) ∧
      Event.parse? (Json.object (("note", .decimal ⟨false, 1, 309⟩) :: enriched)).print = none := by
  have shortened : Edit reversed.reverse (EventWire.fields deletion) :=
    .blank (reversed.reverse.take 2) (reversed.reverse.drop 2) "deletionReason" .deleted rfl
      (by simp [Kind.members, Kind.payload]) rfl
  have tagged : Tagged reversed .deleted := rfl
  have unknown : ¬ Known reversed "dueDate" :=
    unknown_of_tagged tagged (by decide) (by simp [Kind.members, Kind.payload])
  have fits : Fits (.text "never") := ⟨Nat.zero_le 126, rfl⟩
  have edits : Relation.EqvGen Edit (EventWire.fields deletion) enriched :=
    .trans _ _ _ (.symm _ _ (.rel _ _ shortened)) (.trans _ _ _
      (.rel _ _ (.reorder (List.reverse_perm reversed)))
      (.rel _ _ (.foreign [] reversed "dueDate" (.text "never") unknown fits)))
  obtain ⟨written, alike, stands, refused, range⟩ := events_read_by_known_members
  obtain ⟨-, own, spelled, -, kept⟩ := written deletion
  obtain rfl : own = EventWire.fields deletion :=
    members_unique spelled (spells_print (EventWire.fields deletion))
  have read := kept enriched _ edits (spells_print enriched)
  obtain ⟨members, spells, -, placed⟩ := stands _ _ read
  obtain rfl : members = enriched := members_unique spells (spells_print enriched)
  refine ⟨edits, read, alike _ _ edits _ _ (spells_print _) (spells_print _), placed, ?_⟩
  exact refused _ _ (spells_print _) ⟨("note", .decimal ⟨false, 1, 309⟩), List.mem_cons_self,
    ((range _ rfl).1 _ rfl).2 magnitude_huge⟩

end Docket.EventMembers
