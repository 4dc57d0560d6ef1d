import Docket.Proofs.JsonText
import Docket.Proofs.RecordMembers
import Docket.Task.Decision
import Docket.Wire.Calendar
import Docket.Wire.Task

/-! Snapshots of tasks, holidays and settings survive their written form. Each is one object with a
member for each of its keys, and every member is read as the value that was written. A task can so
be put away and taken up again at any point of its history: nothing that happens or is decided
later tells the difference. -/
namespace Docket.RecordWire
open Docket.Calendar Docket.Json Docket.RecordMembers Docket.Time

theorem lifecycle_read (stage : Lifecycle) : Lifecycle.ofJson? stage.toJson = some stage := by
  rw [Lifecycle.toJson, Lifecycle.ofJson?, named?, Option.bind_eq_bind, Option.bind_some,
    Lifecycle.ofName?_name]

/-- Every version can be read, the greatest one too. -/
theorem version_read (version : UInt64) :
    versionOfJson? (.natural version.toNat) = some version := by
  rw [versionOfJson?, naturalBelow?, if_pos version.toNat_lt, Option.map_some, UInt64.ofNat_toNat]

theorem days_read (days : UInt32) : Settings.daysOfJson? (.natural days.toNat) = some days := by
  rw [Settings.daysOfJson?, naturalBelow?, if_pos days.toNat_lt, Option.map_some,
    UInt32.ofNat_toNat]

theorem division_read (division : Division) :
    Division.ofJson? division.toJson = some division := rfl

variable {listed own : List (String × Json)}

/-- The members that a record lists are those that its object holds. -/
theorem held_of_written (written : Json.object listed = .object own) : listed ⊆ own := by
  cases written
  exact List.Subset.refl _

theorem ref_read {ref : NamedRef} (written : ref.toJson = .object own) (distinct : Distinct own) :
    (do return {
      id := ← required own "id" text?
      name := ← required own "name" text? } : Option NamedRef) = some ref := by
  have held := held_of_written written
  simp only [List.cons_subset] at held
  obtain ⟨id, name, -⟩ := held
  simp only [required_of_mem distinct id, required_of_mem distinct name, readable_text.back]
  rfl

theorem readable_ref : Readable NamedRef.toJson NamedRef.ofJson? :=
  readable_of_record (fun _ => rfl) (show ["id", "name"].Nodup by decide)
    (fun _ => ⟨_, rfl, rfl⟩) fun _ _ => ref_read

theorem task_read {task : Task} (written : task.toJson = .object own) (distinct : Distinct own) :
    Task.ofMembers? own = some task := by
  have held := held_of_written written
  simp only [List.cons_subset] at held
  obtain ⟨id, lifecycle, taskTypeId, taskType, reference, note, createdDate, hearingDate, courtId,
    jurisdiction, dueDate, workQueue, assignee, completedDate, deletionReason, deletedDate,
    version, -⟩ := held
  simp only [Task.ofMembers?, required_of_mem distinct id, readable_task.back,
    required_of_mem distinct lifecycle, lifecycle_read,
    optional_of_mem readable_text distinct taskTypeId,
    optional_of_mem readable_text distinct taskType,
    optional_of_mem readable_text distinct reference,
    optional_of_mem readable_text distinct note,
    optional_of_mem readable_instant distinct createdDate,
    optional_of_mem readable_instant distinct hearingDate,
    optional_of_mem readable_text distinct courtId,
    optional_of_mem readable_text distinct jurisdiction,
    optional_of_mem readable_instant distinct dueDate,
    optional_of_mem readable_ref distinct workQueue,
    optional_of_mem readable_ref distinct assignee,
    optional_of_mem readable_instant distinct completedDate,
    optional_of_mem readable_text distinct deletionReason,
    optional_of_mem readable_instant distinct deletedDate,
    required_of_mem distinct version, version_read]
  rfl

theorem holiday_read {holiday : PublicHoliday} (written : holiday.toJson = .object own)
    (distinct : Distinct own) :
    PublicHoliday.ofMembers? own = some holiday := by
  have held := held_of_written written
  simp only [List.cons_subset] at held
  obtain ⟨id, division, title, date, -⟩ := held
  simp only [PublicHoliday.ofMembers?, required_of_mem distinct id,
    required_of_mem distinct division, required_of_mem distinct title,
    required_of_mem distinct date, division_read, readable_date.back]
  rfl

theorem settings_read {settings : Settings} (written : settings.toJson = .object own)
    (distinct : Distinct own) :
    Settings.ofMembers? own = some settings := by
  have held := held_of_written written
  simp only [List.cons_subset] at held
  obtain ⟨division, windowDays, -⟩ := held
  simp only [Settings.ofMembers?, defaulted_of_mem distinct division,
    defaulted_of_mem distinct windowDays, division_read, days_read]
  rfl

theorem readable_snapshot : Readable Task.toJson Task.ofJson? :=
  readable_of_record (fun _ => rfl) (show Task.keys.Nodup by decide)
    (fun _ => ⟨_, rfl, rfl⟩) fun _ _ => task_read

theorem readable_holiday : Readable PublicHoliday.toJson PublicHoliday.ofJson? :=
  readable_of_record (fun _ => rfl) (show PublicHoliday.keys.Nodup by decide)
    (fun _ => ⟨_, rfl, rfl⟩) fun _ _ => holiday_read

theorem readable_settings : Readable Settings.toJson Settings.ofJson? :=
  readable_of_record (fun _ => rfl) (show Settings.keys.Nodup by decide)
    (fun _ => ⟨_, rfl, rfl⟩) fun _ _ => settings_read

/-- What is read from its document is read from the text of the document. -/
theorem read_print {α : Type} {encode : α → Json} {read : Json → Option α}
    (readable : Readable encode read) (a : α) : (Json.parse? (encode a).print >>= read) = some a := by
  rw [JsonText.parse?_print, Option.bind_eq_bind, Option.bind_some, readable.back]

theorem snapshot_read (task : Task) : Task.parse? task.print = some task :=
  read_print readable_snapshot task

/-- Every snapshot of a task is read back as it was. A task taken up from a snapshot comes to the
state that its whole history makes, wherever in the history the snapshot was taken, and decides
as the task itself. Holidays and settings are read back as they were, whatever their texts, dates
and numbers are. -/
theorem records_survive_writing :
    (∀ task : Task, Task.parse? task.print = some task) ∧
      (∀ id before after, (Task.parse? (Task.replay id before).print).map (·.applyAll after) =
        some (Task.replay id (before ++ after))) ∧
      (∀ (task : Task) (command : Command), (Task.parse? task.print).map (·.eventsFor command) =
        some (task.eventsFor command)) ∧
      (∀ holiday : PublicHoliday, PublicHoliday.parse? holiday.print = some holiday) ∧
      ∀ settings : Settings, Settings.parse? settings.print = some settings := by
  refine ⟨snapshot_read, fun id before after => ?_, fun task command => ?_,
    read_print readable_holiday, read_print readable_settings⟩
  · rw [snapshot_read, Option.map_some, Task.replay, Task.replay, Task.applyAll_append]
  · rw [snapshot_read, Option.map_some]

end Docket.RecordWire
