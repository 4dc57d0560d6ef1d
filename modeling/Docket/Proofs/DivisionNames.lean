import Docket.Proofs.DueDateOutcome
import Docket.Proofs.RecordWire
import Docket.Proofs.Scanning
import Docket.Wire.Calendar

/-! A division that is made from a text is trimmed, but one that is read from a document is not.
So the same text names the same division either way just where it has no blanks around it. With
blanks it names another division when it is read: who asks for the one does not find the holidays
of the other, and counts them as working days. -/
namespace Docket.DivisionNames
open Docket.Calendar Docket.DueDateObstacle Docket.DueDateOutcome Docket.Json Docket.Scanning
open Docket.Text Docket.Time

/-- A division that its own name would be made into. -/
def Trimmed (division : Division) : Prop := Division.ofText division.name = division

/-- A record that is read from a document in which a text names its division. -/
structure Naming {α : Type} (opens : Json → Option (List (String × Json)))
    (reads : Json → Option α) (text : String) (record : α) (document : Json)
    (members : List (String × Json)) : Prop where
  opened : opens document = some members
  named : find members "division" = .once (.text text)
  read : reads document = some record

/-- A holiday whose division is named by a text. -/
abbrev HolidayNaming := Naming (record? PublicHoliday.keys) PublicHoliday.ofJson?

/-- Settings whose division is named by a text. -/
abbrev SettingsNaming := Naming (shortRecord? Settings.keys) Settings.ofJson?

/-- The divisions that are made from a text, or where no division is named. -/
inductive Made (text : String) : Division → Prop
  | ofText : Made text (.ofText text)
  | standard : Made text .standard
  | withDivision (settings : Settings) : Made text (settings.withDivision text).division
  | unnamed {document members settings}
      (opened : Json.shortRecord? Settings.keys document = some members)
      (absent : find members "division" = .absent)
      (read : Settings.ofJson? document = some settings) : Made text settings.division

/-- The divisions that are read from documents in which a text names them. -/
inductive Read (text : String) : Division → Prop
  | alone {division} (read : Division.ofJson? (.text text) = some division) : Read text division
  | ofHoliday {holiday document members} (naming : HolidayNaming text holiday document members) :
      Read text holiday.division
  | ofSettings {settings document members}
      (naming : SettingsNaming text settings document members) : Read text settings.division

/-- Settings that have been read count like those whose division is made from the same text. -/
def CountsAlike (text : String) : Prop :=
  ∀ settings document members, SettingsNaming text settings document members →
    ∀ (published : Published) direction start days,
      (settings.countWorkingDays published.lookup direction start days).result =
        ((settings.withDivision text).countWorkingDays published.lookup direction start days).result

/-- A holiday that has been read is found wherever one is whose division is made from the same
text. -/
def FoundAlike (text : String) : Prop :=
  ∀ holiday document members, HolidayNaming text holiday document members →
    ∀ (published : Published) query,
      { holiday with division := .ofText text } ∈
          (published.publish { holiday with division := .ofText text }).find query →
        holiday ∈ (published.publish holiday).find query

variable {text : String} {division : Division} {holiday : PublicHoliday} {settings : Settings}
variable {document : Json} {members : List (String × Json)}

theorem trimmed_ofText (text : String) : Trimmed (.ofText text) :=
  congrArg Division.mk (trim_trim text)

/-- A division that has taken a text as it stands is trimmed just where the text is. -/
theorem trimmed_mk_iff : Trimmed ⟨text⟩ ↔ trim text = text :=
  ⟨congrArg Division.name, congrArg Division.mk⟩

theorem trimmed_standard : Trimmed .standard := trimmed_ofText "england-and-wales"

theorem document_of_division (read : Division.ofJson? document = some division) :
    document = .text division.name := by
  cases document with
  | text name =>
    cases read
    rfl
  | _ => cases read

/-- Whatever holiday is read, a text names its division, as it stands. -/
theorem naming_of_holiday (read : PublicHoliday.ofJson? document = some holiday) :
    ∃ members, HolidayNaming holiday.division.name holiday document members := by
  obtain ⟨members, opened, taken⟩ := Option.bind_eq_some_iff.mp read
  refine ⟨members, opened, ?_, read⟩
  simp only [PublicHoliday.ofMembers?, Option.bind_eq_bind, Option.bind_eq_some_iff,
    Option.pure_def] at taken
  obtain ⟨_, _, division, named, _, _, _, _, ⟨⟩⟩ := taken
  unfold required at named
  split at named
  · rename_i once
    rw [once, document_of_division named]
  · cases named

/-- Whatever settings are read, a text names their division, as it stands, or none is named and the
standard one is meant. -/
theorem naming_of_settings (read : Settings.ofJson? document = some settings) :
    (∃ members, SettingsNaming settings.division.name settings document members) ∨
      ∃ members, document.shortRecord? Settings.keys = some members ∧
        find members "division" = .absent ∧ settings.division = .standard := by
  obtain ⟨members, opened, taken⟩ := Option.bind_eq_some_iff.mp read
  simp only [Settings.ofMembers?, Option.bind_eq_bind, Option.bind_eq_some_iff,
    Option.pure_def] at taken
  obtain ⟨division, named, _, _, ⟨⟩⟩ := taken
  unfold defaulted at named
  split at named
  · rename_i absent
    cases named
    exact .inr ⟨members, opened, absent, rfl⟩
  · rename_i once
    refine .inl ⟨members, opened, ?_, read⟩
    rw [once, document_of_division named]
  · cases named

/-- A document names one division only. -/
theorem Naming.text_unique {α : Type} {opens : Json → Option (List (String × Json))}
    {reads : Json → Option α} {record : α} {other : String} {others : List (String × Json)}
    (naming : Naming opens reads text record document members)
    (also : Naming opens reads other record document others) : text = other := by
  cases naming.opened.symm.trans also.opened
  cases naming.named.symm.trans also.named
  rfl

theorem division_of_holiday (naming : HolidayNaming text holiday document members) :
    holiday.division = ⟨text⟩ := by
  obtain ⟨others, also⟩ := naming_of_holiday naming.read
  rw [naming.text_unique also]

theorem division_of_settings (naming : SettingsNaming text settings document members) :
    settings.division = ⟨text⟩ := by
  rcases naming_of_settings naming.read with ⟨others, also⟩ | ⟨others, opened, absent, -⟩
  · rw [naming.text_unique also]
  · cases naming.opened.symm.trans opened
    cases naming.named.symm.trans absent

theorem trimmed_of_made (made : Made text division) : Trimmed division := by
  cases made with
  | ofText | withDivision => exact trimmed_ofText text
  | standard => exact trimmed_standard
  | unnamed opened absent read =>
    rcases naming_of_settings read with ⟨_, opened', named, -⟩ | ⟨_, _, _, standard⟩
    · cases opened.symm.trans opened'
      cases absent.symm.trans named
    · rw [standard]
      exact trimmed_standard

theorem eq_mk_of_read (read : Read text division) : division = ⟨text⟩ := by
  cases read with
  | alone read =>
    cases read
    rfl
  | ofHoliday naming => exact division_of_holiday naming
  | ofSettings naming => exact division_of_settings naming

theorem trimmed_of_read_iff : (∀ division, Read text division → Trimmed division) ↔
    trim text = text := by
  constructor
  · intro trimmed
    exact trimmed_mk_iff.mp (trimmed ⟨text⟩ (.alone rfl))
  · rintro kept division read
    rw [eq_mk_of_read read]
    exact trimmed_mk_iff.mpr kept

/-- The last day of 2024, a Tuesday. -/
def newYearsEve : Date := (Date.ofCalendar? 2024 12 31).getD .first

/-- A day of January 2025. -/
def january (day : Nat) : Date := (Date.ofCalendar? 2025 1 day).getD .first

/-- New Year's Day, published for one division. -/
def newYearsDay (division : Division) : PublicHoliday := ⟨"", division, "", january 1⟩

/-- Only the holidays that are found say which day is the next working day. -/
theorem count_from_eve {published : Published} {holidays : List PublicHoliday}
    (found : published.find ⟨division, newYearsEve, january 30⟩ = holidays) :
    ((Settings.mk division 30).countWorkingDays published.lookup .forward newYearsEve 1).result =
      (countWorkingDays .forward (.ofHolidays holidays) 1 newYearsEve).mapError .reckoning := by
  have later : (january 30).day = newYearsEve.day + (30 : UInt32).toNat := by decide
  have covered :
      Covers ⟨division, 30⟩ newYearsEve .forward ⟨division, newYearsEve, january 30⟩ :=
    .forward later
  exact (count_answered covered (congrArg Except.ok found)).1

theorem find_newYearsDay (named asked : Division) :
    Published.find ⟨[newYearsDay named]⟩ ⟨asked, newYearsEve, january 30⟩ =
      if named = asked then [newYearsDay named] else [] := by
  have inside : newYearsEve.day ≤ (january 1).day ∧ (january 1).day ≤ (january 30).day := by decide
  by_cases same : named = asked <;> simp [Published.find, Query.asksFor, newYearsDay, same, inside]

/-- The settings that a document without a window is read as. -/
theorem naming_of_text (text : String) :
    SettingsNaming text ⟨⟨text⟩, 30⟩ (.object [("division", .text text)])
      [("division", .text text)] := ⟨rfl, rfl, rfl⟩

/-- A holiday that the calendar does not find is counted as a working day. -/
theorem counts_apart (differs : trim text ≠ text) : ¬ CountsAlike text := by
  intro alike
  have same := alike _ _ _ (naming_of_text text) ⟨[newYearsDay (.ofText text)]⟩ .forward
    newYearsEve 1
  have apart : Division.ofText text ≠ ⟨text⟩ := fun same => differs (trimmed_mk_iff.mp same)
  have missed := find_newYearsDay (.ofText text) ⟨text⟩
  have found := find_newYearsDay (.ofText text) (.ofText text)
  rw [if_neg apart] at missed
  rw [if_pos rfl] at found
  have early : countWorkingDays .forward (.ofHolidays []) 1 newYearsEve = .ok (january 1) := by cbv
  have late : countWorkingDays .forward (.ofHolidays [newYearsDay (.ofText text)]) 1 newYearsEve =
      .ok (january 2) := by
    have days : HolidaySet.ofHolidays [newYearsDay (.ofText text)] = .ofDates [january 1] := rfl
    rw [days]
    cbv
  rw [count_from_eve missed, Settings.withDivision, count_from_eve found, early, late] at same
  exact absurd same (by decide)

theorem countsAlike_iff : CountsAlike text ↔ trim text = text := by
  constructor
  · intro alike
    by_contra differs
    exact counts_apart differs alike
  · rintro kept settings document members naming published direction start days
    have same : settings.withDivision text = settings := by
      rw [Settings.withDivision, trimmed_mk_iff.mpr kept, ← division_of_settings naming]
    rw [same]

theorem foundAlike_iff : FoundAlike text ↔ trim text = text := by
  constructor
  · intro alike
    obtain ⟨members, naming⟩ :=
      naming_of_holiday (RecordWire.readable_holiday.back (newYearsDay ⟨text⟩))
    have found := alike _ _ _ naming {} ⟨.ofText text, january 1, january 1⟩
    simp only [Published.mem_find, Published.publish, newYearsDay, List.nil_append,
      List.mem_singleton, le_refl, and_self, true_imp_iff] at found
    exact trimmed_mk_iff.mp found.2.1.symm
  · rintro kept holiday document members naming published query found
    have same : { holiday with division := .ofText text } = holiday := by
      rw [trimmed_mk_iff.mpr kept, ← division_of_holiday naming]
    rwa [same] at found

/-- However a division is made, it is trimmed. What is read from a document that names one by a text
is trimmed, counts like what is made from the text, and is found where that is found, just where
the text has no blanks around it. -/
theorem divisions_meet_iff_trimmed (text : String) :
    (∀ division, Made text division → Trimmed division) ∧
      ((∀ division, Read text division → Trimmed division) ↔ trim text = text) ∧
      (CountsAlike text ↔ trim text = text) ∧ (FoundAlike text ↔ trim text = text) :=
  ⟨fun _ => trimmed_of_made, trimmed_of_read_iff, countsAlike_iff, foundAlike_iff⟩

/-- The name of the standard division between two blanks is read, and names no standard
division. -/
theorem padded_standard_is_another :
    Division.parse? "\" england-and-wales \"" = some ⟨" england-and-wales "⟩ ∧
      Read " england-and-wales " ⟨" england-and-wales "⟩ ∧
      ¬ Trimmed ⟨" england-and-wales "⟩ ∧ Division.ofText " england-and-wales " = .standard ∧
      ¬ CountsAlike " england-and-wales " ∧ ¬ FoundAlike " england-and-wales " := by
  have differs : trim " england-and-wales " ≠ " england-and-wales " := by decide
  refine ⟨by cbv, .alone rfl, fun same => differs (trimmed_mk_iff.mp same), by decide,
    counts_apart differs, fun alike => differs (foundAlike_iff.mp alike)⟩

end Docket.DivisionNames
