import Docket.Proofs.DueDateOutcome
import Docket.Proofs.InstantSpelling

/-! A due date has two forms, the text that shows the last second of the day and the instant at
which its last minute begins. They are made in ways of their own, and they never part: both fail
or neither does, and they speak of one day, whichever year it is in. -/
namespace Docket.EndOfDayForms
open Docket.Calendar Docket.DateSpelling Docket.InstantSpelling Docket.Scanning Docket.Text
open Docket.Time

/-- The seconds from the start of the year 0 to an instant, leap seconds not counted. -/
def secondsOf (instant : Instant) : Int := instant.date.day * secondsPerDay + instant.time.second

/-- One instant is a number of seconds after another, to the nanosecond. -/
structure After (seconds : Nat) (earlier later : Instant) : Prop where
  seconds : secondsOf later = secondsOf earlier + seconds
  nano : later.time.nano = earlier.time.nano

/-- A text shows a date as year, month and day, and behind it the last second of the day. -/
def ShowsEndOf (date : Date) (text : String) : Prop :=
  ∃ year month day, Date.ofCalendar? year month day = some date ∧
    text = String.ofList (yearText year ++ '-' :: fixedDigits 2 month ++ '-' :: fixedDigits 2 day) ++
      "T23:59:59.000Z"

/-- A text and an instant that are the two forms of one date. -/
structure Forms (date : Date) (text : String) (instant : Instant) : Prop where
  shown : ShowsEndOf date text
  date : instant.date = date
  clock : TimeOfDay.ofClock? 23 59 0 0 = some instant.time
  begins : instant.date.text.toList <+: text.toList
  readBack : ∃ later, Instant.ofText? text = some later ∧ After 59 instant later

/-- The two forms of an evaluation: they fail with one error, or are forms of one date. -/
inductive Agree : Except DueDateError String → Except DueDateError Instant → Prop where
  | fail (error : DueDateError) : Agree (.error error) (.error error)
  | succeed {date : Date} {text : String} {instant : Instant} (forms : Forms date text instant) :
      Agree (.ok text) (.ok instant)

theorem endOfDayText_eq (date : Date) : endOfDayText date = date.text ++ "T23:59:59.000Z" := by
  have clock : 'T' :: TimeOfDay.lastSecond.clockChars ++ '.' :: fixedDigits 3 0 ++ ['Z'] =
      "T23:59:59.000Z".toList := by decide
  apply String.toList_injective
  rw [endOfDayText, String.toList_ofList, String.toList_append, ← clock, Date.text,
    String.toList_ofList]
  simp only [List.append_assoc]

theorem shows_endOfDayText (date : Date) : ShowsEndOf date (endOfDayText date) :=
  ⟨date.year, date.monthAndDay.1, date.monthAndDay.2, calendar_of_date date,
    endOfDayText_eq date⟩

/-- The text is read as the last second of the day; the fraction digits in it are zeros. -/
theorem ofText?_endOfDayText (date : Date) :
    Instant.ofText? (endOfDayText date) = some ⟨date, .lastSecond⟩ :=
  ofText?_fraction date .lastSecond
    (takes_places (show 2 < 9 by decide) 0 (noneAhead_cons rfl []))

theorem lastSecond_after_lastMinute (date : Date) :
    After 59 (endOfDay date) ⟨date, .lastSecond⟩ where
  seconds := by
    simp only [secondsOf, endOfDay, TimeOfDay.lastMinute, TimeOfDay.lastSecond]
    omega
  nano := rfl

theorem forms_of_date (date : Date) : Forms date (endOfDayText date) (endOfDay date) where
  shown := shows_endOfDayText date
  date := rfl
  clock := show TimeOfDay.ofClock? 23 59 0 0 = some .lastMinute by decide
  begins := by
    rw [endOfDayText_eq, String.toList_append]
    exact List.prefix_append _ _
  readBack := ⟨_, ofText?_endOfDayText date, lastSecond_after_lastMinute date⟩

variable (settings : Settings) (lookup : Lookup) (occasion : Occasion) (rule : String)

theorem evaluations_agree : Agree (settings.dueText lookup occasion rule).result
    (settings.dueInstant lookup occasion rule).result := by
  simp only [Settings.dueText, Settings.dueInstant]
  cases (settings.dueDate lookup occasion rule).result with
  | error error => exact .fail error
  | ok due => exact .succeed (forms_of_date due)

/-- The check of the range behind the instant adds no failure to those of the date. -/
theorem dueInstant_reckoned : (settings.dueInstant lookup occasion rule).result =
    (settings.dueDate lookup occasion rule).result.bind fun due =>
      (reckonEndOfDay due).mapError .reckoning := by
  simp only [Settings.dueInstant]
  cases (settings.dueDate lookup occasion rule).result with
  | error error => rfl
  | ok due =>
    simp only [Except.bind, reckonEndOfDay_eq]
    rfl

/-- Every evaluation of a rule agrees with itself in its two forms. The instant can be reckoned
for every date, the first and the last representable one included, and is always the form that
goes with the text. -/
theorem forms_of_due_dates_agree :
    (∀ settings lookup occasion rule, Agree (Settings.dueText settings lookup occasion rule).result
      (settings.dueInstant lookup occasion rule).result) ∧
    (∀ settings lookup occasion rule, (Settings.dueInstant settings lookup occasion rule).result =
      (settings.dueDate lookup occasion rule).result.bind fun due =>
        (reckonEndOfDay due).mapError .reckoning) ∧
    ∀ date, ∃ instant, reckonEndOfDay date = .ok instant ∧
      Forms date (endOfDayText date) instant :=
  ⟨evaluations_agree, dueInstant_reckoned,
    fun date => ⟨endOfDay date, reckonEndOfDay_eq date, forms_of_date date⟩⟩

end Docket.EndOfDayForms
