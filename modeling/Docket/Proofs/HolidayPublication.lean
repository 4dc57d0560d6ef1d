import Docket.Proofs.HolidayWindow

/-! Published holidays work as a set of dates, and each further one strikes out a single day. A
count that has used this day has to go on by one more working day, and every other count comes to
what it came to before. So publishing delays a count or makes it fail, and never hastens it. -/
namespace Docket.HolidayPublication
open Docket.Calendar Docket.DueDateObstacle Docket.DueDateOutcome Docket.HolidayWindow Docket.Time
open Docket.WorkingDayCount

/-- What counting off working days comes to with the holidays published. -/
def outcome (settings : Settings) (direction : Direction) (start : Date) (days : UInt32)
    (published : Published) : Except CalendarError Date :=
  (settings.countWorkingDays published.lookup direction start days).result

/-- The dates published for the division and the days that a question is about. -/
def consulted (published : Published) (query : Query) : Set Date :=
  {date | ∃ holiday ∈ published.holidays, holiday.division = query.division ∧
    query.first ≤ date ∧ date ≤ query.last ∧ holiday.date = date}

/-- A count goes through the days behind its start, up to and including the day it comes to. -/
def GoesThrough : Direction → (start due date : Date) → Prop
  | .forward, start, due, date => start < date ∧ date ≤ due
  | .backward, start, due, date => due ≤ date ∧ date < start

/-- A holiday that takes a working day away from a count: it is asked for, it falls on none of the
days that are free anyway, and the count goes through it. -/
structure Strikes (published : Published) (query : Query) (direction : Direction)
    (start due : Date) (holiday : PublicHoliday) : Prop where
  division : holiday.division = query.division
  inside : query.first ≤ holiday.date ∧ holiday.date ≤ query.last
  weekday : ¬ IsSaturday holiday.date ∧ ¬ IsSunday holiday.date
  fresh : holiday.date ∉ consulted published query
  onTheWay : GoesThrough direction start due holiday.date

/-- How the outcome of a count after a publication stands to the one before. -/
structure Publishing (published : Published) (query : Query) (direction : Direction)
    (start : Date) (holiday : PublicHoliday) (before after : Except CalendarError Date) : Prop where
  failed : ∀ date, before = .error (.reckoning (.outOfRange date)) → after = before
  changed_iff : ∀ due, before = .ok due →
    (after ≠ before ↔ Strikes published query direction start due holiday)
  further : ∀ due, before = .ok due → after ≠ before →
    (∃ later, after = .ok later ∧ Ahead direction due later) ∨
      after = .error (.reckoning (.outOfRange (rangeEnd direction)))

variable {direction : Direction} {few many : HolidaySet} {start due date added : Date}
variable {published other : Published} {settings : Settings} {query : Query} {days : UInt32}
variable {holiday : PublicHoliday} {count : Nat}

/-- The holidays of a set with one more date leave the working days without this date. -/
theorem daysUpTo_without
    (more : ∀ date, many.contains date = true ↔ few.contains date = true ∨ date = added) :
    daysUpTo direction many start due = daysUpTo direction few start due \ {added} := by
  have working (date : Date) :
      date ∈ workingDays many ↔ date ∈ workingDays few ∧ date ≠ added := by
    simp only [workingDays, Set.mem_ofPred_eq, ← Bool.not_eq_true, more, not_or, and_assoc, ne_eq]
  ext date
  simp only [daysUpTo, daysAhead, Set.mem_ofPred_eq, Set.mem_sdiff, Set.mem_singleton_iff, working]
  tauto

/-- One more holiday leaves a count where it was just if it is none of the days counted. -/
theorem count_kept_iff
    (more : ∀ date, many.contains date = true ↔ few.contains date = true ∨ date = added)
    (counted : countWorkingDays direction few count start = .ok due) :
    countWorkingDays direction many count start = .ok due ↔
      added ∉ daysUpTo direction few start due := by
  by_cases none : count = 0
  · subst none
    cases counted
    exact iff_of_true rfl fun used => used.2 used.1.2
  have positive : 0 < count := Nat.pos_of_ne_zero none
  obtain ⟨reached, exact⟩ := (count_ok_iff positive).mp counted
  constructor
  · intro kept used
    have fewer := ((count_ok_iff positive).mp kept).2
    rw [daysUpTo_without more, Set.ncard_sdiff_singleton_of_mem used] at fewer
    omega
  · intro unused
    have same : daysUpTo direction many start due = daysUpTo direction few start due := by
      rw [daysUpTo_without more, Set.sdiff_singleton_eq_self unused]
    have last : due ∈ daysUpTo direction many start due := same ▸ ⟨reached, ahead_irrefl⟩
    exact (count_ok_iff positive).mpr ⟨last.1, same ▸ exact⟩

theorem contains_find_iff :
    (HolidaySet.ofHolidays (published.find query)).contains date = true ↔
      date ∈ consulted published query := by
  simp only [HolidaySet.contains_ofHolidays, Published.mem_find, consulted, Set.mem_ofPred_eq]
  constructor
  · rintro ⟨holiday, ⟨member, division, low, high⟩, rfl⟩
    exact ⟨holiday, member, division, low, high, rfl⟩
  · rintro ⟨holiday, member, division, low, high, rfl⟩
    exact ⟨holiday, ⟨member, division, low, high⟩, rfl⟩

theorem goesThrough_iff : GoesThrough direction start due date ↔
    Ahead direction start date ∧ ¬ Ahead direction due date := by
  cases direction with
  | forward => simp only [GoesThrough, Ahead, Date.lt_def, Date.le_def, Int.not_lt]
  | backward =>
    simp only [GoesThrough, Ahead, Date.lt_def, Date.le_def, Int.not_lt, and_comm]

section
variable (covered : Covers settings start direction query)
include covered

theorem outcome_covered : outcome settings direction start days published =
    (countWorkingDays direction (.ofHolidays (published.find query)) days.toNat start).mapError
      .reckoning :=
  (count_answered covered rfl).1

/-- A count fails only at the end of the range of dates. -/
theorem outcome_error {error : CalendarError}
    (failed : outcome settings direction start days published = .error error) :
    error = .reckoning (.outOfRange (rangeEnd direction)) := by
  rw [outcome_covered covered] at failed
  obtain ⟨reason, stopped, rfl⟩ := mapError_error failed
  rw [(count_fails stopped).1]

/-- With fewer dates consulted a count comes no further. -/
theorem outcome_anti (fewer : consulted published query ⊆ consulted other query)
    (counted : outcome settings direction start days other = .ok due) :
    ∃ early, outcome settings direction start days published = .ok early ∧
      NoFurther direction early due := by
  rw [outcome_covered covered, mapError_ok_iff] at counted
  obtain ⟨early, reached, noFurther⟩ :=
    count_anti (fun _ off => contains_find_iff.mpr (fewer (contains_find_iff.mp off))) counted
  exact ⟨early, by rw [outcome_covered covered, mapError_ok_iff, reached], noFurther⟩

/-- The dates consulted are all that a count depends on, whatever they were published with and
whoever asks for them. -/
theorem outcome_congr {others : Settings} {asked : Query}
    (coveredOther : Covers others start direction asked)
    (same : consulted other asked = consulted published query) :
    outcome others direction start days other = outcome settings direction start days published := by
  have alike (date : Date) : (HolidaySet.ofHolidays (other.find asked)).contains date =
      (HolidaySet.ofHolidays (published.find query)).contains date := by
    rw [Bool.eq_iff_iff, contains_find_iff, contains_find_iff, same]
  have agree (due : Date) : outcome others direction start days other = .ok due ↔
      outcome settings direction start days published = .ok due := by
    rw [outcome_covered covered, outcome_covered coveredOther, mapError_ok_iff, mapError_ok_iff]
    exact count_congr fun date _ _ => alike date
  cases first : outcome others direction start days other with
  | ok due => exact ((agree due).mp first).symm
  | error error =>
    cases second : outcome settings direction start days published with
    | ok due => cases first.symm.trans ((agree due).mpr second)
    | error reason => rw [outcome_error coveredOther first, outcome_error covered second]

end

theorem mem_consulted_publish : date ∈ consulted (published.publish holiday) query ↔
    date ∈ consulted published query ∨ date = holiday.date ∧
      holiday.division = query.division ∧ query.first ≤ holiday.date ∧
        holiday.date ≤ query.last := by
  simp only [consulted, Published.publish, Set.mem_ofPred_eq, List.mem_append, List.mem_singleton]
  constructor
  · rintro ⟨other, member | rfl, division, low, high, rfl⟩
    · exact .inl ⟨other, member, division, low, high, rfl⟩
    · exact .inr ⟨rfl, division, low, high⟩
  · rintro (⟨other, member, division, low, high, rfl⟩ | ⟨rfl, division, low, high⟩)
    · exact ⟨other, .inl member, division, low, high, rfl⟩
    · exact ⟨holiday, .inr rfl, division, low, high, rfl⟩

/-- Of the holidays asked for, those that strike a day out are the ones on a day counted. -/
theorem mem_daysUpTo_iff (division : holiday.division = query.division)
    (inside : query.first ≤ holiday.date ∧ holiday.date ≤ query.last) :
    holiday.date ∈ daysUpTo direction (.ofHolidays (published.find query)) start due ↔
      Strikes published query direction start due holiday := by
  have fresh : (HolidaySet.ofHolidays (published.find query)).contains holiday.date = false ↔
      holiday.date ∉ consulted published query := by
    rw [← contains_find_iff, Bool.not_eq_true]
  simp only [daysUpTo, daysAhead, workingDays, Set.mem_ofPred_eq, fresh]
  constructor
  · rintro ⟨⟨⟨noSaturday, noSunday, isFresh⟩, ahead⟩, short⟩
    exact ⟨division, inside, ⟨noSaturday, noSunday⟩, isFresh, goesThrough_iff.mpr ⟨ahead, short⟩⟩
  · rintro ⟨-, -, ⟨noSaturday, noSunday⟩, isFresh, onTheWay⟩
    obtain ⟨ahead, short⟩ := goesThrough_iff.mp onTheWay
    exact ⟨⟨⟨noSaturday, noSunday, isFresh⟩, ahead⟩, short⟩

/-- A publication leaves a count where it was just if it strikes out none of its days. -/
theorem outcome_kept_iff (covered : Covers settings start direction query)
    (counted : outcome settings direction start days published = .ok due) :
    outcome settings direction start days (published.publish holiday) = .ok due ↔
      ¬ Strikes published query direction start due holiday := by
  by_cases asked : holiday.division = query.division ∧
      query.first ≤ holiday.date ∧ holiday.date ≤ query.last
  · obtain ⟨division, inside⟩ := asked
    have more (date : Date) :
        (HolidaySet.ofHolidays ((published.publish holiday).find query)).contains date = true ↔
          (HolidaySet.ofHolidays (published.find query)).contains date = true ∨
            date = holiday.date := by
      rw [contains_find_iff, contains_find_iff, mem_consulted_publish]
      exact or_congr_right (and_iff_left ⟨division, inside⟩)
    rw [outcome_covered covered, mapError_ok_iff] at counted ⊢
    rw [count_kept_iff more counted, mem_daysUpTo_iff division inside]
  · have same : consulted (published.publish holiday) query = consulted published query := by
      ext date
      rw [mem_consulted_publish]
      exact or_iff_left fun new => asked new.2
    rw [outcome_congr covered covered same]
    exact iff_of_true counted fun strikes => asked ⟨strikes.division, strikes.inside⟩

theorem consulted_subset_publish :
    consulted published query ⊆ consulted (published.publish holiday) query :=
  fun _ member => mem_consulted_publish.mpr (.inl member)

theorem consulted_subset_foldl (more : List PublicHoliday) :
    consulted published query ⊆ consulted (more.foldl Published.publish published) query := by
  induction more generalizing published with
  | nil => exact Set.Subset.rfl
  | cons holiday more ih => exact consulted_subset_publish.trans ih

theorem publishing_of_covered (covered : Covers settings start direction query) :
    Publishing published query direction start holiday
      (outcome settings direction start days published)
      (outcome settings direction start days (published.publish holiday)) where
  failed date failed := by
    cases after : outcome settings direction start days (published.publish holiday) with
    | ok due =>
      obtain ⟨early, counted, _⟩ := outcome_anti covered consulted_subset_publish after
      cases failed.symm.trans counted
    | error error => rw [failed, outcome_error covered after, outcome_error covered failed]
  changed_iff due counted := by
    rw [ne_eq, counted, outcome_kept_iff covered counted, not_not]
  further due counted changed := by
    cases after : outcome settings direction start days (published.publish holiday) with
    | error error => exact .inr (by rw [outcome_error covered after])
    | ok later =>
      obtain ⟨early, again, noFurther⟩ := outcome_anti covered consulted_subset_publish after
      cases counted.symm.trans again
      refine .inl ⟨later, rfl, ?_⟩
      rcases ahead_or_eq_or_ahead direction due later with ahead | rfl | behind
      · exact ahead
      · exact absurd (after.trans counted.symm) changed
      · exact absurd behind (noFurther_iff.mp noFurther)

/-- A count with a window inside the range of dates depends on the set of the dates consulted and
on nothing else about the holidays. A further publication strikes out at most its own day, and none
of them, however many follow, brings a count nearer. -/
theorem publications_strike_single_days (covered : Covers settings start direction query) :
    (∀ others other asked, Covers others start direction asked →
      consulted other asked = consulted published query →
        outcome others direction start days other =
          outcome settings direction start days published) ∧
      (∀ holiday, Publishing published query direction start holiday
        (outcome settings direction start days published)
        (outcome settings direction start days (published.publish holiday))) ∧
      ∀ (more : List PublicHoliday) due, outcome settings direction start days
          (more.foldl Published.publish published) = .ok due →
        ∃ early, outcome settings direction start days published = .ok early ∧
          NoFurther direction early due :=
  ⟨fun _ _ _ coveredOther same => outcome_congr covered coveredOther same,
    fun _ => publishing_of_covered covered,
    fun more _ counted => outcome_anti covered (consulted_subset_foldl more) counted⟩

/-- The holidays of June in another order, the Thursday twice. -/
def juneAgain : Published where
  holidays := ⟨"t", .standard, "Thursday", june 2⟩ :: juneHolidays.holidays.reverse

/-- A holiday on the Monday, for the standard division this time. -/
def monday : PublicHoliday := ⟨"m", .standard, "Monday", june 6⟩

/-- One working day after Wednesday, 1 June, is the Monday, whichever way the Thursday and the
Friday were published. A holiday on it makes it the Tuesday, which is out of the window. -/
theorem monday_is_struck_out :
    Covers fiveDays (june 1) .forward ⟨.standard, june 1, june 6⟩ ∧
      outcome fiveDays .forward (june 1) 1 juneAgain =
        outcome fiveDays .forward (june 1) 1 juneHolidays ∧
      outcome fiveDays .forward (june 1) 1 juneHolidays = .ok (june 6) ∧
      Strikes juneHolidays ⟨.standard, june 1, june 6⟩ .forward (june 1) (june 6) monday ∧
      outcome fiveDays .forward (june 1) 1 (juneHolidays.publish monday) = .ok (june 7) ∧
      NoFurther .forward (june 6) (june 7) := by
  have covered : Covers fiveDays (june 1) .forward ⟨.standard, june 1, june 6⟩ :=
    .forward (by decide)
  have same : consulted juneAgain ⟨.standard, june 1, june 6⟩ =
      consulted juneHolidays ⟨.standard, june 1, june 6⟩ := by
    ext date
    constructor
    · rintro ⟨holiday, member, asked⟩
      rcases List.mem_cons.mp member with rfl | earlier
      · exact ⟨⟨"", .standard, "", june 2⟩, List.mem_cons_self .., asked⟩
      · exact ⟨holiday, List.mem_reverse.mp earlier, asked⟩
    · rintro ⟨holiday, member, asked⟩
      exact ⟨holiday, List.mem_cons_of_mem _ (List.mem_reverse.mpr member), asked⟩
  have before : outcome fiveDays .forward (june 1) 1 juneHolidays = .ok (june 6) := by cbv
  have after : outcome fiveDays .forward (june 1) 1 (juneHolidays.publish monday) = .ok (june 7) := by
    cbv
  obtain ⟨reordered, published, nearer⟩ :=
    @publications_strike_single_days .forward (june 1) juneHolidays fiveDays _ 1 covered
  have changed : outcome fiveDays .forward (june 1) 1 (juneHolidays.publish monday) ≠
      outcome fiveDays .forward (june 1) 1 juneHolidays := by
    rw [before, after]
    decide
  obtain ⟨early, counted, noFurther⟩ := nearer [monday] (june 7) after
  cases before.symm.trans counted
  exact ⟨covered, reordered _ _ _ covered same, before,
    ((published monday).changed_iff _ before).mp changed, after, noFurther⟩

end Docket.HolidayPublication
