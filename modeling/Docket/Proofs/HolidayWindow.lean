import Docket.Proofs.DueDateOutcome

/-! A window of holidays is enough for a count that stays inside it. Inside the window the
holidays looked up are all that there are; beyond it they are fewer, so that a count with a
window may come out early but never late, and fails only where the range of dates ends. -/
namespace Docket.HolidayWindow
open Docket.Calendar Docket.DueDateObstacle Docket.DueDateOutcome Docket.Time Docket.WorkingDayCount

/-- All that is published for a division, near or far. -/
def allDaysOff (published : Published) (division : Division) : HolidaySet :=
  .ofHolidays (published.holidays.filter fun holiday => holiday.division = division)

/-- A date that a count in one direction comes to no later than another. -/
def NoFurther : Direction → Date → Date → Prop
  | .forward, date, other => date ≤ other
  | .backward, date, other => other ≤ date

/-- How a count with the holidays up to a date stands to the count with all holidays. -/
structure AgreeUpTo (direction : Direction) (far : Date) (windowed : Except CalendarError Date)
    (full : Except ReckoningError Date) : Prop where
  /-- What the window leads to inside itself is right. -/
  right : ∀ due, windowed = .ok due → NoFurther direction due far → full = .ok due
  /-- What lies inside the window is found. -/
  found : ∀ due, full = .ok due → NoFurther direction due far → windowed = .ok due
  /-- The window never leads further than all holidays do, and somewhere wherever they do. -/
  early : ∀ due, full = .ok due → ∃ early, windowed = .ok early ∧ NoFurther direction early due
  /-- A count that fails with the window fails with all holidays, at the same end of the range. -/
  fails : ∀ error, windowed = .error error →
    error = .reckoning (.outOfRange (rangeEnd direction)) ∧
      full = .error (.outOfRange (rangeEnd direction))

variable {direction : Direction} {few many : HolidaySet} {start finish far date : Date}
variable {published : Published} {settings : Settings} {query : Query}

theorem noFurther_iff : NoFurther direction date finish ↔ ¬ Ahead direction finish date := by
  cases direction <;> simp only [NoFurther, Ahead, Date.le_def, Date.lt_def, Int.not_lt]

theorem workingDays_anti (fewer : ∀ date, few.contains date = true → many.contains date = true) :
    workingDays many ⊆ workingDays few := by
  intro date working
  obtain ⟨noSaturday, noSunday, notOff⟩ := working
  refine ⟨noSaturday, noSunday, ?_⟩
  cases off : few.contains date with
  | false => rfl
  | true =>
    rw [fewer date off] at notOff
    cases notOff

theorem daysUpTo_anti (fewer : ∀ date, few.contains date = true → many.contains date = true) :
    daysUpTo direction many start finish ⊆ daysUpTo direction few start finish := by
  rintro date ⟨⟨working, ahead⟩, short⟩
  exact ⟨⟨workingDays_anti fewer working, ahead⟩, short⟩

/-- Holidays taken away never delay a count, nor do they make it fail. -/
theorem count_anti {count : Nat}
    (fewer : ∀ date, few.contains date = true → many.contains date = true)
    (counted : countWorkingDays direction many count start = .ok finish) :
    ∃ early, countWorkingDays direction few count start = .ok early ∧
      NoFurther direction early finish := by
  by_cases none : count = 0
  · subst none
    cases counted
    exact ⟨start, rfl, noFurther_iff.mpr ahead_irrefl⟩
  have positive : 0 < count := Nat.pos_of_ne_zero none
  obtain ⟨reached, exact⟩ := (count_ok_iff positive).mp counted
  have reachedFew : finish ∈ daysAhead direction few start :=
    ⟨workingDays_anti fewer reached.1, reached.2⟩
  have enough : count ≤ (daysUpTo direction few start finish).ncard := by
    rw [← exact]
    exact Set.ncard_le_ncard (daysUpTo_anti fewer)
  obtain ⟨early, counted, within⟩ := count_within reachedFew enough
  exact ⟨early, counted, noFurther_iff.mpr within⟩

/-- A count fails with more holidays where it fails with fewer, at the same end of the range. -/
theorem count_anti_error {count : Nat} {error : ReckoningError}
    (fewer : ∀ date, few.contains date = true → many.contains date = true)
    (failed : countWorkingDays direction few count start = .error error) :
    error = .outOfRange (rangeEnd direction) ∧
      countWorkingDays direction many count start = .error (.outOfRange (rangeEnd direction)) := by
  refine ⟨(count_fails failed).1, ?_⟩
  cases full : countWorkingDays direction many count start with
  | ok finish =>
    obtain ⟨early, counted, _⟩ := count_anti fewer full
    cases failed.symm.trans counted
  | error reason => rw [(count_fails full).1]

/-- Whether a count comes to a date hangs on the holidays up to that date alone. -/
theorem count_congr {count : Nat}
    (alike : ∀ date, Ahead direction start date → ¬ Ahead direction finish date →
      few.contains date = many.contains date) :
    countWorkingDays direction few count start = .ok finish ↔
      countWorkingDays direction many count start = .ok finish := by
  by_cases none : count = 0
  · subst none
    exact Iff.rfl
  have positive : 0 < count := Nat.pos_of_ne_zero none
  have member (date : Date) (ahead : Ahead direction start date)
      (short : ¬ Ahead direction finish date) :
      date ∈ daysAhead direction few start ↔ date ∈ daysAhead direction many start := by
    simp only [daysAhead, workingDays, Set.mem_ofPred_eq, alike date ahead short]
  have upTo : daysUpTo direction few start finish = daysUpTo direction many start finish := by
    ext date
    constructor
    · rintro ⟨within, short⟩
      exact ⟨(member date within.2 short).mp within, short⟩
    · rintro ⟨within, short⟩
      exact ⟨(member date within.2 short).mpr within, short⟩
  rw [count_ok_iff positive, count_ok_iff positive, upTo]
  refine and_congr_left fun _ => ?_
  constructor
  · intro reached
    exact (member finish reached.2 ahead_irrefl).mp reached
  · intro reached
    exact (member finish reached.2 ahead_irrefl).mpr reached

theorem contains_find : (HolidaySet.ofHolidays (published.find query)).contains date = true ↔
    (allDaysOff published query.division).contains date = true ∧
      query.first ≤ date ∧ date ≤ query.last := by
  simp only [allDaysOff, HolidaySet.contains_ofHolidays, Published.mem_find, List.mem_filter,
    decide_eq_true_eq]
  constructor
  · rintro ⟨holiday, ⟨member, division, low, high⟩, rfl⟩
    exact ⟨⟨holiday, ⟨member, division⟩, rfl⟩, low, high⟩
  · rintro ⟨⟨holiday, ⟨member, division⟩, rfl⟩, low, high⟩
    exact ⟨holiday, ⟨member, division, low, high⟩, rfl⟩

/-- The far end of a window, and that a date on the way to it is in the window. -/
theorem covers_of_reached
    (reached : far.day = start.day + direction.unit * settings.windowDays.toNat) :
    ∃ query, Covers settings start direction query ∧ query.division = settings.division ∧
      ∀ date, Ahead direction start date → ¬ Ahead direction far date →
        query.first ≤ date ∧ date ≤ query.last := by
  cases direction with
  | forward =>
    have far_eq : far.day = start.day + settings.windowDays.toNat := by
      simpa only [Direction.unit, one_mul] using reached
    refine ⟨_, .forward far_eq, rfl, fun date ahead short => ⟨?_, ?_⟩⟩
    · exact Int.le_of_lt ahead
    · exact Int.not_lt.mp short
  | backward =>
    have far_eq : far.day + settings.windowDays.toNat = start.day := by
      simp only [Direction.unit] at reached
      omega
    refine ⟨_, .backward far_eq, rfl, fun date ahead short => ⟨?_, ?_⟩⟩
    · exact Int.not_lt.mp short
    · exact Int.le_of_lt ahead

/-- On the way to a date inside the window, the holidays looked up are all that there are. -/
theorem contains_alike {due : Date}
    (within : ∀ date, Ahead direction start date → ¬ Ahead direction far date →
      query.first ≤ date ∧ date ≤ query.last)
    (near : NoFurther direction due far) (ahead : Ahead direction start date)
    (short : ¬ Ahead direction due date) :
    (HolidaySet.ofHolidays (published.find query)).contains date =
      (allDaysOff published query.division).contains date := by
  have inside : ¬ Ahead direction far date := by
    intro beyond
    rcases ahead_or_eq_or_ahead direction due far with further | same | further
    · exact short (ahead_trans further beyond)
    · exact short (same ▸ beyond)
    · exact noFurther_iff.mp near further
  rw [Bool.eq_iff_iff, contains_find]
  exact and_iff_left (within date ahead inside)

theorem mapError_ok_iff {result : Except ReckoningError Date} :
    result.mapError CalendarError.reckoning = .ok date ↔ result = .ok date := by
  cases result <;> simp [Except.mapError]

theorem mapError_error {result : Except ReckoningError Date} {error : CalendarError}
    (failed : result.mapError CalendarError.reckoning = .error error) :
    ∃ reason, result = .error reason ∧ error = .reckoning reason := by
  cases result with
  | ok date => cases failed
  | error reason =>
    cases failed
    exact ⟨reason, rfl, rfl⟩

/-- A count with the published holidays of its window agrees with the count with all published
holidays of the division as long as it stays inside the window; beyond it, it may come out early,
and it fails only where the other does. -/
theorem windows_suffice_within (published : Published) (settings : Settings)
    (direction : Direction) (start far : Date) (days : UInt32)
    (reached : far.day = start.day + direction.unit * settings.windowDays.toNat) :
    AgreeUpTo direction far
      (settings.countWorkingDays published.lookup direction start days).result
      (countWorkingDays direction (allDaysOff published settings.division) days.toNat start) := by
  obtain ⟨query, covered, division, within⟩ := covers_of_reached reached
  have answered : published.lookup query = .ok (published.find query) := rfl
  have fewer (date : Date)
      (off : (HolidaySet.ofHolidays (published.find query)).contains date = true) :
      (allDaysOff published query.division).contains date = true := (contains_find.mp off).1
  rw [(count_answered covered answered).1, ← division]
  constructor
  · intro due windowed near
    rw [mapError_ok_iff] at windowed
    exact (count_congr fun _ => contains_alike within near).mp windowed
  · intro due full near
    rw [mapError_ok_iff]
    exact (count_congr fun _ => contains_alike within near).mpr full
  · intro due full
    obtain ⟨early, counted, noFurther⟩ := count_anti fewer full
    exact ⟨early, mapError_ok_iff.mpr counted, noFurther⟩
  · intro error windowed
    obtain ⟨reason, failed, rfl⟩ := mapError_error windowed
    obtain ⟨rfl, full⟩ := count_anti_error fewer failed
    exact ⟨rfl, full⟩

/-- A day of June 2022; the first is a Wednesday. -/
def june (day : Nat) : Date := (Date.ofCalendar? 2022 6 day).getD .first

/-- Holidays on the Thursday and the Friday after the first of June, one of another division on the
Monday, and one on the Tuesday. -/
def juneHolidays : Published where
  holidays := [⟨"", .standard, "", june 2⟩, ⟨"", .standard, "", june 3⟩,
    ⟨"", ⟨"scotland"⟩, "", june 6⟩, ⟨"", .standard, "", june 7⟩]

/-- Settings with a window of five days. -/
def fiveDays : Settings := Settings.standard.withWindowDays 5

/-- A window of five days from the Wednesday ends on the Monday and holds all that leads to it; the
count to the Tuesday leaves it and misses a holiday. On the last date of the range, both counts
fail. -/
theorem windows_suffice_up_to_monday :
    (june 6).day = (june 1).day + Direction.forward.unit * fiveDays.windowDays.toNat ∧
      NoFurther .forward (june 6) (june 6) ∧
      countWorkingDays .forward (allDaysOff juneHolidays fiveDays.division) 1 (june 1) =
        .ok (june 6) ∧
      (∃ early, (fiveDays.countWorkingDays juneHolidays.lookup .forward (june 1) 2).result =
        .ok early ∧ NoFurther .forward early (june 8)) ∧
      countWorkingDays .forward (allDaysOff juneHolidays .standard) 1 .last =
        .error (.outOfRange .last) := by
  have reached : (june 6).day =
      (june 1).day + Direction.forward.unit * fiveDays.windowDays.toNat := by decide
  have one := windows_suffice_within juneHolidays fiveDays .forward _ _ 1 reached
  have two := windows_suffice_within juneHolidays fiveDays .forward _ _ 2 reached
  have stopped := windows_suffice_within juneHolidays (fiveDays.withWindowDays 0) .forward .last
    .last 1 (by decide)
  have near : NoFurther .forward (june 6) (june 6) := Int.le_refl _
  have windowed : (fiveDays.countWorkingDays juneHolidays.lookup .forward (june 1) 1).result =
      .ok (june 6) := by cbv
  have full : countWorkingDays .forward (allDaysOff juneHolidays fiveDays.division) 2 (june 1) =
      .ok (june 8) := by cbv
  have failed : ((fiveDays.withWindowDays 0).countWorkingDays juneHolidays.lookup .forward .last
      1).result = .error (.reckoning (.outOfRange .last)) := by cbv
  exact ⟨reached, near, one.right _ windowed near, two.early _ full, (stopped.fails _ failed).2⟩

end Docket.HolidayWindow
