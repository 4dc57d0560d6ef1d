import Docket.Calendar.WorkingDay
import Mathlib

/-! Counting off working days goes from day to day, but what it reaches can be told without
going: the working day with so many working days up to it, or no day at all where fewer remain
before the end of the range. What carries the walk is the number of working days ahead, which
each day counted off makes one less, whatever is skipped on the way. -/
namespace Docket.WorkingDayCount
open Docket.Calendar Docket.Time

/-- Saturday, 6 January 2024, by which all others are told. -/
def saturday : Date := (Date.ofCalendar? 2024 1 6).get (by decide)

/-- A Saturday is whole weeks away from any other. -/
def IsSaturday (date : Date) : Prop := ∃ weeks : Int, date.day = saturday.day + 7 * weeks

/-- A Sunday is the day after a Saturday. -/
def IsSunday (date : Date) : Prop := ∃ weeks : Int, date.day = saturday.day + 7 * weeks + 1

/-- The dates that are neither a Saturday nor a Sunday nor a holiday. -/
def workingDays (holidays : HolidaySet) : Set Date :=
  {date | ¬ IsSaturday date ∧ ¬ IsSunday date ∧ holidays.contains date = false}

/-- The second of two dates lies ahead of the first. -/
def Ahead : Direction → Date → Date → Prop
  | .forward, start, date => start < date
  | .backward, start, date => date < start

/-- The last date ahead of all others. -/
def rangeEnd : Direction → Date
  | .forward => .last
  | .backward => .first

/-- The working days ahead of a date. -/
def daysAhead (direction : Direction) (holidays : HolidaySet) (start : Date) : Set Date :=
  {date ∈ workingDays holidays | Ahead direction start date}

/-- The working days ahead of a date up to another one, which belongs to them. -/
def daysUpTo (direction : Direction) (holidays : HolidaySet) (start finish : Date) : Set Date :=
  {date ∈ daysAhead direction holidays start | ¬ Ahead direction finish date}

instance : Finite Date :=
  Finite.of_injective (fun date => (⟨date.day, date.first_le, date.le_last⟩ : Set.Icc firstDay lastDay))
    fun _ _ same => Date.ext_day (congrArg Subtype.val same)

variable {direction : Direction} {holidays : HolidaySet} {start next finish date : Date}

theorem weekend_iff : date.isWeekend = true ↔ IsSaturday date ∨ IsSunday date := by
  have anchor : saturday.day = 739256 := by decide
  simp only [Date.isWeekend, decide_eq_true_eq, IsSaturday, IsSunday, anchor]
  constructor
  · intro weekend
    by_cases first : date.day % 7 = 0
    · exact .inl ⟨(date.day - 739256) / 7, by omega⟩
    · exact .inr ⟨(date.day - 739256) / 7, by omega⟩
  · rintro (⟨weeks, same⟩ | ⟨weeks, same⟩) <;> omega

theorem isWorkingDay_iff : isWorkingDay holidays date = true ↔ date ∈ workingDays holidays := by
  have weekday : date.isWeekend = false ↔ ¬ IsSaturday date ∧ ¬ IsSunday date := by
    rw [← not_or, ← weekend_iff, Bool.not_eq_true]
  simp only [isWorkingDay, workingDays, Bool.and_eq_true, Bool.not_eq_true', Set.mem_ofPred_eq,
    weekday, and_assoc]

/-- One step leads to the nearest date ahead, from which all others are still ahead. -/
theorem ahead_step (stepped : direction.step? start = some next) :
    Ahead direction start date ↔ date = next ∨ Ahead direction next date := by
  have moved := Direction.step?_eq_some.mp stepped
  have named : date = next ↔ date.day = next.day := ⟨congrArg Date.day, Date.ext_day⟩
  cases direction <;> simp only [Ahead, Date.lt_def, named, moved, Direction.unit] <;> omega

/-- Where no step is left, the range ends and nothing is ahead. -/
theorem end_of_no_step (stopped : direction.step? start = none) :
    start = rangeEnd direction ∧ ∀ date, ¬ Ahead direction start date := by
  have outside := Date.ofDay?_eq_none.mp stopped
  have low := start.first_le
  have high := start.le_last
  cases direction with
  | forward =>
    simp only [Direction.unit] at outside
    refine ⟨Date.ext_day (by simp only [rangeEnd, Date.last]; omega), fun date ahead => ?_⟩
    have bound := date.le_last
    simp only [Ahead, Date.lt_def] at ahead
    omega
  | backward =>
    simp only [Direction.unit] at outside
    refine ⟨Date.ext_day (by simp only [rangeEnd, Date.first]; omega), fun date ahead => ?_⟩
    have bound := date.first_le
    simp only [Ahead, Date.lt_def] at ahead
    omega

theorem ahead_trans (first : Ahead direction start next) (second : Ahead direction next date) :
    Ahead direction start date := by
  cases direction <;> simp only [Ahead, Date.lt_def] at * <;> omega

theorem ahead_irrefl : ¬ Ahead direction date date := by
  cases direction <;> simp [Ahead, Date.lt_def]

theorem ahead_or_eq_or_ahead (direction : Direction) (start date : Date) :
    Ahead direction start date ∨ start = date ∨ Ahead direction date start := by
  have named : start = date ↔ start.day = date.day := ⟨congrArg Date.day, Date.ext_day⟩
  cases direction <;> simp only [Ahead, Date.lt_def, named] <;> omega

theorem daysAhead_of_working (stepped : direction.step? start = some next)
    (working : next ∈ workingDays holidays) :
    daysAhead direction holidays start = insert next (daysAhead direction holidays next) := by
  ext date
  simp only [daysAhead, Set.mem_ofPred_eq, Set.mem_insert_iff, ahead_step stepped]
  constructor
  · rintro ⟨member, same | ahead⟩
    · exact .inl same
    · exact .inr ⟨member, ahead⟩
  · rintro (rfl | ⟨member, ahead⟩)
    · exact ⟨working, .inl rfl⟩
    · exact ⟨member, .inr ahead⟩

theorem daysAhead_of_idle (stepped : direction.step? start = some next)
    (idle : next ∉ workingDays holidays) :
    daysAhead direction holidays start = daysAhead direction holidays next := by
  ext date
  simp only [daysAhead, Set.mem_ofPred_eq, ahead_step stepped]
  constructor
  · rintro ⟨member, rfl | ahead⟩
    · exact absurd member idle
    · exact ⟨member, ahead⟩
  · rintro ⟨member, ahead⟩
    exact ⟨member, .inr ahead⟩

/-- The next working day is the first of the working days ahead; behind it remain the others. -/
theorem daysAhead_of_next (found : nextWorkingDay direction holidays start = .ok next) :
    next ∈ workingDays holidays ∧
      daysAhead direction holidays start = insert next (daysAhead direction holidays next) := by
  fun_induction nextWorkingDay direction holidays start with
  | case1 => cases found
  | case2 start day stepped working =>
    cases found
    have member := isWorkingDay_iff.mp working
    exact ⟨member, daysAhead_of_working stepped member⟩
  | case3 start day stepped rest ih =>
    have idle : day ∉ workingDays holidays := fun member => rest (isWorkingDay_iff.mpr member)
    rw [daysAhead_of_idle stepped idle]
    exact ih found

/-- Where the search for a working day fails, it has come to the end of the range, and there was
none ahead. -/
theorem daysAhead_of_error {error : ReckoningError}
    (failed : nextWorkingDay direction holidays start = .error error) :
    error = .outOfRange (rangeEnd direction) ∧ daysAhead direction holidays start = ∅ := by
  fun_induction nextWorkingDay direction holidays start with
  | case1 start stopped =>
    cases failed
    obtain ⟨atEnd, nothing⟩ := end_of_no_step stopped
    refine ⟨congrArg ReckoningError.outOfRange atEnd, Set.eq_empty_of_forall_notMem ?_⟩
    intro date ahead
    exact nothing date ahead.2
  | case2 => cases failed
  | case3 start day stepped rest ih =>
    have idle : day ∉ workingDays holidays := fun member => rest (isWorkingDay_iff.mpr member)
    rw [daysAhead_of_idle stepped idle]
    exact ih failed

theorem ncard_of_next (found : nextWorkingDay direction holidays start = .ok next) :
    (daysAhead direction holidays start).ncard =
      (daysAhead direction holidays next).ncard + 1 := by
  rw [(daysAhead_of_next found).2, Set.ncard_insert_of_notMem]
  intro member
  exact ahead_irrefl member.2

theorem ahead_of_next (found : nextWorkingDay direction holidays start = .ok next) :
    Ahead direction start next := by
  have member : next ∈ daysAhead direction holidays start := by
    rw [(daysAhead_of_next found).2]
    exact Set.mem_insert ..
  exact member.2

/-- A count that comes to a date has used up as many of the working days ahead, and the date is
one of them unless nothing was to be counted. -/
theorem count_reaches {count : Nat}
    (counted : countWorkingDays direction holidays count start = .ok finish) :
    (daysAhead direction holidays start).ncard =
        (daysAhead direction holidays finish).ncard + count ∧
      (0 < count → finish ∈ daysAhead direction holidays start) := by
  -- Each next working day takes one off the working days ahead, so the count is carried by them.
  induction count generalizing start with
  | zero =>
    cases counted
    simp
  | succ count ih =>
    simp only [countWorkingDays] at counted
    split at counted
    · rename_i next found
      obtain ⟨used, reached⟩ := ih counted
      refine ⟨by rw [ncard_of_next found, used]; omega, fun _ => ?_⟩
      by_cases last : count = 0
      · subst last
        cases counted
        exact ⟨(daysAhead_of_next found).1, ahead_of_next found⟩
      · obtain ⟨working, ahead⟩ := reached (by omega)
        exact ⟨working, ahead_trans (ahead_of_next found) ahead⟩
    · cases counted

/-- A count that fails has come to the end of the range with too few working days ahead. -/
theorem count_fails {count : Nat} {error : ReckoningError}
    (failed : countWorkingDays direction holidays count start = .error error) :
    error = .outOfRange (rangeEnd direction) ∧
      (daysAhead direction holidays start).ncard < count := by
  induction count generalizing start with
  | zero => cases failed
  | succ count ih =>
    simp only [countWorkingDays] at failed
    split at failed
    · rename_i next found
      obtain ⟨named, few⟩ := ih failed
      refine ⟨named, ?_⟩
      rw [ncard_of_next found]
      omega
    · rename_i stopped
      cases failed
      obtain ⟨named, none⟩ := daysAhead_of_error stopped
      refine ⟨named, ?_⟩
      rw [none, Set.ncard_empty]
      omega

theorem ncard_lt_of_ahead (working : finish ∈ daysAhead direction holidays start) :
    (daysAhead direction holidays finish).ncard < (daysAhead direction holidays start).ncard := by
  refine Set.ncard_lt_ncard ⟨fun date member => ⟨member.1, ahead_trans working.2 member.2⟩, ?_⟩
  intro included
  exact ahead_irrefl (included working).2

theorem ncard_daysUpTo (reached : finish ∈ daysAhead direction holidays start) :
    (daysUpTo direction holidays start finish).ncard +
        (daysAhead direction holidays finish).ncard =
      (daysAhead direction holidays start).ncard := by
  have split : daysUpTo direction holidays start finish =
      daysAhead direction holidays start \ daysAhead direction holidays finish := by
    ext date
    simp only [daysUpTo, Set.mem_ofPred_eq, Set.mem_sdiff]
    constructor
    · rintro ⟨member, short⟩
      exact ⟨member, fun ahead => short ahead.2⟩
    · rintro ⟨member, short⟩
      exact ⟨member, fun ahead => short ⟨member.1, ahead⟩⟩
  rw [split, Set.ncard_sdiff_add_ncard_of_subset]
  intro date member
  exact ⟨member.1, ahead_trans reached.2 member.2⟩

/-- Of two working days with as many working days ahead, neither is ahead of the other. -/
theorem eq_of_ncard_eq (working : finish ∈ workingDays holidays)
    (other : date ∈ workingDays holidays)
    (same : (daysAhead direction holidays finish).ncard = (daysAhead direction holidays date).ncard) :
    finish = date := by
  rcases ahead_or_eq_or_ahead direction finish date with ahead | equal | ahead
  · have reached : date ∈ daysAhead direction holidays finish := ⟨other, ahead⟩
    have fewer := ncard_lt_of_ahead reached
    omega
  · exact equal
  · have reached : finish ∈ daysAhead direction holidays date := ⟨working, ahead⟩
    have fewer := ncard_lt_of_ahead reached
    omega

/-- A count comes to just that working day ahead with as many working days up to it. -/
theorem count_ok_iff {count : Nat} (positive : 0 < count) :
    countWorkingDays direction holidays count start = .ok finish ↔
      finish ∈ daysAhead direction holidays start ∧
        (daysUpTo direction holidays start finish).ncard = count := by
  constructor
  · intro counted
    obtain ⟨used, reached⟩ := count_reaches counted
    have total := ncard_daysUpTo (reached positive)
    exact ⟨reached positive, by omega⟩
  · rintro ⟨reached, exact⟩
    have total := ncard_daysUpTo reached
    cases result : countWorkingDays direction holidays count start with
    | ok date =>
      obtain ⟨used, member⟩ := count_reaches result
      have remain : (daysAhead direction holidays date).ncard =
          (daysAhead direction holidays finish).ncard := by omega
      rw [eq_of_ncard_eq (member positive).1 reached.1 remain]
    | error error =>
      obtain ⟨_, few⟩ := count_fails result
      omega

theorem count_error_iff {count : Nat} :
    (∃ error, countWorkingDays direction holidays count start = .error error) ↔
      (daysAhead direction holidays start).ncard < count := by
  constructor
  · rintro ⟨error, failed⟩
    exact (count_fails failed).2
  · intro few
    cases result : countWorkingDays direction holidays count start with
    | ok date =>
      obtain ⟨used, _⟩ := count_reaches result
      omega
    | error error => exact ⟨error, rfl⟩

/-- Where enough working days lie up to one of them, a count comes no further than that one. -/
theorem count_within {count : Nat} (working : date ∈ daysAhead direction holidays start)
    (enough : count ≤ (daysUpTo direction holidays start date).ncard) :
    ∃ finish, countWorkingDays direction holidays count start = .ok finish ∧
      ¬ Ahead direction date finish := by
  have total := ncard_daysUpTo working
  cases result : countWorkingDays direction holidays count start with
  | error error =>
    have few := (count_fails result).2
    omega
  | ok finish =>
    refine ⟨finish, rfl, fun beyond => ?_⟩
    rcases Nat.eq_zero_or_pos count with rfl | positive
    · cases result
      exact ahead_irrefl (ahead_trans working.2 beyond)
    · -- Were it further, fewer working days would be ahead of it than are left over.
      obtain ⟨used, reached⟩ := count_reaches result
      have fewer : (daysAhead direction holidays finish).ncard <
          (daysAhead direction holidays date).ncard :=
        ncard_lt_of_ahead ⟨(reached positive).1, beyond⟩
      omega

private theorem daysUpTo_forward : daysUpTo .forward holidays start finish =
    {date ∈ workingDays holidays | start < date ∧ date ≤ finish} := by
  ext date
  simp only [daysUpTo, daysAhead, Ahead, Set.mem_ofPred_eq, Date.lt_def, Date.le_def, Int.not_lt,
    and_assoc]

private theorem daysUpTo_backward : daysUpTo .backward holidays start finish =
    {date ∈ workingDays holidays | finish ≤ date ∧ date < start} := by
  ext date
  simp only [daysUpTo, daysAhead, Ahead, Set.mem_ofPred_eq, Date.lt_def, Date.le_def, Int.not_lt,
    and_assoc, and_comm (a := date.day < start.day)]

theorem count_off_the_end {count : Nat} (positive : 0 < count)
    (allOff : ∀ date, Ahead direction start date → holidays.contains date = true) :
    countWorkingDays direction holidays count start = .error (.outOfRange (rangeEnd direction)) := by
  have nothing : daysAhead direction holidays start = ∅ := by
    refine Set.eq_empty_of_forall_notMem fun date member => ?_
    obtain ⟨⟨_, _, working⟩, ahead⟩ := member
    rw [allOff date ahead] at working
    cases working
  have few : (daysAhead direction holidays start).ncard < count := by
    rw [nothing, Set.ncard_empty]
    exact positive
  obtain ⟨error, failed⟩ := count_error_iff.mpr few
  rw [failed, (count_fails failed).1]

/-- Counting off working days, in either direction and with any holidays, always comes to an end:
at the working day with just so many working days up to it, or, where fewer remain, in an error
that names the last date of the range, as it does where all that is left are holidays. Counting
none stays where it is. -/
theorem walks_count_working_days (holidays : HolidaySet) (start : Date) :
    (∀ direction, countWorkingDays direction holidays 0 start = .ok start) ∧
      (∀ count finish, 0 < count →
        (countWorkingDays .forward holidays count start = .ok finish ↔
          finish ∈ workingDays holidays ∧ start < finish ∧
            {date ∈ workingDays holidays | start < date ∧ date ≤ finish}.ncard = count) ∧
        (countWorkingDays .backward holidays count start = .ok finish ↔
          finish ∈ workingDays holidays ∧ finish < start ∧
            {date ∈ workingDays holidays | finish ≤ date ∧ date < start}.ncard = count)) ∧
      (∀ count,
        ((∃ error, countWorkingDays .forward holidays count start = .error error) ↔
          {date ∈ workingDays holidays | start < date}.ncard < count) ∧
        ((∃ error, countWorkingDays .backward holidays count start = .error error) ↔
          {date ∈ workingDays holidays | date < start}.ncard < count)) ∧
      (∀ count error,
        (countWorkingDays .forward holidays count start = .error error →
          error = .outOfRange .last) ∧
        (countWorkingDays .backward holidays count start = .error error →
          error = .outOfRange .first)) ∧
      (∀ count, 0 < count →
        ((∀ date, start < date → holidays.contains date = true) →
          countWorkingDays .forward holidays count start = .error (.outOfRange .last)) ∧
        ((∀ date, date < start → holidays.contains date = true) →
          countWorkingDays .backward holidays count start = .error (.outOfRange .first))) ∧
      Date.ofCalendar? 262142 12 31 = some .last ∧ Date.ofCalendar? (-262143) 1 1 = some .first ∧
      ∀ date : Date, .first ≤ date ∧ date ≤ .last := by
  refine ⟨fun _ => rfl, ?_, ?_, ?_, ?_, by decide, by decide,
    fun date => ⟨date.first_le, date.le_last⟩⟩
  · intro count finish positive
    rw [count_ok_iff positive, count_ok_iff positive, daysUpTo_forward, daysUpTo_backward]
    exact ⟨and_assoc, and_assoc⟩
  · intro count
    exact ⟨count_error_iff, count_error_iff⟩
  · intro count error
    exact ⟨fun failed => (count_fails failed).1, fun failed => (count_fails failed).1⟩
  · intro count positive
    exact ⟨fun allOff => count_off_the_end positive allOff,
      fun allOff => count_off_the_end positive allOff⟩

/-- Wednesday, 1 June 2022, followed by two holidays and a weekend. -/
def beforeHolidays : Date := (Date.ofCalendar? 2022 6 1).get (by decide)

/-- Tuesday, 7 June 2022. -/
def afterHolidays : Date := (Date.ofCalendar? 2022 6 7).get (by decide)

/-- The two holidays between them. -/
def twoHolidays : HolidaySet :=
  .ofDates [(Date.ofCalendar? 2022 6 2).get (by decide), (Date.ofCalendar? 2022 6 3).get (by decide)]

/-- Two working days lie between the dates, and none behind the last date of the range, in both
directions. -/
theorem two_working_days_after_holidays :
    {date ∈ workingDays twoHolidays | beforeHolidays < date ∧ date ≤ afterHolidays}.ncard = 2 ∧
      {date ∈ workingDays twoHolidays | Date.last < date}.ncard < 1 ∧
      countWorkingDays .backward twoHolidays 1 .first = .error (.outOfRange .first) := by
  have reached : countWorkingDays .forward twoHolidays 2 beforeHolidays = .ok afterHolidays := by
    cbv
  have stopped : countWorkingDays .forward twoHolidays 1 .last = .error (.outOfRange .last) := by
    cbv
  obtain ⟨_, counted, _⟩ := walks_count_working_days twoHolidays beforeHolidays
  obtain ⟨_, _, failed, _⟩ := walks_count_working_days twoHolidays .last
  obtain ⟨_, _, _, _, allOff, _⟩ := walks_count_working_days twoHolidays .first
  refine ⟨((counted 2 afterHolidays (by decide)).1.mp reached).2.2,
    (failed 1).1.mp ⟨_, stopped⟩, (allOff 1 (by decide)).2 ?_⟩
  intro date ahead
  have low := date.first_le
  rw [Date.lt_def] at ahead
  exact absurd ahead (by simp only [Date.first]; omega)

end Docket.WorkingDayCount
