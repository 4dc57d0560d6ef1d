import Docket.Proofs.WorkingDayCount

/-! Counts of working days add up, and a count can be taken back: it returns to the nearest working
day, which is the start itself where that is one. What is nearest is told by the order of dates
alone. Counts from two dates keep their order, so neither overtakes the other. -/
namespace Docket.StepAlgebra
open Docket.Calendar Docket.Time Docket.WorkingDayCount

/-- The direction that leads back. -/
def opposite : Direction → Direction
  | .forward => .backward
  | .backward => .forward

/-- The working days from a date on, the date itself among them if it is one. -/
def daysFrom : Direction → HolidaySet → Date → Set Date
  | .forward, holidays, start => {date ∈ workingDays holidays | start ≤ date}
  | .backward, holidays, start => {date ∈ workingDays holidays | date ≤ start}

/-- The nearest of the working days from a date on: the earliest one not before it, or the latest
one not after it. -/
def Nearest : Direction → HolidaySet → Date → Date → Prop
  | .forward, holidays, start, date => IsLeast (daysFrom .forward holidays start) date
  | .backward, holidays, start, date => IsGreatest (daysFrom .backward holidays start) date

/-- What a count in one direction leads to from where a count in the other has led. -/
structure Returns (direction : Direction) (holidays : HolidaySet) (count : Nat)
    (start finish : Date) : Prop where
  lands : ∀ back, countWorkingDays direction holidays count finish = .ok back ↔
    Nearest direction holidays start back
  fails : ∀ error, countWorkingDays direction holidays count finish = .error error ↔
    error = .outOfRange (rangeEnd direction) ∧ daysFrom direction holidays start = ∅
  home : countWorkingDays direction holidays count finish = .ok start ↔
    start ∈ workingDays holidays
  /-- From a start that is no working day, the return goes past it. -/
  past : start ∉ workingDays holidays → ∀ back,
    countWorkingDays direction holidays count finish = .ok back → Ahead direction start back

variable {direction : Direction} {holidays : HolidaySet} {start finish other date back : Date}
variable {count : Nat}

theorem ahead_opposite : Ahead (opposite direction) start date ↔ Ahead direction date start := by
  cases direction <;> rfl

theorem mem_daysFrom : date ∈ daysFrom direction holidays start ↔
    date ∈ workingDays holidays ∧ ¬ Ahead direction date start := by
  cases direction <;>
    simp only [daysFrom, Set.mem_ofPred_eq, Ahead, Date.le_def, Date.lt_def, Int.not_lt]

theorem nearest_iff : Nearest direction holidays start date ↔
    date ∈ daysFrom direction holidays start ∧
      ∀ other ∈ daysFrom direction holidays start, ¬ Ahead direction other date := by
  cases direction <;>
    simp only [Nearest, IsLeast, IsGreatest, lowerBounds, upperBounds, Set.mem_ofPred_eq, Ahead,
      Date.le_def, Date.lt_def, Int.not_lt]

/-- What lies ahead of a date lies ahead of every date that it is not before. -/
theorem ahead_of_not_ahead (near : ¬ Ahead direction other start)
    (ahead : Ahead direction other date) : Ahead direction start date := by
  cases direction <;> simp only [Ahead, Date.lt_def] at * <;> omega

/-- Counting in two parts is counting in one. -/
theorem count_add (direction : Direction) (holidays : HolidaySet) (first second : Nat)
    (start : Date) : countWorkingDays direction holidays (first + second) start =
      (countWorkingDays direction holidays first start).bind
        (countWorkingDays direction holidays second) := by
  induction first generalizing start with
  | zero =>
    rw [Nat.zero_add]
    rfl
  | succ first ih =>
    rw [Nat.succ_add]
    simp only [countWorkingDays]
    cases nextWorkingDay direction holidays start with
    | ok next => exact ih next
    | error error => rfl

theorem nearest_of_working (working : start ∈ workingDays holidays) :
    Nearest direction holidays start start := by
  refine nearest_iff.mpr ⟨mem_daysFrom.mpr ⟨working, ahead_irrefl⟩, fun other member => ?_⟩
  exact (mem_daysFrom.mp member).2

/-- From a date that is no working day on, there are the working days ahead of it. -/
theorem daysFrom_of_idle (idle : start ∉ workingDays holidays) :
    daysFrom direction holidays start = daysAhead direction holidays start := by
  ext date
  rw [mem_daysFrom]
  refine and_congr_right fun working => ?_
  rcases ahead_or_eq_or_ahead direction start date with ahead | same | behind
  · exact iff_of_true (fun behind => ahead_irrefl (ahead_trans ahead behind)) ahead
  · exact absurd (same ▸ working) idle
  · exact iff_of_false (fun near => near behind) fun ahead => ahead_irrefl (ahead_trans ahead behind)

/-- From a date on, there are no working days, or one of them is the nearest. -/
theorem none_or_nearest (direction : Direction) (holidays : HolidaySet) (start : Date) :
    daysFrom direction holidays start = ∅ ∨ ∃ date, Nearest direction holidays start date := by
  by_cases working : start ∈ workingDays holidays
  · exact .inr ⟨start, nearest_of_working working⟩
  · have idle := @daysFrom_of_idle direction holidays start working
    cases found : nextWorkingDay direction holidays start with
    | error error => exact .inl (idle.trans (daysAhead_of_error found).2)
    | ok next =>
      refine .inr ⟨next, nearest_iff.mpr ?_⟩
      rw [idle, (daysAhead_of_next found).2]
      refine ⟨Set.mem_insert .., ?_⟩
      rintro other (rfl | ⟨_, ahead⟩) behind
      · exact ahead_irrefl behind
      · exact ahead_irrefl (ahead_trans ahead behind)

/-- The working days between two dates, neither of them included. -/
def daysBetween (direction : Direction) (holidays : HolidaySet) (start finish : Date) : Set Date :=
  {date ∈ daysAhead direction holidays start | Ahead direction date finish}

/-- Between a start and where a count has led lie all working days counted but the last. -/
theorem ncard_daysBetween (positive : 0 < count)
    (counted : countWorkingDays direction holidays count start = .ok finish) :
    (daysBetween direction holidays start finish).ncard + 1 = count := by
  obtain ⟨reached, exact⟩ := (count_ok_iff positive).mp counted
  have upTo : daysUpTo direction holidays start finish =
      insert finish (daysBetween direction holidays start finish) := by
    ext date
    constructor
    · rintro ⟨member, short⟩
      rcases ahead_or_eq_or_ahead direction date finish with ahead | same | behind
      · exact .inr ⟨member, ahead⟩
      · exact .inl same
      · exact absurd behind short
    · rintro (rfl | ⟨member, ahead⟩)
      · exact ⟨reached, ahead_irrefl⟩
      · exact ⟨member, fun behind => ahead_irrefl (ahead_trans ahead behind)⟩
  rw [← exact, upTo, Set.ncard_insert_of_notMem fun member => ahead_irrefl member.2]

/-- On the way back there are the days between and, behind them, those from the start on. -/
theorem mem_daysAhead_opposite (ahead : Ahead direction start finish) :
    date ∈ daysAhead (opposite direction) holidays finish ↔
      date ∈ daysBetween direction holidays start finish ∨
        date ∈ daysFrom (opposite direction) holidays start := by
  rw [mem_daysFrom, ahead_opposite]
  constructor
  · rintro ⟨working, behind⟩
    rw [ahead_opposite] at behind
    by_cases passed : Ahead direction start date
    · exact .inl ⟨⟨working, passed⟩, behind⟩
    · exact .inr ⟨working, passed⟩
  · rintro (⟨⟨working, _⟩, behind⟩ | ⟨working, near⟩)
    · exact ⟨working, ahead_opposite.mpr behind⟩
    · exact ⟨working, ahead_opposite.mpr (ahead_of_not_ahead near ahead)⟩

/-- Where nothing lies from the start on, there are too few days for the way back. -/
theorem count_back_fails (positive : 0 < count)
    (counted : countWorkingDays direction holidays count start = .ok finish)
    (nothing : daysFrom (opposite direction) holidays start = ∅) :
    countWorkingDays (opposite direction) holidays count finish =
      .error (.outOfRange (rangeEnd (opposite direction))) := by
  have between := ncard_daysBetween positive counted
  have ahead := (count_reaches counted).2 positive
  have all : daysAhead (opposite direction) holidays finish =
      daysBetween direction holidays start finish := by
    ext date
    rw [mem_daysAhead_opposite ahead.2, nothing]
    exact or_iff_left (Set.notMem_empty date)
  have few : (daysAhead (opposite direction) holidays finish).ncard < count := by
    rw [all]
    omega
  obtain ⟨error, failed⟩ := count_error_iff.mpr few
  rw [failed, (count_fails failed).1]

/-- Up to the nearest day there are the days between and that day itself, as many as counted. -/
theorem count_back_lands (positive : 0 < count)
    (counted : countWorkingDays direction holidays count start = .ok finish)
    (nearest : Nearest (opposite direction) holidays start back) :
    countWorkingDays (opposite direction) holidays count finish = .ok back := by
  have between := ncard_daysBetween positive counted
  have ahead := (count_reaches counted).2 positive
  obtain ⟨member, first⟩ := nearest_iff.mp nearest
  have behind : ¬ Ahead direction start back := by
    rw [← ahead_opposite]
    exact (mem_daysFrom.mp member).2
  have upTo : daysUpTo (opposite direction) holidays finish back =
      insert back (daysBetween direction holidays start finish) := by
    ext date
    constructor
    · rintro ⟨onTheWay, short⟩
      rcases (mem_daysAhead_opposite ahead.2).mp onTheWay with passed | left
      · exact .inr passed
      · rcases ahead_or_eq_or_ahead (opposite direction) back date with beyond | same | before
        · exact absurd beyond short
        · exact .inl same.symm
        · exact absurd before (first date left)
    · rintro (rfl | passed)
      · exact ⟨(mem_daysAhead_opposite ahead.2).mpr (.inr member), ahead_irrefl⟩
      · refine ⟨(mem_daysAhead_opposite ahead.2).mpr (.inl passed), fun beyond => behind ?_⟩
        exact ahead_trans passed.1.2 (ahead_opposite.mp beyond)
  refine (count_ok_iff positive).mpr ⟨(mem_daysAhead_opposite ahead.2).mpr (.inr member), ?_⟩
  rw [upTo, Set.ncard_insert_of_notMem fun passed => behind passed.1.2, between]

theorem returns_of_count (positive : 0 < count)
    (counted : countWorkingDays direction holidays count start = .ok finish) :
    Returns (opposite direction) holidays count start finish := by
  have lands (back : Date) :
      countWorkingDays (opposite direction) holidays count finish = .ok back ↔
        Nearest (opposite direction) holidays start back := by
    refine ⟨fun returned => ?_, count_back_lands positive counted⟩
    rcases none_or_nearest (opposite direction) holidays start with nothing | ⟨date, nearest⟩
    · cases returned.symm.trans (count_back_fails positive counted nothing)
    · cases returned.symm.trans (count_back_lands positive counted nearest)
      exact nearest
  constructor
  · exact lands
  · intro error
    constructor
    · intro failed
      rcases none_or_nearest (opposite direction) holidays start with nothing | ⟨date, nearest⟩
      · exact ⟨(count_fails failed).1, nothing⟩
      · cases failed.symm.trans (count_back_lands positive counted nearest)
    · rintro ⟨rfl, nothing⟩
      exact count_back_fails positive counted nothing
  · rw [lands]
    exact ⟨fun nearest => (mem_daysFrom.mp (nearest_iff.mp nearest).1).1, nearest_of_working⟩
  · intro idle back returned
    have nearest := (nearest_iff.mp ((lands back).mp returned)).1
    rw [daysFrom_of_idle idle] at nearest
    exact nearest.2

/-- Of two starts, the one behind has the days ahead of the other among its own. -/
theorem daysAhead_subset (near : ¬ Ahead direction other start) :
    daysAhead direction holidays other ⊆ daysAhead direction holidays start := by
  rintro date ⟨working, ahead⟩
  exact ⟨working, ahead_of_not_ahead near ahead⟩

/-- A count from behind comes to an end where one from further on does, and not beyond it. -/
theorem count_mono (near : ¬ Ahead direction other start)
    (counted : countWorkingDays direction holidays count other = .ok finish) :
    ∃ early, countWorkingDays direction holidays count start = .ok early ∧
      ¬ Ahead direction finish early := by
  rcases Nat.eq_zero_or_pos count with rfl | positive
  · cases counted
    exact ⟨start, rfl, near⟩
  · obtain ⟨reached, exact⟩ := (count_ok_iff positive).mp counted
    refine count_within (daysAhead_subset near reached) ?_
    rw [← exact]
    refine Set.ncard_le_ncard ?_
    rintro date ⟨member, short⟩
    exact ⟨daysAhead_subset near member, short⟩

/-- Counting working days is additive, errors at the ends of the range included. The way back by as
many days as were counted leads to the nearest working day, seen from the start, and to an error
where there is none. Neither direction lets a later start come out earlier. -/
theorem counts_add_up_and_return (holidays : HolidaySet) :
    (∀ direction first second start,
      countWorkingDays direction holidays (first + second) start =
        (countWorkingDays direction holidays first start).bind
          (countWorkingDays direction holidays second)) ∧
      (∀ count start finish, 0 < count →
        (countWorkingDays .forward holidays count start = .ok finish →
          Returns .backward holidays count start finish) ∧
        (countWorkingDays .backward holidays count start = .ok finish →
          Returns .forward holidays count start finish)) ∧
      ∀ count early late, early ≤ late →
        (∀ finish, countWorkingDays .forward holidays count late = .ok finish →
          ∃ sooner, countWorkingDays .forward holidays count early = .ok sooner ∧
            sooner ≤ finish) ∧
        ∀ finish, countWorkingDays .backward holidays count early = .ok finish →
          ∃ later, countWorkingDays .backward holidays count late = .ok later ∧
            finish ≤ later := by
  refine ⟨fun direction => count_add direction holidays, ?_, ?_⟩
  · intro count start finish positive
    exact ⟨returns_of_count positive, returns_of_count positive⟩
  · intro count early late inOrder
    have noLater : ¬ Ahead .forward late early := Int.not_lt.mpr inOrder
    have noEarlier : ¬ Ahead .backward early late := Int.not_lt.mpr inOrder
    refine ⟨fun finish counted => ?_, fun finish counted => ?_⟩
    · obtain ⟨sooner, reached, within⟩ := count_mono noLater counted
      exact ⟨sooner, reached, Int.not_lt.mp within⟩
    · obtain ⟨later, reached, within⟩ := count_mono noEarlier counted
      exact ⟨later, reached, Int.not_lt.mp within⟩

/-- Friday, 31 December 2021. -/
def lastFriday : Date := (Date.ofCalendar? 2021 12 31).get (by decide)

/-- New Year's Day 2022, a Saturday. -/
def newYear : Date := (Date.ofCalendar? 2022 1 1).get (by decide)

/-- The Monday after it. -/
def dayOff : Date := (Date.ofCalendar? 2022 1 3).get (by decide)

/-- The Tuesday after it. -/
def firstTuesday : Date := (Date.ofCalendar? 2022 1 4).get (by decide)

/-- With the Monday off, a day counted from New Year's Day leads to the Tuesday, from where the way
back leads to the Friday; a day counted from the Friday comes no later. -/
theorem new_year_returns_to_friday :
    countWorkingDays .forward (.ofDates [dayOff]) 1 newYear = .ok firstTuesday ∧
      IsGreatest {date ∈ workingDays (.ofDates [dayOff]) | date ≤ newYear} lastFriday ∧
      lastFriday ≤ newYear ∧
      ∃ sooner, countWorkingDays .forward (.ofDates [dayOff]) 1 lastFriday = .ok sooner ∧
        sooner ≤ firstTuesday := by
  have counted : countWorkingDays .forward (.ofDates [dayOff]) 1 newYear = .ok firstTuesday := by
    cbv
  have back : countWorkingDays .backward (.ofDates [dayOff]) 1 firstTuesday = .ok lastFriday := by
    cbv
  have inOrder : lastFriday ≤ newYear := by decide
  obtain ⟨_, returns, ordered⟩ := counts_add_up_and_return (.ofDates [dayOff])
  have returned := (returns 1 newYear firstTuesday (by decide)).1 counted
  exact ⟨counted, (returned.lands lastFriday).mp back, inOrder,
    (ordered 1 lastFriday newYear inOrder).1 firstTuesday counted⟩

end Docket.StepAlgebra
