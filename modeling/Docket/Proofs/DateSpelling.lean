import Docket.Proofs.Scanning
import Docket.Time.DateText
import Mathlib

/-! A date is found again from its year, month and day, and read again from its spelling, over
the whole range of dates. The months share out the days of their year without a gap, and the
spelling of a year shows where the year ends: bare years have four digits, all others a sign in
front and a hyphen behind. -/
namespace Docket.DateSpelling
open Docket.Scanning Docket.Text Docket.Time

/-- The number of days in months of the given lengths. -/
def daysIn (lengths : List Nat) : Nat := lengths.foldl (· + ·) 0

theorem daysIn_cons (length : Nat) (lengths : List Nat) :
    daysIn (length :: lengths) = length + daysIn lengths := by
  simp only [daysIn, List.foldl_cons, Nat.zero_add]
  exact @List.foldl_assoc _ (· + ·) _ lengths length 0

/-- A day that the months have room for falls into one of them. -/
theorem splitMonths_place (lengths : List Nat) (month passed : Nat)
    (room : passed < daysIn lengths) :
    ∃ earlier length, (splitMonths lengths month passed).1 = month + earlier ∧
      lengths[earlier]? = some length ∧ 1 ≤ (splitMonths lengths month passed).2 ∧
      (splitMonths lengths month passed).2 ≤ length ∧
      passed = daysIn (lengths.take earlier) + ((splitMonths lengths month passed).2 - 1) := by
  induction lengths generalizing month passed with
  | nil => exact absurd room (Nat.not_lt_zero passed)
  | cons length lengths ih =>
    rw [daysIn_cons] at room
    by_cases within : passed < length
    · refine ⟨0, length, ?_⟩
      simp [splitMonths, within, daysIn]
    · obtain ⟨earlier, found, place, listed, low, high, counted⟩ :=
        ih (month + 1) (passed - length) (by omega)
      refine ⟨earlier + 1, found, ?_⟩
      simp only [splitMonths, if_neg within, List.getElem?_cons_succ, List.take_succ_cons,
        daysIn_cons]
      exact ⟨by omega, listed, low, high, by omega⟩

theorem daysIn_monthLengths (leap : Bool) :
    daysIn (monthLengths leap) = if leap then 366 else 365 := by
  cases leap <;> rfl

theorem length_monthLengths (leap : Bool) : (monthLengths leap).length = 12 := by
  cases leap <;> rfl

theorem monthLengths_le (leap : Bool) {length : Nat} (member : length ∈ monthLengths leap) :
    length ≤ 31 := by
  cases leap <;> revert length <;> decide

/-- A leap year is one day longer. -/
theorem yearStart_succ (year : Int) :
    yearStart (year + 1) = yearStart year + if isLeapYear year then 366 else 365 := by
  unfold yearStart isLeapYear
  grind

variable {date : Date} {rest : List Char}

/-- The days of its year that have passed before a date fit into the months of the year. -/
theorem passed_lt (date : Date) :
    (date.day - yearStart date.year).toNat < daysIn (monthLengths (isLeapYear date.year)) := by
  obtain ⟨begun, before⟩ := yearOf_bounds date.day
  have next := yearStart_succ date.year
  rw [daysIn_monthLengths]
  unfold Date.year at *
  split at next <;> rename_i leap <;> simp only [leap, ↓reduceIte, Bool.false_eq_true] <;> omega

/-- A date has a month and a day of the month that the calendar has, and they lead back to it. -/
theorem calendar_of_date (date : Date) :
    Date.ofCalendar? date.year date.monthAndDay.1 date.monthAndDay.2 = some date := by
  obtain ⟨earlier, length, month, listed, low, high, counted⟩ :=
    splitMonths_place (monthLengths (isLeapYear date.year)) 1 _ (passed_lt date)
  change date.monthAndDay.1 = 1 + earlier at month
  change 1 ≤ date.monthAndDay.2 at low
  change date.monthAndDay.2 ≤ length at high
  have named : monthLength? date.year date.monthAndDay.1 = some length := by
    rw [monthLength?, if_neg (by omega), month, Nat.add_sub_cancel_left]
    exact listed
  obtain ⟨begun, _⟩ := yearOf_bounds date.day
  change yearStart date.year ≤ date.day at begun
  change _ = daysIn _ + (date.monthAndDay.2 - 1) at counted
  unfold Date.ofCalendar?
  rw [named]
  simp only [Option.bind_eq_bind, Option.bind_some, if_pos (And.intro low high)]
  rw [Date.ofDay?_eq_some, month, Nat.add_sub_cancel_left]
  change yearStart date.year + ((daysIn _ + (date.monthAndDay.2 - 1) : Nat) : Int) = date.day
  rw [← counted]
  omega

theorem digitRun_paddedDigits (width n : Nat) : DigitRun (paddedDigits (width + 1) n) := by
  unfold paddedDigits
  split
  · exact digitRun_fixedDigits width n
  · exact digitRun_decimalDigits n

/-- A sign and at least one digit make a year, however many digits follow. -/
theorem takes_signed (sign : Char) (value : Nat → Int) (n : Nat)
    (ends : NoneAhead Char.isDigit rest) :
    Takes (do Scan.mark sign; return value (ofDigits (← Scan.digits)))
      (sign :: (paddedDigits 4 n ++ rest)) (value n) rest := by
  have taken := takes_digits (digitRun_paddedDigits 3 n) ends
  refine takes_bind (takes_mark sign _) (takes_bind taken ?_)
  rw [ofDigits_paddedDigits]
  exact takes_pure (value n) rest

theorem takes_year (year : Int) (ends : NoneAhead Char.isDigit rest) :
    Takes scanYear (yearText year ++ rest) year rest := by
  unfold yearText
  split
  · rename_i bare
    have isRun := digitRun_fixedDigits 3 year.toNat
    have ahead {test : Char → Bool} (other : ∀ c, c.isDigit = true → test c = false) :
        NoneAhead test (fixedDigits 4 year.toNat ++ rest) :=
      noneAhead_of_digits isRun other rest
    have unsigned (sign : Char) (noDigit : sign.isDigit = false) :
        NoneAhead (· == sign) (fixedDigits 4 year.toNat ++ rest) :=
      ahead fun c digit => beq_of_isDigit noDigit digit
    have taken : Takes (Scan.digitsUpTo 4) (fixedDigits 4 year.toNat ++ rest)
        (fixedDigits 4 year.toNat) rest := by
      simpa only [length_fixedDigits] using @takes_digitsUpTo _ rest isRun
    have value : (ofDigits (fixedDigits 4 year.toNat) : Int) = year := by
      rw [ofDigits_fixedDigits]
      norm_num
      omega
    refine takes_bind (takes_blanks (ahead fun c digit => isBlank_of_isDigit digit)) ?_
    refine takes_orElse_second (refuses_bind (mark_refuses (unsigned '-' rfl))) ?_
    refine takes_orElse_second (refuses_bind (mark_refuses (unsigned '+' rfl))) ?_
    refine takes_bind taken ?_
    rw [value]
    exact takes_pure year rest
  · rw [List.cons_append]
    split
    · rename_i negative
      have value : -(year.natAbs : Int) = year := by omega
      refine takes_bind (takes_no_blanks rfl _) (takes_orElse_first ?_)
      rw [← value, Int.natAbs_neg, Int.natAbs_natCast]
      exact takes_signed '-' (fun n => -(n : Int)) year.natAbs ends
    · rename_i positive
      have value : (year.natAbs : Int) = year := by omega
      refine takes_bind (takes_no_blanks rfl _) (takes_orElse_second ?_ (takes_orElse_first ?_))
      · exact refuses_bind (mark_refuses (noneAhead_cons rfl _))
      · rw [← value, Int.natAbs_natCast]
        exact takes_signed '+' (fun n => (n : Int)) year.natAbs ends

/-- Months and days of the calendar have at most two digits. -/
theorem two_digits_of_named {year : Int} {month day : Nat}
    (named : Date.ofCalendar? year month day = some date) : month < 100 ∧ day < 100 := by
  unfold Date.ofCalendar? monthLength? at named
  split at named
  · cases named
  · cases listed : (monthLengths (isLeapYear year))[month - 1]? with
    | none =>
      rw [listed] at named
      cases named
    | some length =>
      obtain ⟨inYear, isLength⟩ := List.getElem?_eq_some_iff.mp listed
      have short := monthLengths_le (isLeapYear year) (isLength ▸ List.getElem_mem inYear)
      rw [length_monthLengths] at inYear
      rw [listed] at named
      simp only [Option.bind_eq_bind, Option.bind_some] at named
      split at named
      · rename_i inMonth
        exact ⟨by omega, by omega⟩
      · cases named

/-- A date is read from its year, month and day, whatever text follows them, by every reader that
lets the hyphens stand where they are. -/
theorem takes_calendar {gap : Scan Unit} {year : Int} {month day : Nat}
    (still : ∀ text, Takes gap ('-' :: text) () ('-' :: text))
    (named : Date.ofCalendar? year month day = some date) (rest : List Char) :
    Takes (Date.scan gap)
      (yearText year ++ '-' :: fixedDigits 2 month ++ '-' :: fixedDigits 2 day ++ rest) date
      rest := by
  obtain ⟨shortMonth, shortDay⟩ := two_digits_of_named named
  have hyphen (text : List Char) : NoneAhead Char.isDigit ('-' :: text) :=
    noneAhead_cons rfl text
  simp only [List.append_assoc, List.cons_append]
  refine takes_bind (takes_year year (hyphen _)) ?_
  refine takes_bind (still _) (takes_bind (takes_mark '-' _) ?_)
  refine takes_bind (takes_number 1 month _) ?_
  refine takes_bind (still _) (takes_bind (takes_mark '-' _) ?_)
  refine takes_bind (takes_number 1 day rest) ?_
  rw [Nat.mod_eq_of_lt (show month < Nat.pow 10 2 from shortMonth),
    Nat.mod_eq_of_lt (show day < Nat.pow 10 2 from shortDay), scanCalendar, named]
  exact takes_pure date rest

/-- A date is read back from its spelling. -/
theorem takes_date {gap : Scan Unit} (still : ∀ text, Takes gap ('-' :: text) () ('-' :: text))
    (date : Date) (rest : List Char) : Takes (Date.scan gap) (date.chars ++ rest) date rest :=
  takes_calendar still (calendar_of_date date) rest

/-- The spelling of a date is read as a whole. -/
theorem ofText?_text (date : Date) : Date.ofText? date.text = some date := by
  have spelled : date.text.toList = date.chars ++ [] := by
    rw [Date.text, String.toList_ofList, List.append_nil]
  rw [Date.ofText?, spelled]
  refine whole?_of_takes (takes_bind (takes_date (takes_no_blanks rfl) date []) ?_)
  exact takes_bind (takes_blanks (noneAhead_nil isBlank)) (takes_pure date [])

end Docket.DateSpelling
