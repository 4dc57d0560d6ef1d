import Docket.Calendar.EndOfDay
import Docket.Calendar.HearingDate
import Docket.Proofs.InstantSpelling

/-! A hearing date means the day that is written, whatever stands behind it: a time of day, a leap
second, an offset that would carry the instant over midnight. Years of four digits may stand in
front of an offset; all other years may not, so that the end of a day in such a year is written but
not read again as a hearing date. -/
namespace Docket.HearingDateSpelling
open Docket.Calendar Docket.DateSpelling Docket.InstantSpelling Docket.Scanning Docket.Text
open Docket.Time

/-- A date, written by its year, its month and the day of the month. -/
inductive Shows (year : Int) (date : Date) : List Char → Prop
  | intro {month day : Nat} (named : Date.ofCalendar? year month day = some date) :
      Shows year date (yearText year ++ '-' :: fixedDigits 2 month ++ '-' :: fixedDigits 2 day)

/-- A fraction of a second: nothing, or a point and some digits, however many. -/
inductive ShowsFraction : List Char → Prop
  | whole : ShowsFraction []
  | places {run : List Char} (isRun : DigitRun run) : ShowsFraction ('.' :: run)

/-- A time of day as a clock shows it. Second 60 is a leap second. -/
inductive ShowsTime : List Char → Prop
  | intro {hour minute second : Nat} {fraction : List Char} (hours : hour < 24)
      (minutes : minute < 60) (seconds : second ≤ 60) (fractional : ShowsFraction fraction) :
      ShowsTime (fixedDigits 2 hour ++ ':' :: fixedDigits 2 minute ++ ':' :: fixedDigits 2 second ++
        fraction)

/-- An offset from universal time, of less than a day to either side. -/
inductive ShowsZone : List Char → Prop
  | zulu {letter : Char} (either : letter = 'Z' ∨ letter = 'z') : ShowsZone [letter]
  | offset {sign : Char} {hours minutes : Nat} (signed : sign = '+' ∨ sign = '-' ∨ sign = '−')
      (short : hours < 24) (exact : minutes < 60) :
      ShowsZone (sign :: fixedDigits 2 hours ++ ':' :: fixedDigits 2 minutes)

/-- The ways of writing a date as a hearing date. -/
inductive Writes (date : Date) : List Char → Prop
  | withOffset {year : Int} {shown time zone : List Char} {separator : Char}
      (shows : Shows year date shown) (bare : 0 ≤ year ∧ year ≤ 9999)
      (separated : separator = 'T' ∨ separator = 't' ∨ separator = ' ') (timed : ShowsTime time)
      (zoned : ShowsZone zone) : Writes date (shown ++ separator :: (time ++ zone))
  | withTime {year : Int} {shown time : List Char} (shows : Shows year date shown)
      (timed : ShowsTime time) : Writes date (shown ++ 'T' :: time)
  | alone {year : Int} {shown : List Char} (shows : Shows year date shown) : Writes date shown

variable {date : Date} {year : Int} {shown time zone rest text : List Char}

theorem shows_chars (date : Date) : Shows date.year date date.chars :=
  .intro (calendar_of_date date)

theorem noGap_still (text : List Char) : Takes noGap text () text := takes_pure () text

/-- A shown date is read, and what stands behind it is left. -/
theorem takes_shown (shows : Shows year date shown) (rest : List Char) :
    Takes (Date.scan noGap) (shown ++ rest) date rest := by
  obtain ⟨named⟩ := shows
  exact takes_calendar (fun text => noGap_still _) named rest

/-- A shown time is read by every reader of two digits, whatever ends it. -/
theorem takes_shownTime {field : Scan Nat}
    (reads : ∀ n text, n < 100 → Takes field (fixedDigits 2 n ++ text) n text)
    (timed : ShowsTime time) (noDigit : NoneAhead Char.isDigit rest)
    (noPoint : NoneAhead (· == '.') rest) :
    ∃ read, Takes (TimeOfDay.scan field noGap) (time ++ rest) read rest := by
  obtain @⟨hour, minute, second, fraction, hours, minutes, seconds, fractional⟩ := timed
  obtain ⟨nano, below, places⟩ :
      ∃ nano < nanosPerSecond, Takes scanFraction (fraction ++ rest) nano rest := by
    cases fractional with
    | whole => exact ⟨0, by decide, takes_no_point noPoint⟩
    | places isRun => exact ⟨_, nanosOfFraction_lt isRun, takes_point isRun noDigit⟩
  obtain ⟨read, shown⟩ : ∃ read, TimeOfDay.ofClock? hour minute second nano = some read := by
    rw [TimeOfDay.ofClock?, dif_pos ⟨hours, minutes, seconds, below⟩]
    split
    · exact ⟨_, rfl⟩
    · exact ⟨_, rfl⟩
  refine ⟨read, ?_⟩
  rw [List.append_assoc]
  exact takes_clock reads (fun text => noGap_still _) shown places

theorem takes_exact (n : Nat) (text : List Char) (small : n < 100) :
    Takes (Scan.exactDigits 2) (fixedDigits 2 n ++ text) n text :=
  takes_exactDigits small text

/-- The part of the layout with an offset that comes after the date. -/
def scanAfterDate (date : Date) : Scan Date := do
  scanSeparator
  let _ ← TimeOfDay.scan (Scan.exactDigits 2) noGap
  let _ ← Scan.orElse scanZulu (scanOffset (Scan.mark ':'))
  return date

/-- With a year of four digits, the layout with an offset takes the date and goes on behind it. -/
theorem scanOffsetTimestamp_bare (shows : Shows year date shown) (bare : 0 ≤ year ∧ year ≤ 9999)
    (rest : List Char) : scanOffsetTimestamp (shown ++ rest) = scanAfterDate date rest := by
  obtain @⟨month, day, named⟩ := shows
  obtain ⟨shortMonth, shortDay⟩ := two_digits_of_named named
  have small : year.toNat < Nat.pow 10 4 := by
    change year.toNat < 10000
    omega
  have readYear (text : List Char) :
      Takes (Scan.exactDigits 4) (fixedDigits 4 year.toNat ++ text) year.toNat text :=
    takes_exactDigits small text
  have found : Takes (scanCalendar (year.toNat : Int) month day) rest date rest := by
    rw [Int.toNat_of_nonneg bare.1, scanCalendar, named]
    exact takes_pure date rest
  simp only [yearText, if_pos bare, List.append_assoc, List.cons_append]
  unfold scanOffsetTimestamp
  rw [bind_of_takes (readYear _), bind_of_takes (takes_mark '-' _),
    bind_of_takes (takes_exact month _ shortMonth), bind_of_takes (takes_mark '-' _),
    bind_of_takes (takes_exact day _ shortDay), bind_of_takes found]
  rfl

/-- Other years start with a sign, at which the layout with an offset stops. -/
theorem scanOffsetTimestamp_signed (shows : Shows year date shown)
    (signed : ¬ (0 ≤ year ∧ year ≤ 9999)) (rest : List Char) :
    scanOffsetTimestamp (shown ++ rest) = none := by
  obtain ⟨named⟩ := shows
  refine refuses_bind (exactDigits_refuses ?_)
  simp only [yearText, if_neg signed, List.cons_append]
  split
  · exact noneAhead_cons rfl _
  · exact noneAhead_cons rfl _

theorem inked_shown (shows : Shows year date shown) : Inked shown := by
  obtain @⟨month, day, _⟩ := shows
  have ends := inked_of_digits (digitRun_fixedDigits 1 day)
  unfold yearText
  split
  · have starts := inked_of_digits (digitRun_fixedDigits 3 year.toNat)
    have around := starts.around ends ('-' :: fixedDigits 2 month ++ ['-'])
    simpa only [List.append_assoc, List.cons_append, List.nil_append] using around
  · have sign : isBlank (if year < 0 then '-' else '+') = false := by
      split <;> rfl
    have around := (inked_singleton sign).around ends
      (paddedDigits 4 year.natAbs ++ '-' :: fixedDigits 2 month ++ ['-'])
    simpa only [List.append_assoc, List.cons_append, List.nil_append] using around

theorem inked_time (timed : ShowsTime time) : Inked time := by
  obtain @⟨hour, minute, second, _, _, _, _, fractional⟩ := timed
  have starts := inked_of_digits (digitRun_fixedDigits 1 hour)
  cases fractional with
  | whole =>
    have around := starts.around (inked_of_digits (digitRun_fixedDigits 1 second))
      (':' :: fixedDigits 2 minute ++ [':'])
    simpa only [List.append_assoc, List.cons_append, List.nil_append, List.append_nil] using around
  | places isRun =>
    have around := starts.around (inked_of_digits isRun)
      (':' :: fixedDigits 2 minute ++ ':' :: fixedDigits 2 second ++ ['.'])
    simpa only [List.append_assoc, List.cons_append, List.nil_append] using around

theorem inked_zone (zoned : ShowsZone zone) :
    Inked zone ∧ NoneAhead Char.isDigit zone ∧ NoneAhead (· == '.') zone := by
  cases zoned with
  | zulu either =>
    rcases either with rfl | rfl
    · exact ⟨inked_singleton rfl, noneAhead_cons rfl [], noneAhead_cons rfl []⟩
    · exact ⟨inked_singleton rfl, noneAhead_cons rfl [], noneAhead_cons rfl []⟩
  | @offset sign hours minutes signed =>
    have ink : isBlank sign = false ∧ sign.isDigit = false ∧ (sign == '.') = false := by
      rcases signed with rfl | rfl | rfl <;> decide
    have around := (inked_singleton ink.1).around
      (inked_of_digits (digitRun_fixedDigits 1 minutes)) (fixedDigits 2 hours ++ [':'])
    simp only [List.append_assoc, List.cons_append, List.nil_append] at around
    exact ⟨around, noneAhead_cons ink.2.1 _, @noneAhead_cons sign (· == '.') ink.2.2 _⟩

theorem inked_of_writes (writes : Writes date text) : Inked text := by
  cases writes with
  | @withOffset _ _ time _ separator shows _ _ _ zoned =>
    exact (inked_shown shows).around (inked_zone zoned).1 (separator :: time)
  | withTime shows timed => exact (inked_shown shows).around (inked_time timed) ['T']
  | alone shows => exact inked_shown shows

/-- Every zone is read to its end; what it says is not used. -/
theorem takes_shownZone (zoned : ShowsZone zone) :
    ∃ ahead, Takes (Scan.orElse scanZulu (scanOffset (Scan.mark ':'))) zone ahead [] := by
  cases zoned with
  | zulu either =>
    refine ⟨0, takes_orElse_first (takes_bind (takes_one ?_) (takes_pure 0 []))⟩
    rcases either with rfl | rfl <;> decide
  | @offset sign hours minutes signed short exact =>
    have noLetter (text : List Char) : scanZulu (sign :: text) = none := by
      rcases signed with rfl | rfl | rfl <;> exact refuses_bind (one_refuses (noneAhead_cons rfl text))
    have isSign : (sign == '+' || sign == '-' || sign == '−') = true := by
      rcases signed with rfl | rfl | rfl <;> decide
    have allowed : (hours < 24 && minutes < 60) = true := by simp [short, exact]
    have last := takes_exact minutes [] (by omega)
    rw [List.append_nil] at last
    refine ⟨if sign == '+' then (hours * 60 + minutes : Int) else -(hours * 60 + minutes), ?_⟩
    refine takes_orElse_second (noLetter _) (takes_bind (takes_one isSign) ?_)
    refine takes_bind (takes_exact hours _ (by omega)) (takes_bind (takes_mark ':' _) ?_)
    exact takes_bind last (takes_bind (takes_require allowed []) (takes_pure _ []))

theorem takes_withOffset {separator : Char} (shows : Shows year date shown)
    (bare : 0 ≤ year ∧ year ≤ 9999)
    (separated : separator = 'T' ∨ separator = 't' ∨ separator = ' ') (timed : ShowsTime time)
    (zoned : ShowsZone zone) :
    Takes scanOffsetTimestamp (shown ++ separator :: (time ++ zone)) date [] := by
  obtain ⟨_, noDigit, noPoint⟩ := inked_zone zoned
  obtain ⟨read, readTime⟩ := takes_shownTime takes_exact timed noDigit noPoint
  obtain ⟨ahead, readZone⟩ := takes_shownZone zoned
  have isSeparator : (fun c => c == 'T' || c == 't' || c == ' ') separator = true := by
    rcases separated with rfl | rfl | rfl <;> decide
  rw [Takes, scanOffsetTimestamp_bare shows bare]
  refine takes_bind (takes_bind (takes_one isSeparator) (takes_pure () _)) ?_
  exact takes_bind readTime (takes_bind readZone (takes_pure date []))

/-- Without a zone there is nothing for the layout with an offset to end with. -/
theorem scanOffsetTimestamp_unzoned (shows : Shows year date shown) (timed : ShowsTime time) :
    scanOffsetTimestamp (shown ++ 'T' :: time) = none := by
  by_cases bare : 0 ≤ year ∧ year ≤ 9999
  · obtain ⟨read, readTime⟩ :=
      takes_shownTime takes_exact timed (noneAhead_nil _) (noneAhead_nil _)
    rw [List.append_nil] at readTime
    have separated : Takes scanSeparator ('T' :: time) () time :=
      takes_bind (takes_one (by decide)) (takes_pure () time)
    have noZone : Scan.orElse scanZulu (scanOffset (Scan.mark ':')) [] = none := rfl
    rw [scanOffsetTimestamp_bare shows bare, scanAfterDate, bind_of_takes separated,
      bind_of_takes readTime]
    exact refuses_bind noZone
  · exact scanOffsetTimestamp_signed shows bare _

/-- Without a time there is nothing for either layout with a time to go on with. -/
theorem timestamps_refuse_alone (shows : Shows year date shown) :
    scanOffsetTimestamp shown = none ∧ scanPlainTimestamp shown = none := by
  have left := List.append_nil shown
  constructor
  · by_cases bare : 0 ≤ year ∧ year ≤ 9999
    · rw [← left, scanOffsetTimestamp_bare shows bare]
      rfl
    · rw [← left]
      exact scanOffsetTimestamp_signed shows bare []
  · have read := takes_shown shows []
    rw [left] at read
    rw [scanPlainTimestamp, bind_of_takes read]
    rfl

theorem takes_withTime (shows : Shows year date shown) (timed : ShowsTime time)
    (noDigit : NoneAhead Char.isDigit rest) (noPoint : NoneAhead (· == '.') rest) :
    Takes scanPlainTimestamp (shown ++ 'T' :: (time ++ rest)) date rest := by
  obtain ⟨read, readTime⟩ := takes_shownTime takes_two_digits timed noDigit noPoint
  refine takes_bind (takes_shown shows _) (takes_bind (takes_mark 'T' _) ?_)
  exact takes_bind readTime (takes_pure date rest)

/-- The first layout that takes a whole text is the one that it was written in. -/
theorem hearingDate_of_writes (writes : Writes date text) :
    hearingDateOfTrimmed? text = some date := by
  unfold hearingDateOfTrimmed?
  cases writes with
  | withOffset shows bare separated timed zoned =>
    rw [whole?_of_takes (takes_withOffset shows bare separated timed zoned)]
    rfl
  | withTime shows timed =>
    have read := takes_withTime shows timed (noneAhead_nil _) (noneAhead_nil _)
    rw [List.append_nil] at read
    rw [whole?_of_refuses (scanOffsetTimestamp_unzoned shows timed), whole?_of_takes read]
    rfl
  | alone shows =>
    obtain ⟨noOffset, noTime⟩ := timestamps_refuse_alone shows
    have read := takes_shown shows []
    rw [List.append_nil] at read
    rw [whole?_of_refuses noOffset, whole?_of_refuses noTime]
    exact whole?_of_takes read

theorem hearingDateOfText_padded {before after : List Char} (inked : Inked text)
    (blankBefore : ∀ c ∈ before, isBlank c = true) (blankAfter : ∀ c ∈ after, isBlank c = true)
    (read : hearingDateOfTrimmed? text = some date) :
    hearingDateOfText (String.ofList (before ++ text ++ after)) = .ok date := by
  rw [hearingDateOfText, String.toList_ofList, trimBlanks_padded inked blankBefore blankAfter, read]

/-- The last second of a day is a time that can be shown. -/
theorem shows_lastSecond :
    ShowsTime (TimeOfDay.lastSecond.clockChars ++ '.' :: fixedDigits 3 0) :=
  .intro (by decide) (by decide) (by decide) (.places (digitRun_fixedDigits 2 0))

/-- The end of a day, in the parts that a reader takes it apart into. -/
theorem toList_endOfDayText (date : Date) : (endOfDayText date).toList =
    date.chars ++ 'T' :: (TimeOfDay.lastSecond.clockChars ++ '.' :: fixedDigits 3 0 ++ ['Z']) := by
  rw [endOfDayText, String.toList_ofList]
  simp only [List.append_assoc, List.cons_append]

theorem hearingDate_of_endOfDayText (bare : 0 ≤ date.year ∧ date.year ≤ 9999) :
    hearingDateOfText (endOfDayText date) = .ok date := by
  have writes : Writes date (endOfDayText date).toList := by
    rw [toList_endOfDayText]
    exact .withOffset (shows_chars date) bare (.inl rfl) shows_lastSecond (.zulu (.inl rfl))
  have read := hearingDateOfText_padded (inked_of_writes writes) (List.forall_mem_nil _)
    (List.forall_mem_nil _) (hearingDate_of_writes writes)
  rwa [List.nil_append, List.append_nil, String.ofList_toList] at read

/-- A year with a sign refuses the offset, and the layouts without one leave it over. -/
theorem endOfDayText_unreadable (signed : ¬ (0 ≤ date.year ∧ date.year ≤ 9999)) :
    hearingDateOfText (endOfDayText date) =
      .error (.invalidHearingDate (endOfDayText date)) := by
  have shows := shows_chars date
  have inked : Inked (endOfDayText date).toList := by
    rw [toList_endOfDayText]
    exact (inked_shown shows).around (inked_singleton rfl) ('T' :: _)
  have unread : hearingDateOfTrimmed? (endOfDayText date).toList = none := by
    rw [toList_endOfDayText, hearingDateOfTrimmed?,
      whole?_of_refuses (scanOffsetTimestamp_signed shows signed _),
      whole?_of_leftover (takes_withTime shows shows_lastSecond (noneAhead_cons rfl [])
        (noneAhead_cons rfl [])),
      scanPlainDate, whole?_of_leftover (takes_shown shows _)]
    rfl
  rw [hearingDateOfText, trimBlanks_inked inked, unread]

/-- However a date is written, with any time of day, any offset and any blanks around it, it is the
hearing date that is read. The end of a day is read as the day where its year stands bare, and is
refused with its own text where the year has a sign. -/
theorem hearing_dates_stay_as_written :
    (∀ date, Shows date.year date date.chars) ∧
      (∀ date text before after, Writes date text → (∀ c ∈ before, isBlank c = true) →
        (∀ c ∈ after, isBlank c = true) →
          hearingDateOfText (String.ofList (before ++ text ++ after)) = .ok date) ∧
      (∀ date : Date, 0 ≤ date.year ∧ date.year ≤ 9999 →
        hearingDateOfText (endOfDayText date) = .ok date) ∧
      ∀ date : Date, ¬ (0 ≤ date.year ∧ date.year ≤ 9999) →
        hearingDateOfText (endOfDayText date) =
          .error (.invalidHearingDate (endOfDayText date)) := by
  refine ⟨shows_chars, ?_, fun date bare => hearingDate_of_endOfDayText bare,
    fun date signed => endOfDayText_unreadable signed⟩
  intro date text before after writes blankBefore blankAfter
  exact hearingDateOfText_padded (inked_of_writes writes) blankBefore blankAfter
    (hearingDate_of_writes writes)

/-- 31 December 2016, which ended with a leap second. -/
def leapDay : Date := (Date.ofCalendar? 2016 12 31).get (by decide)

/-- A moment in that leap second by a clock that is almost a day behind universal time. -/
def leapMoment : List Char := "2016-12-31 23:59:60.1234567890−23:59".toList

/-- The leap second is read as its day, with blanks around it and by whatever clock. The end of the
first representable day cannot be read. -/
theorem leap_second_stays_on_its_day :
    Writes leapDay leapMoment ∧
      hearingDateOfText (String.ofList ([' ', '\u2003'] ++ leapMoment ++ ['\n'])) = .ok leapDay ∧
      (0 ≤ leapDay.year ∧ leapDay.year ≤ 9999) ∧
      hearingDateOfText (endOfDayText leapDay) = .ok leapDay ∧
      ¬ (0 ≤ Date.first.year ∧ Date.first.year ≤ 9999) ∧
      hearingDateOfText (endOfDayText .first) =
        .error (.invalidHearingDate (endOfDayText .first)) := by
  have named : Date.ofCalendar? 2016 12 31 = some leapDay := by decide
  have fraction : ShowsFraction ('.' :: "1234567890".toList) :=
    .places ⟨by decide, List.all_eq_true.mp (by decide)⟩
  have timed := @ShowsTime.intro 23 59 60 _ (by decide) (by decide) (by decide) fraction
  have zoned := @ShowsZone.offset '−' 23 59 (.inr (.inr rfl)) (by decide) (by decide)
  have writes : Writes leapDay leapMoment :=
    .withOffset (.intro named) (by decide) (.inr (.inr rfl)) timed zoned
  have bare : 0 ≤ leapDay.year ∧ leapDay.year ≤ 9999 := by decide
  have signed : ¬ (0 ≤ Date.first.year ∧ Date.first.year ≤ 9999) := by decide
  obtain ⟨_, written, ended, refused⟩ := hearing_dates_stay_as_written
  exact ⟨writes, written leapDay leapMoment _ _ writes (List.all_eq_true.mp (by decide))
    (List.all_eq_true.mp (by decide)), bare, ended leapDay bare, signed, refused .first signed⟩

end Docket.HearingDateSpelling
