import Docket.Proofs.DateSpelling
import Docket.Time.InstantText

/-! An instant is read again from its spelling, leap seconds and every fraction of a second
included. The fraction digits left out are zeros, and a reader puts them back. -/
namespace Docket.InstantSpelling
open Docket.DateSpelling Docket.Scanning Docket.Text Docket.Time

variable {rest : List Char}

/-- A point and any number of digits are read as places of a second. -/
theorem takes_point {run : List Char} (isRun : DigitRun run) (ends : NoneAhead Char.isDigit rest) :
    Takes scanFraction ('.' :: (run ++ rest)) (nanosOfFraction run) rest :=
  takes_bind (takes_digits isRun ends) (takes_pure (nanosOfFraction run) rest)

theorem takes_no_point (noPoint : NoneAhead (· == '.') rest) : Takes scanFraction rest 0 rest := by
  simp only [Takes, scanFraction]
  split
  · exact absurd (noPoint '.' rfl) (by decide)
  · rfl

/-- The places of a second come to less than a second. -/
theorem nanosOfFraction_lt {run : List Char} (isRun : DigitRun run) :
    nanosOfFraction run < nanosPerSecond := by
  have kept : (run.take 9).length ≤ 9 := List.length_take_le 9 run
  have value : ofDigits (run.take 9) < Nat.pow 10 (run.take 9).length :=
    ofDigits_lt fun c member => isRun.digits c (List.mem_of_mem_take member)
  have second : nanosPerSecond = Nat.pow 10 (run.take 9).length *
      Nat.pow 10 (9 - (run.take 9).length) := by
    change Nat.pow 10 9 = 10 ^ (run.take 9).length * 10 ^ (9 - (run.take 9).length)
    rw [← Nat.pow_add, Nat.add_sub_cancel' kept]
  rw [second]
  exact Nat.mul_lt_mul_of_pos_right value (Nat.pow_pos (by decide))

/-- A point and some digits are read as that many places of a second. -/
theorem takes_places {width : Nat} (short : width < 9) (n : Nat)
    (ends : NoneAhead Char.isDigit rest) :
    Takes scanFraction ('.' :: (fixedDigits (width + 1) n ++ rest))
      (n % Nat.pow 10 (width + 1) * Nat.pow 10 (8 - width)) rest := by
  have kept : (fixedDigits (width + 1) n).take 9 = fixedDigits (width + 1) n :=
    List.take_of_length_le (by rw [length_fixedDigits]; exact short)
  have places : 9 - (width + 1) = 8 - width := by omega
  have value : nanosOfFraction (fixedDigits (width + 1) n) =
      n % Nat.pow 10 (width + 1) * Nat.pow 10 (8 - width) := by
    simp only [nanosOfFraction, kept, length_fixedDigits, ofDigits_fixedDigits, places]
  rw [← value]
  exact takes_point (digitRun_fixedDigits width n) ends

/-- The fraction of a second is read back, with its point and without. -/
theorem takes_fraction {nanos : Nat} (below : nanos < nanosPerSecond)
    (noDigit : NoneAhead Char.isDigit rest) (noPoint : NoneAhead (· == '.') rest) :
    Takes scanFraction (fractionChars nanos ++ rest) nanos rest := by
  unfold nanosPerSecond at below
  unfold fractionChars
  split
  · rename_i whole
    subst whole
    exact takes_no_point noPoint
  · split
    · have read := takes_places (show 2 < 9 by decide) (nanos / 1000000) noDigit
      have value : nanos / 1000000 % Nat.pow 10 3 * Nat.pow 10 (8 - 2) = nanos := by
        norm_num
        omega
      rw [value] at read
      exact read
    · split
      · have read := takes_places (show 5 < 9 by decide) (nanos / 1000) noDigit
        have value : nanos / 1000 % Nat.pow 10 6 * Nat.pow 10 (8 - 5) = nanos := by
          norm_num
          omega
        rw [value] at read
        exact read
      · have read := takes_places (show 8 < 9 by decide) nanos noDigit
        have value : nanos % Nat.pow 10 9 * Nat.pow 10 (8 - 8) = nanos := by
          norm_num
          omega
        rw [value] at read
        exact read

/-- A time of day is read from the numbers of a clock by every reader of two digits that lets the
colons stand, however its fraction is written. -/
theorem takes_clock {field : Scan Nat} {gap : Scan Unit} {fraction : List Char}
    {hour minute second nano : Nat} {time : TimeOfDay}
    (reads : ∀ n text, n < 100 → Takes field (fixedDigits 2 n ++ text) n text)
    (still : ∀ text, Takes gap (':' :: text) () (':' :: text))
    (shown : TimeOfDay.ofClock? hour minute second nano = some time)
    (places : Takes scanFraction (fraction ++ rest) nano rest) :
    Takes (TimeOfDay.scan field gap)
      (fixedDigits 2 hour ++ ':' :: fixedDigits 2 minute ++ ':' :: fixedDigits 2 second ++
        (fraction ++ rest)) time rest := by
  have bounds : hour < 24 ∧ minute < 60 ∧ second ≤ 60 := by
    unfold TimeOfDay.ofClock? at shown
    split at shown
    · rename_i fits
      exact ⟨fits.1, fits.2.1, fits.2.2.1⟩
    · cases shown
  simp only [List.append_assoc, List.cons_append]
  refine takes_bind (reads hour _ (by omega)) (takes_bind (still _) (takes_bind (takes_mark ':' _) ?_))
  refine takes_bind (reads minute _ (by omega)) ?_
  refine takes_bind (still _) (takes_bind (takes_mark ':' _) ?_)
  refine takes_bind (reads second _ (by omega)) (takes_bind places ?_)
  rw [scanClock, shown]
  exact takes_pure time rest

/-- A time of day is read back from what its own clock shows. -/
theorem takes_time {field : Scan Nat} {gap : Scan Unit} {fraction : List Char}
    (reads : ∀ n text, n < 100 → Takes field (fixedDigits 2 n ++ text) n text)
    (still : ∀ text, Takes gap (':' :: text) () (':' :: text)) (time : TimeOfDay)
    (places : Takes scanFraction (fraction ++ rest) time.fraction rest) :
    Takes (TimeOfDay.scan field gap) (time.clockChars ++ (fraction ++ rest)) time rest :=
  takes_clock reads still (TimeOfDay.ofClock?_self time) places

/-- Two digits, with blanks in front allowed, are read as the number that they spell. -/
theorem takes_two_digits (n : Nat) (text : List Char) (small : n < 100) :
    Takes (Scan.number 2) (fixedDigits 2 n ++ text) n text := by
  have read := takes_number 1 n text
  rwa [show n % Nat.pow 10 2 = n from Nat.mod_eq_of_lt small] at read

theorem takes_zulu (rest : List Char) : Takes scanZone ('Z' :: rest) 0 rest := by
  refine takes_orElse_second ?_ (takes_orElse_first ?_)
  · exact refuses_bind (one_refuses (noneAhead_cons rfl rest))
  · exact takes_bind (takes_one (by decide)) (takes_pure 0 rest)

/-- A clock that shows universal time shows the instant itself. -/
theorem behind?_zero (instant : Instant) : instant.behind? 0 = some instant := by
  have inDay := instant.time.second_lt
  unfold secondsPerDay at inDay
  have noDays : ((instant.time.second : Int) - 0 * 60) / 86400 = 0 := by omega
  have sameDay : instant.date.plusDays? 0 = some instant.date :=
    Date.plusDays?_eq_some.mpr (Int.add_zero _).symm
  simp only [Instant.behind?, noDays, sameDay, Option.some.injEq]
  obtain ⟨date, time⟩ := instant
  simp only [Instant.mk.injEq, true_and]
  exact TimeOfDay.ext_parts (by simp only at inDay ⊢; omega) rfl

/-- An instant is read back from its date and the clock, however its fraction is written. -/
theorem ofText?_fraction (date : Date) (time : TimeOfDay) {fraction : List Char}
    (places : Takes scanFraction (fraction ++ ['Z']) time.fraction ['Z']) :
    Instant.ofText? (String.ofList (date.chars ++ 'T' :: time.clockChars ++ fraction ++ ['Z'])) =
      some ⟨date, time⟩ := by
  rw [Instant.ofText?, String.toList_ofList]
  simp only [List.append_assoc, List.cons_append]
  refine whole?_of_takes (takes_bind (takes_date (takes_no_blanks rfl) _ _) ?_)
  refine takes_bind (takes_bind (takes_one (by decide)) (takes_pure () _)) ?_
  refine takes_bind (takes_time takes_two_digits (takes_no_blanks rfl) time places) ?_
  refine takes_bind (takes_no_blanks rfl []) (takes_bind (takes_zulu []) ?_)
  refine takes_bind (takes_blanks (noneAhead_nil isBlank)) ?_
  rw [scanBehind, behind?_zero]
  exact takes_pure _ []

/-- An instant is read back from its spelling. -/
theorem ofText?_text (instant : Instant) : Instant.ofText? instant.text = some instant :=
  ofText?_fraction instant.date instant.time (takes_fraction (Nat.mod_lt _ (by decide))
    (noneAhead_cons rfl []) (noneAhead_cons rfl []))

end Docket.InstantSpelling
