import Docket.Proofs.DueDateObstacle

/-! The evaluation of a rule reports the first of the obstacles that stand, and where none stands
it comes to the date that the rule means. The question for holidays is asked where the first
four do not stand and there is something to count. -/
namespace Docket.DueDateOutcome
open Docket.Calendar Docket.DueDateObstacle Docket.Text Docket.Time Docket.WorkingDayCount

variable {settings : Settings} {lookup : Lookup} {occasion : Occasion} {rule : String}
  {direction : Direction} {base due : Date} {query : Query} {error : DueDateError} {rank : Nat}

theorem count_outside {days : UInt32} (outside : ∀ query, ¬ Covers settings base direction query) :
    settings.countWorkingDays lookup direction base days =
      { result := .error (.reckoning (.outOfRange base)) } := by
  rw [Settings.countWorkingDays, query_error outside]

theorem count_refused {days : UInt32} {refusal : LookupError}
    (covered : Covers settings base direction query) (refused : lookup query = .error refusal) :
    (settings.countWorkingDays lookup direction base days).result = .error (.lookup refusal) ∧
      (settings.countWorkingDays lookup direction base days).queries = [query] := by
  simp only [Settings.countWorkingDays, query_ok_iff.mpr covered, refused, and_self]

theorem count_answered {days : UInt32} {holidays : List PublicHoliday}
    (covered : Covers settings base direction query) (answered : lookup query = .ok holidays) :
    (settings.countWorkingDays lookup direction base days).result =
        (Calendar.countWorkingDays direction (.ofHolidays holidays) days.toNat base).mapError
          .reckoning ∧
      (settings.countWorkingDays lookup direction base days).queries = [query] := by
  simp only [Settings.countWorkingDays, query_ok_iff.mpr covered, answered]
  cases Calendar.countWorkingDays direction (.ofHolidays holidays) days.toNat base with
  | ok result => exact ⟨rfl, rfl⟩
  | error error => exact ⟨rfl, rfl⟩

theorem queries_of_count {days : UInt32} (covered : Covers settings base direction query) :
    (settings.countWorkingDays lookup direction base days).queries = [query] := by
  cases answered : lookup query with
  | ok holidays => exact (count_answered covered answered).2
  | error refusal => exact (count_refused covered answered).2

theorem dueDate_without_base
    (failed : (Base.ofText rule).dateOf rule occasion = .error error) :
    settings.dueDate lookup occasion rule = { result := .error error } := by
  rw [Settings.dueDate, failed]

theorem dueDate_unsigned (based : CountsFrom occasion rule base)
    (unsigned : ∀ direction, ¬ CountsIn rule direction) :
    (settings.dueDate lookup occasion rule).result = .ok base ∧
      (settings.dueDate lookup occasion rule).queries = [] := by
  have parsed : Rule.ofText rule = .ok ⟨rule, .ofText rule, .none⟩ := by
    rw [Rule.ofText, offset_unsigned unsigned]
    rfl
  simp only [Settings.dueDate, dateOf_ok_iff.mpr based, parsed, Offset.move, and_self]

theorem dueDate_too_large {digits : List Char} (based : CountsFrom occasion rule base)
    (signed : CountsIn rule direction) (spelled : SpellsCount rule digits)
    (large : 2 ^ 32 ≤ ofDigits digits) :
    settings.dueDate lookup occasion rule =
      { result := .error (.reckoning (.offsetTooLarge (String.ofList digits))) } := by
  have failed : Rule.ofText rule = .error (.offsetTooLarge (String.ofList digits)) := by
    rw [Rule.ofText, offset_signed signed spelled, daysOfDigits_large large]
    rfl
  rw [Settings.dueDate, dateOf_ok_iff.mpr based, failed]

/-- Where the base is found and the count can be read, all that is left is to count. -/
theorem dueDate_counted {digits : List Char} (based : CountsFrom occasion rule base)
    (signed : CountsIn rule direction) (spelled : SpellsCount rule digits)
    (fits : ofDigits digits < 2 ^ 32) :
    ∃ days : UInt32, days.toNat = ofDigits digits ∧
      (settings.dueDate lookup occasion rule).result =
        (settings.countWorkingDays lookup direction base days).result.mapError .calendar ∧
      (settings.dueDate lookup occasion rule).queries =
        (settings.countWorkingDays lookup direction base days).queries := by
  obtain ⟨days, read, same⟩ := daysOfDigits_fits fits
  have parsed : Rule.ofText rule = .ok ⟨rule, .ofText rule, signedOffset direction days⟩ := by
    rw [Rule.ofText, offset_signed signed spelled, read]
    rfl
  have moved : (signedOffset direction days).move settings lookup base =
      settings.countWorkingDays lookup direction base days := by
    cases direction <;> rfl
  refine ⟨days, same, ?_⟩
  simp only [Settings.dueDate, dateOf_ok_iff.mpr based, parsed, moved]
  cases (settings.countWorkingDays lookup direction base days).result with
  | ok result => exact ⟨rfl, rfl⟩
  | error error => exact ⟨rfl, rfl⟩

/-- Where the first three obstacles do not stand and there is a sign, all that is left is to count
the days that the rule spells. -/
theorem counted_of_clear (clear : ClearBelow settings lookup occasion rule 4)
    (signed : CountsIn rule direction) (based : CountsFrom occasion rule base) :
    ∃ days : UInt32, (∀ digits, SpellsCount rule digits → days.toNat = ofDigits digits) ∧
      (settings.dueDate lookup occasion rule).result =
        (settings.countWorkingDays lookup direction base days).result.mapError .calendar ∧
      (settings.dueDate lookup occasion rule).queries =
        (settings.countWorkingDays lookup direction base days).queries := by
  have spelled : SpellsCount rule (firstDigits (rule.toList.filter isMeaningful)) :=
    firstRun_iff.mpr rfl
  obtain ⟨days, same, counted⟩ :=
    dueDate_counted based signed spelled (fits_of_clear clear signed spelled)
  refine ⟨days, fun digits other => ?_, counted⟩
  rw [same, firstRun_iff.mp other]

/-- An obstacle is reported where none stands before it, and the first four spare the question for
holidays. -/
theorem first_is_reported (obstacle : Obstacle settings lookup occasion rule rank error)
    (clear : ClearBelow settings lookup occasion rule rank) :
    (settings.dueDate lookup occasion rule).result = .error error ∧
      (rank < 5 → (settings.dueDate lookup occasion rule).queries = []) := by
  by_cases early : rank < 3
  · rw [dueDate_without_base (dateOf_error obstacle early)]
    exact ⟨rfl, fun _ => rfl⟩
  · have found := base_of_clear (clear.mono (Nat.le_of_not_lt early))
    cases obstacle with
    | hearingDateMissing | hearingDateUnreadable => omega
    | countTooLarge signed spelled large =>
      obtain ⟨base, based⟩ := found
      rw [dueDate_too_large based signed spelled large]
      exact ⟨rfl, fun _ => rfl⟩
    | windowOutOfRange signed based outside =>
      obtain ⟨days, _, result, queries⟩ := counted_of_clear clear signed based
      rw [result, queries, count_outside outside]
      exact ⟨rfl, fun _ => rfl⟩
    | lookupFails signed based covered refused =>
      obtain ⟨days, _, result, _⟩ := counted_of_clear (clear.mono (by omega)) signed based
      rw [result, (count_refused covered refused).1]
      exact ⟨rfl, fun late => absurd late (by omega)⟩
    | tooFewDays signed based covered answered spelled few =>
      obtain ⟨days, same, result, _⟩ := counted_of_clear (clear.mono (by omega)) signed based
      rw [openDays_eq, ← same _ spelled] at few
      obtain ⟨error, failed⟩ := count_error_iff.mpr few
      rw [result, (count_answered covered answered).1, failed, (count_fails failed).1]
      exact ⟨rfl, fun late => absurd late (by omega)⟩

/-- Where no obstacle stands, the evaluation comes to a date that the rule means. -/
theorem clear_comes_to_meaning (clear : Clear settings lookup occasion rule) :
    ∃ due, Means settings lookup occasion rule due ∧
      (settings.dueDate lookup occasion rule).result = .ok due := by
  obtain ⟨base, based⟩ := base_of_clear (clear 3)
  by_cases unsigned : ∀ direction, ¬ CountsIn rule direction
  · exact ⟨base, .base based unsigned, (dueDate_unsigned based unsigned).1⟩
  · obtain ⟨direction, signed⟩ := not_forall_not.mp unsigned
    obtain ⟨query, covered⟩ := covers_of_clear (clear 5) signed based
    have spelled : SpellsCount rule (firstDigits (rule.toList.filter isMeaningful)) :=
      firstRun_iff.mpr rfl
    obtain ⟨days, same, result, _⟩ := counted_of_clear (clear 4) signed based
    -- What else could fail now, the lookup or the count, would be an obstacle itself.
    cases answered : lookup query with
    | error refusal =>
      exact absurd (.lookupFails signed based covered answered) (clear 6 5 (by decide) _)
    | ok holidays =>
      rw [(count_answered covered answered).1, same _ spelled] at result
      cases counted : Calendar.countWorkingDays direction (.ofHolidays holidays)
          (ofDigits (firstDigits (rule.toList.filter isMeaningful))) base with
      | error error =>
        have few := (count_fails counted).2
        rw [← openDays_eq] at few
        exact absurd (.tooFewDays signed based covered answered spelled few)
          (clear 7 6 (by decide) _)
      | ok due =>
        rw [counted] at result
        have reached := count_ok_iff_reaches.mp counted
        exact ⟨due, .counted signed based covered answered spelled reached, result⟩

theorem dueDate_error_iff : (settings.dueDate lookup occasion rule).result = .error error ↔
    FirstObstacle settings lookup occasion rule error := by
  constructor
  · intro failed
    rcases first_or_clear settings lookup occasion rule with clear | ⟨other, rank, stands, below⟩
    · obtain ⟨due, _, result⟩ := clear_comes_to_meaning clear
      cases failed.symm.trans result
    · have reported := (first_is_reported stands below).1
      cases failed.symm.trans reported
      exact ⟨rank, stands, below⟩
  · rintro ⟨rank, stands, below⟩
    exact (first_is_reported stands below).1

theorem dueDate_ok_iff : (settings.dueDate lookup occasion rule).result = .ok due ↔
    Clear settings lookup occasion rule ∧ Means settings lookup occasion rule due := by
  constructor
  · intro succeeded
    rcases first_or_clear settings lookup occasion rule with clear | ⟨error, first⟩
    · obtain ⟨other, means, result⟩ := clear_comes_to_meaning clear
      cases succeeded.symm.trans result
      exact ⟨clear, means⟩
    · cases succeeded.symm.trans (dueDate_error_iff.mpr first)
  · rintro ⟨clear, means⟩
    obtain ⟨other, meant, result⟩ := clear_comes_to_meaning clear
    rw [result, means.unique meant]

theorem asked_or_spared (settings : Settings) (lookup : Lookup) (occasion : Occasion)
    (rule : String) :
    (∃ query, Asks settings lookup occasion rule query ∧
        (settings.dueDate lookup occasion rule).queries = [query]) ∨
      (∀ query, ¬ Asks settings lookup occasion rule query) ∧
        (settings.dueDate lookup occasion rule).queries = [] := by
  rcases clear_or_first settings lookup occasion rule 5 with
    clear | ⟨first, early, error, stands, below⟩
  · obtain ⟨base, based⟩ := base_of_clear (clear.mono (by omega))
    by_cases unsigned : ∀ direction, ¬ CountsIn rule direction
    · refine .inr ⟨?_, (dueDate_unsigned based unsigned).2⟩
      rintro query ⟨direction, _, signed, _⟩
      exact unsigned direction signed
    · obtain ⟨direction, signed⟩ := not_forall_not.mp unsigned
      obtain ⟨query, covered⟩ := covers_of_clear clear signed based
      obtain ⟨days, _, _, queries⟩ := counted_of_clear (clear.mono (by omega)) signed based
      rw [queries_of_count covered] at queries
      exact .inl ⟨query, ⟨direction, base, signed, based, covered, clear⟩, queries⟩
  · refine .inr ⟨?_, (first_is_reported stands below).2 early⟩
    rintro query ⟨_, _, _, _, _, clear⟩
    exact clear first early error stands

theorem queries_iff : (settings.dueDate lookup occasion rule).queries = [query] ↔
    Asks settings lookup occasion rule query := by
  rcases asked_or_spared settings lookup occasion rule with ⟨other, asks, queries⟩ | ⟨spared, none⟩
  · rw [queries]
    constructor
    · intro same
      cases same
      exact asks
    · intro again
      rw [asks.unique again]
  · rw [none]
    constructor
    · intro same
      cases same
    · intro asks
      exact absurd asks (spared query)

theorem no_queries_iff : (settings.dueDate lookup occasion rule).queries = [] ↔
    ∀ query, ¬ Asks settings lookup occasion rule query := by
  rcases asked_or_spared settings lookup occasion rule with ⟨other, asks, queries⟩ | ⟨spared, none⟩
  · rw [queries]
    constructor
    · intro none
      cases none
    · intro spared
      exact absurd asks (spared other)
  · exact ⟨fun _ => spared, fun _ => none⟩

section
variable {α β ε : Type} {result : Except ε α} {f : α → β}

theorem map_error_iff {error : ε} : result.map f = .error error ↔ result = .error error := by
  cases result <;> simp [Except.map]

theorem map_ok_iff {value : β} : result.map f = .ok value ↔ ∃ a, result = .ok a ∧ value = f a := by
  cases result <;> simp [Except.map, eq_comm]

end

/-- Both evaluations report the first obstacle that stands, of all those that do; where none
stands, they succeed at the end of the day that the rule means. The holidays of the window are
asked for once, where there is something to count and none of the first four obstacles stands, and
else not at all. -/
theorem due_dates_meet_first_obstacle (settings : Settings) (lookup : Lookup)
    (occasion : Occasion) (rule : String) :
    (∀ error, (settings.dueText lookup occasion rule).result = .error error ↔
      FirstObstacle settings lookup occasion rule error) ∧
    (∀ error, (settings.dueInstant lookup occasion rule).result = .error error ↔
      FirstObstacle settings lookup occasion rule error) ∧
    (∀ text, (settings.dueText lookup occasion rule).result = .ok text ↔
      Clear settings lookup occasion rule ∧
        ∃ due, Means settings lookup occasion rule due ∧ text = endOfDayText due) ∧
    (∀ instant, (settings.dueInstant lookup occasion rule).result = .ok instant ↔
      Clear settings lookup occasion rule ∧
        ∃ due, Means settings lookup occasion rule due ∧ instant = endOfDay due) ∧
    (∀ query, (settings.dueText lookup occasion rule).queries = [query] ↔
      Asks settings lookup occasion rule query) ∧
    ((settings.dueText lookup occasion rule).queries = [] ↔
      ∀ query, ¬ Asks settings lookup occasion rule query) ∧
    (settings.dueInstant lookup occasion rule).queries =
      (settings.dueText lookup occasion rule).queries := by
  refine ⟨fun error => ?_, fun error => ?_, fun text => ?_, fun instant => ?_,
    fun query => queries_iff, no_queries_iff, rfl⟩
  · rw [Settings.dueText, map_error_iff, dueDate_error_iff]
  · rw [Settings.dueInstant, map_error_iff, dueDate_error_iff]
  · simp only [Settings.dueText, map_ok_iff, dueDate_ok_iff, and_assoc, exists_and_left]
  · simp only [Settings.dueInstant, map_ok_iff, dueDate_ok_iff, and_assoc, exists_and_left]

-- The count is too large as well, but the missing hearing date is reported.
example : (Settings.standard.dueText (fun _ => .ok []) ⟨⟨.last, .midnight⟩, none⟩
    "hearingDate + 4294967296").result =
      .error (.hearingDateMissing "hearingDate + 4294967296") := by
  cbv

end Docket.DueDateOutcome
