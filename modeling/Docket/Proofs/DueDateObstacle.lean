import Docket.Calendar.DueDate
import Docket.Proofs.WorkingDayCount

/-! What can stand in the way of a due date is told here without evaluating the rule: six
obstacles, each by what it is about, several of which may stand at once. So is the date that a
rule means where none of them stands, and the question for holidays that it takes. Beside them
stand the facts that tie each of their parts to the function that finds it. -/
namespace Docket.DueDateObstacle
open Docket.Calendar Docket.Text Docket.Time Docket.WorkingDayCount

/-- The token of the hearing date stands somewhere in a rule. -/
def SpeaksOfHearing (rule : String) : Prop := "hearingDate".toList <:+: rule.toList

/-- The direction in which a rule counts, where a sign stands in it. A plus sign anywhere outweighs
every minus sign. -/
inductive CountsIn (rule : String) : Direction → Prop
  | forward (plus : '+' ∈ rule.toList) : CountsIn rule .forward
  | backward (minus : '-' ∈ rule.toList) (noPlus : '+' ∉ rule.toList) : CountsIn rule .backward

/-- The first run of digits in a text: no digit before it, and none right behind it. It is empty
only where the text has no digits. -/
def FirstRun (text digits : List Char) : Prop :=
  ∃ before behind, text = before ++ digits ++ behind ∧
    (∀ c ∈ before, c.isDigit = false) ∧ (∀ c ∈ digits, c.isDigit = true) ∧
    (∀ c ∈ behind.head?, c.isDigit = false) ∧ (digits = [] → behind = [])

/-- The digits that a rule spells its count with, once the characters between them that carry no
meaning are left out. -/
def SpellsCount (rule : String) (digits : List Char) : Prop :=
  FirstRun (rule.toList.filter isMeaningful) digits

/-- The day that a rule counts from. A hearing date it does not speak of plays no part. -/
inductive CountsFrom (occasion : Occasion) (rule : String) : Date → Prop
  | today (silent : ¬ SpeaksOfHearing rule) : CountsFrom occasion rule occasion.now.date
  | hearing {text : String} {date : Date} (spoken : SpeaksOfHearing rule)
      (given : occasion.hearingDate = some text) (readable : hearingDateOfText text = .ok date) :
      CountsFrom occasion rule date

/-- The question for the holidays in the window of a date. -/
inductive Covers (settings : Settings) (base : Date) : Direction → Query → Prop
  | forward {far : Date} (reached : far.day = base.day + settings.windowDays.toNat) :
      Covers settings base .forward ⟨settings.division, base, far⟩
  | backward {far : Date} (reached : far.day + settings.windowDays.toNat = base.day) :
      Covers settings base .backward ⟨settings.division, far, base⟩

/-- The days ahead of a date on which there is work: no weekend, and none of the holidays. -/
def openDays (direction : Direction) (holidays : List PublicHoliday) (start : Date) : Set Date :=
  {date | Ahead direction start date ∧ ¬ IsSaturday date ∧ ¬ IsSunday date ∧
    ∀ holiday ∈ holidays, holiday.date ≠ date}

/-- The date that counting off working days comes to: so many of them lie on the way to it, and it
is the last. -/
def Reaches (direction : Direction) (holidays : List PublicHoliday) (start : Date) (count : Nat)
    (finish : Date) : Prop :=
  count = 0 ∧ finish = start ∨
    0 < count ∧ finish ∈ openDays direction holidays start ∧
      {date ∈ openDays direction holidays start | ¬ Ahead direction finish date}.ncard = count

/-- What stands in the way of a due date, in the order in which it is reported. -/
inductive Obstacle (settings : Settings) (lookup : Lookup) (occasion : Occasion) (rule : String) :
    Nat → DueDateError → Prop
  | hearingDateMissing (spoken : SpeaksOfHearing rule) (absent : occasion.hearingDate = none) :
      Obstacle settings lookup occasion rule 1 (.hearingDateMissing rule)
  | hearingDateUnreadable {text : String} (spoken : SpeaksOfHearing rule)
      (given : occasion.hearingDate = some text)
      (unreadable : ∀ date, hearingDateOfText text ≠ .ok date) :
      Obstacle settings lookup occasion rule 2 (.reckoning (.invalidHearingDate text))
  | countTooLarge {direction : Direction} {digits : List Char} (signed : CountsIn rule direction)
      (spelled : SpellsCount rule digits) (large : 2 ^ 32 ≤ ofDigits digits) :
      Obstacle settings lookup occasion rule 3
        (.reckoning (.offsetTooLarge (String.ofList digits)))
  | windowOutOfRange {direction : Direction} {base : Date} (signed : CountsIn rule direction)
      (based : CountsFrom occasion rule base)
      (outside : ∀ query, ¬ Covers settings base direction query) :
      Obstacle settings lookup occasion rule 4 (.calendar (.reckoning (.outOfRange base)))
  | lookupFails {direction : Direction} {base : Date} {query : Query} {error : LookupError}
      (signed : CountsIn rule direction) (based : CountsFrom occasion rule base)
      (covered : Covers settings base direction query) (refused : lookup query = .error error) :
      Obstacle settings lookup occasion rule 5 (.calendar (.lookup error))
  | tooFewDays {direction : Direction} {base : Date} {query : Query}
      {holidays : List PublicHoliday} {digits : List Char} (signed : CountsIn rule direction)
      (based : CountsFrom occasion rule base) (covered : Covers settings base direction query)
      (answered : lookup query = .ok holidays) (spelled : SpellsCount rule digits)
      (few : (openDays direction holidays base).ncard < ofDigits digits) :
      Obstacle settings lookup occasion rule 6
        (.calendar (.reckoning (.outOfRange (rangeEnd direction))))

/-- The date that a rule means, where nothing stands in the way. -/
inductive Means (settings : Settings) (lookup : Lookup) (occasion : Occasion) (rule : String) :
    Date → Prop
  | base {base : Date} (based : CountsFrom occasion rule base)
      (unsigned : ∀ direction, ¬ CountsIn rule direction) :
      Means settings lookup occasion rule base
  | counted {direction : Direction} {base due : Date} {query : Query}
      {holidays : List PublicHoliday} {digits : List Char} (signed : CountsIn rule direction)
      (based : CountsFrom occasion rule base) (covered : Covers settings base direction query)
      (answered : lookup query = .ok holidays) (spelled : SpellsCount rule digits)
      (reached : Reaches direction holidays base (ofDigits digits) due) :
      Means settings lookup occasion rule due

section
variable (settings : Settings) (lookup : Lookup) (occasion : Occasion) (rule : String)

/-- None of the obstacles below a rank stands. -/
def ClearBelow (rank : Nat) : Prop :=
  ∀ lower < rank, ∀ error, ¬ Obstacle settings lookup occasion rule lower error

/-- No obstacle stands. -/
def Clear : Prop := ∀ rank, ClearBelow settings lookup occasion rule rank

/-- An obstacle stands, and none before it. -/
def FirstObstacle (error : DueDateError) : Prop :=
  ∃ rank, Obstacle settings lookup occasion rule rank error ∧
    ClearBelow settings lookup occasion rule rank

/-- There is something to count, and what is needed for the question for holidays is at hand. -/
def Asks (query : Query) : Prop :=
  ∃ direction base, CountsIn rule direction ∧ CountsFrom occasion rule base ∧
    Covers settings base direction query ∧ ClearBelow settings lookup occasion rule 5

end

variable {settings : Settings} {lookup : Lookup} {occasion : Occasion} {rule : String}
  {direction : Direction} {base due : Date} {query : Query} {error : DueDateError} {rank : Nat}

theorem firstRun_iff {text digits : List Char} :
    FirstRun text digits ↔ digits = firstDigits text := by
  constructor
  · rintro ⟨before, behind, rfl, noneBefore, all, stopped, empty⟩
    have skipped : ∀ c ∈ before, (!c.isDigit) = true := by
      intro c member
      rw [noneBefore c member, Bool.not_false]
    rw [firstDigits, List.append_assoc, List.dropWhile_append_of_pos skipped]
    cases digits with
    | nil => rw [empty rfl]; rfl
    | cons c rest =>
      have first : (!c.isDigit) = false := by rw [all c (List.mem_cons_self ..), Bool.not_true]
      have tail : behind.takeWhile Char.isDigit = [] := by
        cases behind with
        | nil => rfl
        | cons next _ => simp [stopped next rfl]
      have kept : (c :: rest ++ behind).dropWhile (fun c => !c.isDigit) = c :: rest ++ behind := by
        rw [List.cons_append, List.dropWhile_cons, first, if_neg Bool.false_ne_true]
      rw [kept, List.takeWhile_append_of_pos all, tail, List.append_nil]
  · rintro rfl
    refine ⟨text.takeWhile fun c => !c.isDigit,
      (text.dropWhile fun c => !c.isDigit).dropWhile Char.isDigit, ?_, ?_, ?_, ?_, ?_⟩
    · rw [List.append_assoc, firstDigits, List.takeWhile_append_dropWhile,
        List.takeWhile_append_dropWhile]
    · intro c member
      simpa using List.mem_takeWhile_imp member
    · intro c member
      exact List.mem_takeWhile_imp member
    · intro c member
      have stopped := List.head?_dropWhile_not Char.isDigit (text.dropWhile fun c => !c.isDigit)
      rw [Option.mem_def.mp member] at stopped
      exact stopped
    · intro none
      have started := List.head?_dropWhile_not (fun c => !c.isDigit) text
      unfold firstDigits at none
      cases rest : text.dropWhile fun c => !c.isDigit with
      | nil => rfl
      | cons c tail =>
        rw [rest] at started none
        have digit : c.isDigit = true := by simpa using started
        rw [List.takeWhile_cons_of_pos digit] at none
        cases none

theorem base_of_spoken (spoken : SpeaksOfHearing rule) : Base.ofText rule = .hearingDate := by
  have held : holdsRun hearingToken rule.toList = true := holdsRun_iff.mpr spoken
  rw [Base.ofText, if_pos held]

theorem base_of_silent (silent : ¬ SpeaksOfHearing rule) : Base.ofText rule = .today := by
  have missing : ¬ holdsRun hearingToken rule.toList = true := by
    intro held
    exact silent (holdsRun_iff.mp held)
  rw [Base.ofText, if_neg missing]

theorem unreadable_iff {text : String} : (∀ date, hearingDateOfText text ≠ .ok date) ↔
    hearingDateOfText text = .error (.invalidHearingDate text) := by
  unfold hearingDateOfText
  cases hearingDateOfTrimmed? (trimBlanks text.toList) with
  | none => simp
  | some date => simp

theorem dateOf_ok_iff :
    (Base.ofText rule).dateOf rule occasion = .ok base ↔ CountsFrom occasion rule base := by
  by_cases spoken : SpeaksOfHearing rule
  · rw [base_of_spoken spoken]
    constructor
    · intro found
      simp only [Base.dateOf] at found
      split at found
      · cases found
      · rename_i text given
        cases read : hearingDateOfText text with
        | ok date =>
          rw [read] at found
          cases found
          exact .hearing spoken given read
        | error error =>
          rw [read] at found
          cases found
    · intro based
      cases based with
      | today silent => exact absurd spoken silent
      | hearing _ given readable => simp only [Base.dateOf, given, readable]; rfl
  · rw [base_of_silent spoken]
    constructor
    · intro found
      cases found
      exact .today spoken
    · intro based
      cases based with
      | today => rfl
      | hearing again => exact absurd again spoken

theorem dateOf_error (obstacle : Obstacle settings lookup occasion rule rank error)
    (early : rank < 3) : (Base.ofText rule).dateOf rule occasion = .error error := by
  cases obstacle with
  | hearingDateMissing spoken absent => simp only [base_of_spoken spoken, Base.dateOf, absent]
  | hearingDateUnreadable spoken given unreadable =>
    simp only [base_of_spoken spoken, Base.dateOf, given, unreadable_iff.mp unreadable]
    rfl
  | countTooLarge | windowOutOfRange | lookupFails | tooFewDays => omega

/-- A count in working days with its sign. -/
def signedOffset : Direction → UInt32 → Offset
  | .forward, days => .plus days
  | .backward, days => .minus days

theorem sign_mem_meaningful {sign : Char} (meaningful : isMeaningful sign = true) :
    (rule.toList.filter isMeaningful).contains sign = true ↔ sign ∈ rule.toList := by
  rw [List.contains_iff_mem, List.mem_filter]
  exact ⟨fun kept => kept.1, fun member => ⟨member, meaningful⟩⟩

theorem offset_unsigned (unsigned : ∀ direction, ¬ CountsIn rule direction) :
    Offset.ofText rule = .ok .none := by
  have noPlus : '+' ∉ rule.toList := fun plus => unsigned .forward (.forward plus)
  have noMinus : '-' ∉ rule.toList := fun minus => unsigned .backward (.backward minus noPlus)
  rw [← sign_mem_meaningful (by decide)] at noPlus noMinus
  rw [Offset.ofText, if_neg noPlus, if_neg noMinus]

theorem offset_signed {digits : List Char} (signed : CountsIn rule direction)
    (spelled : SpellsCount rule digits) :
    Offset.ofText rule = (daysOfDigits digits).map (signedOffset direction) := by
  have run := firstRun_iff.mp spelled
  cases signed with
  | forward plus =>
    rw [← sign_mem_meaningful (by decide)] at plus
    rw [Offset.ofText, if_pos plus, ← run]
    rfl
  | backward minus noPlus =>
    rw [← sign_mem_meaningful (by decide)] at minus noPlus
    rw [Offset.ofText, if_neg noPlus, if_pos minus, ← run]
    rfl

theorem daysOfDigits_fits {digits : List Char} (fits : ofDigits digits < 2 ^ 32) :
    ∃ days : UInt32, daysOfDigits digits = .ok days ∧ days.toNat = ofDigits digits := by
  have small : ofDigits digits < UInt32.size := fits
  exact ⟨.ofNat (ofDigits digits), if_pos small, UInt32.toNat_ofNat_of_lt small⟩

theorem daysOfDigits_large {digits : List Char} (large : 2 ^ 32 ≤ ofDigits digits) :
    daysOfDigits digits = .error (.offsetTooLarge (String.ofList digits)) := by
  have outside : ¬ ofDigits digits < UInt32.size := Nat.not_lt.mpr large
  exact if_neg outside

theorem query_ok_iff :
    settings.query direction base = .ok query ↔ Covers settings base direction query := by
  unfold Settings.query Direction.window
  constructor
  · intro asked
    cases found : base.plusDays? (direction.unit * settings.windowDays.toNat) with
    | none =>
      rw [found] at asked
      cases asked
    | some far =>
      have reached := Date.plusDays?_eq_some.mp found
      rw [found] at asked
      cases direction with
      | forward =>
        cases asked
        exact .forward (by simpa only [Direction.unit, one_mul] using reached)
      | backward =>
        cases asked
        exact .backward (by simp only [Direction.unit] at reached; omega)
  · intro covered
    cases covered with
    | @forward far reached =>
      have found : base.plusDays? (Direction.forward.unit * settings.windowDays.toNat) = some far :=
        Date.plusDays?_eq_some.mpr (by simpa only [Direction.unit, one_mul] using reached)
      rw [found]
    | @backward far reached =>
      have found :
          base.plusDays? (Direction.backward.unit * settings.windowDays.toNat) = some far :=
        Date.plusDays?_eq_some.mpr (by simp only [Direction.unit]; omega)
      rw [found]

theorem query_error (outside : ∀ query, ¬ Covers settings base direction query) :
    settings.query direction base = .error (.outOfRange base) := by
  cases asked : settings.query direction base with
  | ok query => exact absurd (query_ok_iff.mp asked) (outside query)
  | error error =>
    unfold Settings.query Direction.window at asked
    cases found : base.plusDays? (direction.unit * settings.windowDays.toNat) with
    | none =>
      rw [found] at asked
      cases asked
      rfl
    | some far =>
      rw [found] at asked
      cases direction <;> cases asked

/-- The days with work are told by the holidays as they are listed. -/
theorem openDays_eq (direction : Direction) (holidays : List PublicHoliday) (start : Date) :
    openDays direction holidays start = daysAhead direction (.ofHolidays holidays) start := by
  ext date
  have unlisted : (HolidaySet.ofHolidays holidays).contains date = false ↔
      ∀ holiday ∈ holidays, holiday.date ≠ date := by
    rw [← Bool.not_eq_true, HolidaySet.contains_ofHolidays]
    simp only [not_exists, not_and, ne_eq]
  simp only [openDays, daysAhead, workingDays, Set.mem_ofPred_eq, unlisted]
  tauto

theorem count_ok_iff_reaches {holidays : List PublicHoliday} {count : Nat} :
    Calendar.countWorkingDays direction (.ofHolidays holidays) count base = .ok due ↔
      Reaches direction holidays base count due := by
  unfold Reaches
  rw [openDays_eq]
  by_cases zero : count = 0
  · subst zero
    constructor
    · intro counted
      cases counted
      exact .inl ⟨rfl, rfl⟩
    · rintro (⟨_, rfl⟩ | ⟨positive, _⟩)
      · rfl
      · cases positive
  · have positive : 0 < count := Nat.pos_of_ne_zero zero
    rw [count_ok_iff positive]
    constructor
    · intro reached
      exact .inr ⟨positive, reached⟩
    · rintro (⟨none, _⟩ | ⟨_, reached⟩)
      · exact absurd none zero
      · exact reached

theorem CountsFrom.unique {other : Date} (one : CountsFrom occasion rule base)
    (two : CountsFrom occasion rule other) : base = other :=
  Except.ok.inj ((dateOf_ok_iff.mpr one).symm.trans (dateOf_ok_iff.mpr two))

theorem CountsIn.unique {other : Direction} (one : CountsIn rule direction)
    (two : CountsIn rule other) : direction = other := by
  cases one with
  | forward plus =>
    cases two with
    | forward => rfl
    | backward _ noPlus => exact absurd plus noPlus
  | backward _ noPlus =>
    cases two with
    | forward plus => exact absurd plus noPlus
    | backward => rfl

theorem Covers.unique {other : Query} (one : Covers settings base direction query)
    (two : Covers settings base direction other) : query = other :=
  Except.ok.inj ((query_ok_iff.mpr one).symm.trans (query_ok_iff.mpr two))

theorem SpellsCount.unique {digits others : List Char} (one : SpellsCount rule digits)
    (two : SpellsCount rule others) : digits = others :=
  (firstRun_iff.mp one).trans (firstRun_iff.mp two).symm

/-- A rule means one date at most. -/
theorem Means.unique {other : Date} (one : Means settings lookup occasion rule due)
    (two : Means settings lookup occasion rule other) : due = other := by
  cases one with
  | base based unsigned =>
    cases two with
    | base again => exact based.unique again
    | counted signed => exact absurd signed (unsigned _)
  | counted signed based covered answered spelled reached =>
    cases two with
    | base _ unsigned => exact absurd signed (unsigned _)
    | counted signed' based' covered' answered' spelled' reached' =>
      cases signed.unique signed'
      cases based.unique based'
      cases covered.unique covered'
      cases answered.symm.trans answered'
      cases spelled.unique spelled'
      have counted := count_ok_iff_reaches.mpr reached
      exact Except.ok.inj (counted.symm.trans (count_ok_iff_reaches.mpr reached'))

theorem Asks.unique {other : Query} (one : Asks settings lookup occasion rule query)
    (two : Asks settings lookup occasion rule other) : query = other := by
  obtain ⟨direction, base, signed, based, covered, _⟩ := one
  obtain ⟨direction', base', signed', based', covered', _⟩ := two
  cases signed.unique signed'
  cases based.unique based'
  exact covered.unique covered'

theorem base_of_clear (clear : ClearBelow settings lookup occasion rule 3) :
    ∃ base, CountsFrom occasion rule base := by
  by_cases spoken : SpeaksOfHearing rule
  · cases given : occasion.hearingDate with
    | none => exact absurd (.hearingDateMissing spoken given) (clear 1 (by decide) _)
    | some text =>
      by_cases unreadable : ∀ date, hearingDateOfText text ≠ .ok date
      · exact absurd (.hearingDateUnreadable spoken given unreadable) (clear 2 (by decide) _)
      · obtain ⟨date, readable⟩ := not_forall_not.mp unreadable
        exact ⟨date, .hearing spoken given readable⟩
  · exact ⟨_, .today spoken⟩

theorem fits_of_clear {digits : List Char} (clear : ClearBelow settings lookup occasion rule 4)
    (signed : CountsIn rule direction) (spelled : SpellsCount rule digits) :
    ofDigits digits < 2 ^ 32 := by
  by_contra large
  exact clear 3 (by decide) _ (.countTooLarge signed spelled (Nat.le_of_not_lt large))

theorem covers_of_clear (clear : ClearBelow settings lookup occasion rule 5)
    (signed : CountsIn rule direction) (based : CountsFrom occasion rule base) :
    ∃ query, Covers settings base direction query := by
  by_contra outside
  exact clear 4 (by decide) _ (.windowOutOfRange signed based (not_exists.mp outside))

theorem ClearBelow.mono {low high : Nat} (clear : ClearBelow settings lookup occasion rule high)
    (le : low ≤ high) : ClearBelow settings lookup occasion rule low :=
  fun lower below => clear lower (by omega)

theorem Obstacle.rank_lt (obstacle : Obstacle settings lookup occasion rule rank error) :
    rank < 7 := by
  cases obstacle <;> omega

theorem clear_or_first (settings : Settings) (lookup : Lookup) (occasion : Occasion)
    (rule : String) (rank : Nat) : ClearBelow settings lookup occasion rule rank ∨
      ∃ first < rank, ∃ error, Obstacle settings lookup occasion rule first error ∧
        ClearBelow settings lookup occasion rule first := by
  induction rank with
  | zero => exact .inl fun lower below => absurd below (Nat.not_lt_zero lower)
  | succ rank ih =>
    rcases ih with clear | ⟨first, below, found⟩
    · by_cases stands : ∃ error, Obstacle settings lookup occasion rule rank error
      · obtain ⟨error, obstacle⟩ := stands
        exact .inr ⟨rank, Nat.lt_succ_self rank, error, obstacle, clear⟩
      · refine .inl fun lower below error obstacle => ?_
        rcases Nat.lt_succ_iff_lt_or_eq.mp below with earlier | rfl
        · exact clear lower earlier error obstacle
        · exact stands ⟨error, obstacle⟩
    · exact .inr ⟨first, Nat.lt_succ_of_lt below, found⟩

theorem first_or_clear (settings : Settings) (lookup : Lookup) (occasion : Occasion)
    (rule : String) : Clear settings lookup occasion rule ∨
      ∃ error, FirstObstacle settings lookup occasion rule error := by
  rcases clear_or_first settings lookup occasion rule 7 with clear | ⟨first, _, error, found⟩
  · exact .inl fun _ lower _ error obstacle => clear lower obstacle.rank_lt error obstacle
  · exact .inr ⟨error, first, found⟩

end Docket.DueDateObstacle
