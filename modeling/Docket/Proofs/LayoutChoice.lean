import Docket.Calendar.HearingDate
import Docket.Proofs.Scanning

/-! No text can be read as a hearing date in two layouts, so it does not matter which of them is
tried first. Their numbers may be short or long, blank in front or signed, but the colons and the
letter of universal time are always the same in number: a date alone has none of them, a time of
day has two colons, and an offset has either a colon of its own or the letter. -/
namespace Docket.LayoutChoice
open Docket.Calendar Docket.Scanning Docket.Text Docket.Time

/-- The ways that a hearing date may be laid out. -/
inductive Layout where
  | offsetTimestamp
  | plainTimestamp
  | plainDate

namespace Layout

/-- The scanner of a layout. -/
def scan : Layout → Scan Date
  | offsetTimestamp => scanOffsetTimestamp
  | plainTimestamp => scanPlainTimestamp
  | plainDate => scanPlainDate

/-- The date of a text that is in this layout from its beginning to its end. -/
def read? (layout : Layout) (text : List Char) : Option Date := Scan.whole? layout.scan text

end Layout

/-- The date that a text means, blanks around it left out, by the first of some layouts that takes
all of it. -/
def readInOrder (order : List Layout) (text : String) : Except ReckoningError Date :=
  match order.findSome? (·.read? (trimBlanks text.toList)) with
  | some date => .ok date
  | none => .error (.invalidHearingDate text)

/-- The readings of two texts that come to the same. A refused text is named as it stands. -/
inductive ReadAlike (text other : String) :
    Except ReckoningError Date → Except ReckoningError Date → Prop
  | date (date : Date) : ReadAlike text other (.ok date) (.ok date)
  | refused : ReadAlike text other (.error (.invalidHearingDate text))
      (.error (.invalidHearingDate other))

/-- The marks that only stand in times of day and offsets. -/
def isMark (c : Char) : Bool := c == ':' || c == 'Z' || c == 'z'

/-- A scanner takes the same number of marks off every text that it accepts. -/
def TakesOff {α : Type} (marks : Nat) (scanner : Scan α) : Prop :=
  ∀ text value rest, Takes scanner text value rest →
    text.countP isMark = marks + rest.countP isMark

/-- The number of marks in a text of a layout. -/
def Layout.marks : Layout → Nat
  | offsetTimestamp => 3
  | plainTimestamp => 2
  | plainDate => 0

section
variable {α β : Type} {first second : Scan α} {next : α → Scan β} {n m : Nat}
variable {text rest run : List Char} {test : Char → Bool} {c : Char}

theorem takesOff_pure (a : α) : TakesOff 0 (pure a : Scan α) := by
  rintro text value rest ⟨⟩
  exact (Nat.zero_add _).symm

theorem takesOff_refuse : TakesOff n (Scan.refuse : Scan α) := by
  rintro text value rest ⟨⟩

/-- What has been taken by two scanners in turn has been taken by one and then by the other. -/
theorem takesOff_bind (one : TakesOff n first) (other : ∀ a, TakesOff m (next a)) :
    TakesOff (n + m) (first >>= next) := by
  intro text value rest taken
  cases ran : first text with
  | none => cases (refuses_bind ran).symm.trans taken
  | some result =>
    obtain ⟨a, middle⟩ := result
    have front := one text a middle ran
    have back := other a middle value rest ((bind_of_takes ran).symm.trans taken)
    omega

/-- A scanner without marks may come first, whatever the number of marks behind it. -/
theorem takesOff_after (still : TakesOff 0 first) (other : ∀ a, TakesOff m (next a)) :
    TakesOff m (first >>= next) := by
  have both := takesOff_bind still other
  rwa [Nat.zero_add] at both

theorem takesOff_orElse (one : TakesOff n first) (other : TakesOff n second) :
    TakesOff n (Scan.orElse first second) := by
  intro text value rest taken
  unfold Takes Scan.orElse at taken
  split at taken
  · rename_i result ran
    cases taken
    exact one text value rest ran
  · exact other text value rest taken

theorem isMark_iff : isMark c = true ↔ c = ':' ∨ c = 'Z' ∨ c = 'z' := by
  simp only [isMark, Bool.or_eq_true, beq_iff_eq, or_assoc]

/-- A class of characters that none of the marks belongs to. -/
theorem unmarked (apart : test ':' = false ∧ test 'Z' = false ∧ test 'z' = false)
    (member : test c = true) : isMark c = false := by
  apply Bool.eq_false_iff.mpr
  intro marked
  rcases isMark_iff.mp marked with rfl | rfl | rfl
  · cases apart.1.symm.trans member
  · cases apart.2.1.symm.trans member
  · cases apart.2.2.symm.trans member

theorem takesOff_one {marked : Bool} (alike : ∀ c, test c = true → isMark c = marked) :
    TakesOff marked.toNat (Scan.one test) := by
  intro text value rest taken
  unfold Takes Scan.one at taken
  split at taken
  · split at taken
    · rename_i c tail passes
      cases taken
      rw [List.countP_cons, alike value passes]
      cases marked <;> simp [Nat.add_comm]
    · cases taken
  · cases taken

theorem takesOff_mark (c : Char) : TakesOff (isMark c).toNat (Scan.mark c) := by
  refine takesOff_bind (takesOff_one fun other same => ?_) fun _ => takesOff_pure ()
  rw [beq_iff_eq.mp same]

/-- Where a run without marks has been taken, the rest has all the marks. -/
theorem countP_of_run (split : run ++ rest = text) (inside : ∀ c ∈ run, isMark c = false) :
    text.countP isMark = 0 + rest.countP isMark := by
  have none : run.countP isMark = 0 :=
    List.countP_eq_zero.mpr fun c member => Bool.eq_false_iff.mp (inside c member)
  rw [← split, List.countP_append, none]

theorem unmarked_of_isDigit (digit : c.isDigit = true) : isMark c = false :=
  unmarked ⟨rfl, rfl, rfl⟩ digit

theorem takesOff_blanks : TakesOff 0 Scan.blanks := by
  rintro text value rest ⟨⟩
  refine countP_of_run List.takeWhile_append_dropWhile fun c member => ?_
  exact unmarked ⟨rfl, rfl, rfl⟩ (List.mem_takeWhile_imp member)

theorem takesOff_digits : TakesOff 0 Scan.digits := by
  intro text value rest taken
  unfold Takes Scan.digits at taken
  simp only at taken
  split at taken
  · cases taken
  · cases taken
    refine countP_of_run List.takeWhile_append_dropWhile fun c member => ?_
    exact unmarked_of_isDigit (List.mem_takeWhile_imp member)

theorem takesOff_digitsUpTo (width : Nat) : TakesOff 0 (Scan.digitsUpTo width) := by
  intro text value rest taken
  unfold Takes Scan.digitsUpTo at taken
  simp only at taken
  split at taken
  · cases taken
  · cases taken
    have front : (text.take width).takeWhile Char.isDigit <+: text :=
      (List.takeWhile_prefix _).trans (List.take_prefix _ _)
    refine countP_of_run (List.prefix_iff_eq_append.mp front) fun c member => ?_
    exact unmarked_of_isDigit (List.mem_takeWhile_imp member)

theorem takesOff_exactDigits (width : Nat) : TakesOff 0 (Scan.exactDigits width) := by
  intro text value rest taken
  unfold Takes Scan.exactDigits at taken
  simp only [Bool.and_eq_true, decide_eq_true_eq, List.all_eq_true] at taken
  split at taken
  · rename_i full
    cases taken
    exact countP_of_run (List.take_append_drop width text)
      fun c member => unmarked_of_isDigit (full.2 c member)
  · cases taken

theorem takesOff_number (width : Nat) : TakesOff 0 (Scan.number width) :=
  takesOff_after takesOff_blanks fun _ =>
    takesOff_after (takesOff_digitsUpTo width) fun _ => takesOff_pure _

theorem takesOff_require (condition : Bool) : TakesOff 0 (Scan.require condition) := by
  unfold Scan.require
  split
  · exact takesOff_pure ()
  · exact takesOff_refuse

end

theorem takesOff_year : TakesOff 0 scanYear := by
  refine takesOff_after takesOff_blanks fun _ => ?_
  refine takesOff_orElse ?_ (takesOff_orElse ?_ ?_)
  · exact takesOff_after (takesOff_mark '-') fun _ =>
      takesOff_after takesOff_digits fun _ => takesOff_pure _
  · exact takesOff_after (takesOff_mark '+') fun _ =>
      takesOff_after takesOff_digits fun _ => takesOff_pure _
  · exact takesOff_after (takesOff_digitsUpTo 4) fun _ => takesOff_pure _

theorem takesOff_calendar (year : Int) (month day : Nat) :
    TakesOff 0 (scanCalendar year month day) := by
  unfold scanCalendar
  split
  · exact takesOff_pure _
  · exact takesOff_refuse

theorem takesOff_date : TakesOff 0 (Date.scan noGap) := by
  refine takesOff_after takesOff_year fun year => ?_
  refine takesOff_after (takesOff_pure ()) fun _ => takesOff_after (takesOff_mark '-') fun _ => ?_
  refine takesOff_after (takesOff_number 2) fun month => ?_
  refine takesOff_after (takesOff_pure ()) fun _ => takesOff_after (takesOff_mark '-') fun _ => ?_
  exact takesOff_after (takesOff_number 2) fun day => takesOff_calendar year month day

theorem takesOff_fraction : TakesOff 0 scanFraction := by
  intro text value rest taken
  unfold Takes scanFraction at taken
  split at taken
  · rename_i digits
    have places : TakesOff 0 (do return nanosOfFraction (← Scan.digits) : Scan Nat) :=
      takesOff_after takesOff_digits fun _ => takesOff_pure _
    rw [List.countP_cons_of_neg (by decide)]
    exact places digits value rest taken
  · cases taken
    exact (Nat.zero_add _).symm

theorem takesOff_clock (hour minute second nano : Nat) :
    TakesOff 0 (scanClock hour minute second nano) := by
  unfold scanClock
  split
  · exact takesOff_pure _
  · exact takesOff_refuse

/-- The two colons of a time of day. -/
theorem takesOff_time {field : Scan Nat} (number : TakesOff 0 field) :
    TakesOff 2 (TimeOfDay.scan field noGap) := by
  have seconds (hour minute : Nat) : TakesOff 0 (do
      let second ← field
      scanClock hour minute second (← scanFraction)) :=
    takesOff_after number fun second =>
      takesOff_after takesOff_fraction fun nano => takesOff_clock hour minute second nano
  have minutes (hour : Nat) : TakesOff 1 (do
      let minute ← field
      noGap
      Scan.mark ':'
      let second ← field
      scanClock hour minute second (← scanFraction)) :=
    takesOff_after number fun minute => takesOff_after (takesOff_pure ()) fun _ =>
      takesOff_bind (takesOff_mark ':') fun _ => seconds hour minute
  exact takesOff_after number fun hour => takesOff_after (takesOff_pure ()) fun _ =>
    takesOff_bind (takesOff_mark ':') fun _ => minutes hour

/-- The colon of an offset, or the letter that stands in its place. -/
theorem takesOff_zone : TakesOff 1 (Scan.orElse scanZulu (scanOffset (Scan.mark ':'))) := by
  apply takesOff_orElse
  · have letter : TakesOff (Bool.toNat true) (Scan.one fun c => c == 'Z' || c == 'z') := by
      apply takesOff_one
      intro c either
      simp only [Bool.or_eq_true, beq_iff_eq] at either
      exact isMark_iff.mpr (.inr either)
    exact takesOff_bind letter fun _ => takesOff_pure 0
  · have minutes (sign : Char) (hours : Nat) : TakesOff 0 (do
        let minutes ← Scan.exactDigits 2
        Scan.require (hours < 24 && minutes < 60)
        let ahead : Int := hours * 60 + minutes
        return if sign == '+' then ahead else -ahead : Scan Int) :=
      takesOff_after (takesOff_exactDigits 2) fun _ =>
        takesOff_after (takesOff_require _) fun _ => takesOff_pure _
    refine takesOff_after (takesOff_one fun c signed => unmarked ⟨rfl, rfl, rfl⟩ signed)
      fun sign => ?_
    exact takesOff_after (takesOff_exactDigits 2) fun hours =>
      takesOff_bind (takesOff_mark ':') fun _ => minutes sign hours

theorem takesOff_offsetTimestamp : TakesOff 3 scanOffsetTimestamp := by
  have ending (date : Date) : TakesOff 3 (do
      let _ ← TimeOfDay.scan (Scan.exactDigits 2) noGap
      let _ ← Scan.orElse scanZulu (scanOffset (Scan.mark ':'))
      return date) :=
    takesOff_bind (takesOff_time (takesOff_exactDigits 2)) fun _ =>
      takesOff_bind takesOff_zone fun _ => takesOff_pure date
  have separator : TakesOff 0 scanSeparator :=
    takesOff_after (takesOff_one fun c separates => unmarked ⟨rfl, rfl, rfl⟩ separates)
      fun _ => takesOff_pure ()
  refine takesOff_after (takesOff_exactDigits 4) fun year => ?_
  refine takesOff_after (takesOff_mark '-') fun _ => ?_
  refine takesOff_after (takesOff_exactDigits 2) fun month => ?_
  refine takesOff_after (takesOff_mark '-') fun _ => ?_
  refine takesOff_after (takesOff_exactDigits 2) fun day => ?_
  exact takesOff_after (takesOff_calendar year month day) fun date =>
    takesOff_after separator fun _ => ending date

theorem takesOff_plainTimestamp : TakesOff 2 scanPlainTimestamp :=
  takesOff_after takesOff_date fun date => takesOff_after (takesOff_mark 'T') fun _ =>
    takesOff_bind (takesOff_time (takesOff_number 2)) fun _ => takesOff_pure date

theorem takesOff_layout (layout : Layout) : TakesOff layout.marks layout.scan := by
  cases layout with
  | offsetTimestamp => exact takesOff_offsetTimestamp
  | plainTimestamp => exact takesOff_plainTimestamp
  | plainDate => exact takesOff_date

/-- A text says by its marks which layout it may be in. -/
theorem marks_of_read {layout : Layout} {text : List Char}
    (reads : (layout.read? text).isSome = true) : text.countP isMark = layout.marks := by
  obtain ⟨date, read⟩ := Option.isSome_iff_exists.mp reads
  exact takesOff_layout layout text date [] (takes_of_whole? read)

theorem Layout.marks_injective {one other : Layout} (same : one.marks = other.marks) :
    one = other := by
  cases one <;> cases other <;> first | rfl | cases same

/-- None of the layouts is idle. -/
theorem Layout.takes_some (layout : Layout) : ∃ text, (layout.read? text).isSome = true := by
  cases layout with
  | offsetTimestamp => exact ⟨"2016-12-31T23:59:60Z".toList, rfl⟩
  | plainTimestamp => exact ⟨"2016-12-31T23:59:60".toList, rfl⟩
  | plainDate => exact ⟨"2016-12-31".toList, rfl⟩

theorem unique_layout {text : List Char} {one other : Layout}
    (first : (one.read? text).isSome = true) (second : (other.read? text).isSome = true) :
    one = other :=
  Layout.marks_injective ((marks_of_read first).symm.trans (marks_of_read second))

section
variable {order : List Layout} {text : List Char} {layout : Layout} {date : Date}

/-- The first layout that reads a text is the only one, wherever it stands in the order. -/
theorem findSome?_of_read (member : layout ∈ order) (read : layout.read? text = some date) :
    order.findSome? (·.read? text) = some date := by
  cases found : order.findSome? (·.read? text) with
  | none =>
    have refused := List.findSome?_eq_none_iff.mp found layout member
    cases refused.symm.trans read
  | some result =>
    obtain ⟨other, -, first⟩ := List.exists_of_findSome?_eq_some found
    have same : other = layout :=
      unique_layout (Option.isSome_of_eq_some first) (Option.isSome_of_eq_some read)
    rw [same, read] at first
    exact first.symm

/-- Two orders that miss no layout come to the same date, or to none. -/
theorem findSome?_complete {other : List Layout} (every : ∀ layout, layout ∈ order)
    (all : ∀ layout, layout ∈ other) :
    order.findSome? (·.read? text) = other.findSome? (·.read? text) := by
  cases found : other.findSome? (·.read? text) with
  | none =>
    apply List.findSome?_eq_none_iff.mpr
    intro layout _
    exact List.findSome?_eq_none_iff.mp found layout (all layout)
  | some date =>
    obtain ⟨layout, -, read⟩ := List.exists_of_findSome?_eq_some found
    exact findSome?_of_read (every layout) read

end

/-- The order in which the layouts are tried. -/
def Layout.order : List Layout := [.offsetTimestamp, .plainTimestamp, .plainDate]

theorem Layout.mem_order (layout : Layout) : layout ∈ order := by
  cases layout <;> simp [order]

theorem hearingDateOfTrimmed?_eq_findSome? (text : List Char) :
    hearingDateOfTrimmed? text = Layout.order.findSome? (·.read? text) := by
  simp only [hearingDateOfTrimmed?, Layout.order, List.findSome?_cons, List.findSome?_nil,
    Layout.read?, Layout.scan]
  cases Scan.whole? scanOffsetTimestamp text <;> cases Scan.whole? scanPlainTimestamp text <;>
    cases Scan.whole? scanPlainDate text <;> rfl

theorem readInOrder_order (text : String) :
    readInOrder Layout.order text = hearingDateOfText text := by
  cases found : hearingDateOfTrimmed? (trimBlanks text.toList) with
  | none =>
    have refused := (hearingDateOfTrimmed?_eq_findSome? _).symm.trans found
    simp only [readInOrder, hearingDateOfText, found, refused]
  | some date =>
    have read := (hearingDateOfTrimmed?_eq_findSome? _).symm.trans found
    simp only [readInOrder, hearingDateOfText, found, read]

theorem readInOrder_complete {order : List Layout} (every : ∀ layout, layout ∈ order)
    (text : String) : readInOrder order text = hearingDateOfText text := by
  rw [← readInOrder_order, readInOrder, readInOrder, findSome?_complete every Layout.mem_order]

/-- Texts that are alike once they are trimmed are read alike. -/
theorem readAlike_of_trimmed {text other : String}
    (same : trimBlanks other.toList = trimBlanks text.toList) :
    ReadAlike text other (hearingDateOfText text) (hearingDateOfText other) := by
  unfold hearingDateOfText
  rw [same]
  cases hearingDateOfTrimmed? (trimBlanks text.toList) with
  | none => exact .refused
  | some date => exact .date date

/-- Each layout takes some texts, but no two of them the same. So every order in which all are tried
reads every text as the date that it means or refuses it; and blanks around a text change nothing
but the text that a refusal quotes. -/
theorem layouts_never_compete :
    (∀ layout : Layout, ∃ text, (layout.read? text).isSome = true) ∧
    (∀ (text : List Char) (one other : Layout), (one.read? text).isSome = true →
      (other.read? text).isSome = true → one = other) ∧
    (∀ order : List Layout, (∀ layout, layout ∈ order) → ∀ text : String,
      readInOrder order text = hearingDateOfText text) ∧
    ∀ before text after : String, (∀ c ∈ before.toList, isBlank c = true) →
      (∀ c ∈ after.toList, isBlank c = true) →
      ReadAlike text (before ++ text ++ after) (hearingDateOfText text)
        (hearingDateOfText (before ++ text ++ after)) := by
  refine ⟨Layout.takes_some, fun text one other => unique_layout,
    fun order every => readInOrder_complete every, ?_⟩
  intro before text after blankBefore blankAfter
  apply readAlike_of_trimmed
  rw [String.toList_append, String.toList_append]
  exact trimBlanks_around blankBefore blankAfter text.toList

/-- A moment in a leap second, with blanks of several kinds around it, a space in it and the sign
of its offset a hyphen. -/
def paddedMoment : String := "\t2016-12-31 23:59:60.5-23:59\u2003"

/-- The moment has one layout, and is read as its day although the other layouts have a try first.
Blanks do not make a text readable that is not. -/
theorem padded_moment_read_last :
    (Layout.offsetTimestamp.read? (trimBlanks paddedMoment.toList)).isSome = true ∧
      ¬ (Layout.plainDate.read? (trimBlanks paddedMoment.toList)).isSome = true ∧
      readInOrder [.plainDate, .plainTimestamp, .offsetTimestamp] paddedMoment =
        .ok ((Date.ofCalendar? 2016 12 31).get (by decide)) ∧
      ReadAlike "2016-12-31T" ("\n" ++ "2016-12-31T" ++ " ") (hearingDateOfText "2016-12-31T")
        (hearingDateOfText ("\n" ++ "2016-12-31T" ++ " ")) := by
  obtain ⟨-, unique, anyOrder, padded⟩ := layouts_never_compete
  have read : (Layout.offsetTimestamp.read? (trimBlanks paddedMoment.toList)).isSome = true := by
    decide
  have every (layout : Layout) :
      layout ∈ [Layout.plainDate, .plainTimestamp, .offsetTimestamp] := by
    cases layout <;> simp
  refine ⟨read, fun also => ?_, ?_, padded "\n" "2016-12-31T" " " (List.all_eq_true.mp rfl)
    (List.all_eq_true.mp rfl)⟩
  · cases unique _ _ _ read also
  · rw [anyOrder _ every]
    rfl

end Docket.LayoutChoice
