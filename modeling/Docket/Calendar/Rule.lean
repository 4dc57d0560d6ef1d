import Docket.Calendar.Error
import Docket.Text.Numeral

/-! A rule for a due date names a base day and an offset in working days, as in
hearingDate - 3d. Only the token of the hearing date, the sign and the first run of digits
carry meaning; every other character is decoration. -/
namespace Docket.Calendar
open Docket.Text

/-- The day that a rule counts from. -/
inductive Base where
  | today
  | hearingDate
deriving DecidableEq

/-- The working days that a rule counts. No sign is not the same as a count of zero: it asks for
no reckoning at all. -/
inductive Offset where
  | none
  | plus (days : UInt32)
  | minus (days : UInt32)
deriving DecidableEq

/-- A rule with the text it was read from. -/
structure Rule where
  text : String
  base : Base
  offset : Offset
deriving DecidableEq

/-- Whether a run of characters stands somewhere in a text. -/
def holdsRun (run : List Char) : List Char → Bool
  | [] => run.isEmpty
  | c :: rest => run.isPrefixOf (c :: rest) || holdsRun run rest

/-- The token by which a rule refers to the hearing date. -/
def hearingToken : List Char := "hearingDate".toList

/-- The base that a rule names. It can be told even where the offset cannot be read. -/
def Base.ofText (text : String) : Base :=
  if holdsRun hearingToken text.toList then .hearingDate else .today

/-- The characters of a rule that may carry meaning in its offset. -/
def isMeaningful (c : Char) : Bool := c.isAlphanum || c == '+' || c == '-'

/-- The first run of digits; empty where there is none. -/
def firstDigits (text : List Char) : List Char :=
  (text.dropWhile fun c => !c.isDigit).takeWhile Char.isDigit

/-- The number of days that a run of digits spells, an empty run counting as zero. -/
def daysOfDigits (digits : List Char) : Except ReckoningError UInt32 :=
  if ofDigits digits < UInt32.size then .ok (UInt32.ofNat (ofDigits digits))
  else .error (.offsetTooLarge (String.ofList digits))

/-- The offset of a rule. A plus sign anywhere outweighs every minus sign, and digits without a
sign are not read. -/
def Offset.ofText (text : String) : Except ReckoningError Offset :=
  let meaningful := text.toList.filter isMeaningful
  if meaningful.contains '+' then (daysOfDigits (firstDigits meaningful)).map .plus
  else if meaningful.contains '-' then (daysOfDigits (firstDigits meaningful)).map .minus
  else .ok .none

/-- The rule that a text spells. -/
def Rule.ofText (text : String) : Except ReckoningError Rule :=
  (Offset.ofText text).map fun offset => ⟨text, .ofText text, offset⟩

/-- A run stands in a text just where the text is the run with something before and after it. -/
theorem holdsRun_iff {run text : List Char} : holdsRun run text = true ↔ run <:+: text := by
  induction text with
  | nil => simp [holdsRun]
  | cons c rest ih => simp [holdsRun, ih, List.infix_cons_iff]

end Docket.Calendar
