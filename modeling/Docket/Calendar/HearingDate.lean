import Docket.Calendar.Error
import Docket.Time.InstantText

/-! A hearing date is written as a timestamp with an offset, as a timestamp without one, or as
a date alone. Whatever the layout, it means the date as written: an offset never moves it. -/
namespace Docket.Calendar
open Docket.Text Docket.Time

/-- No blanks where others may stand. -/
def noGap : Scan Unit := pure ()

/-- The layout of a timestamp with an offset: every number has its full width. -/
def scanOffsetTimestamp : Scan Date := do
  let year ← Scan.exactDigits 4
  Scan.mark '-'
  let month ← Scan.exactDigits 2
  Scan.mark '-'
  let date ← scanCalendar year month (← Scan.exactDigits 2)
  scanSeparator
  let _ ← TimeOfDay.scan (Scan.exactDigits 2) noGap
  let _ ← Scan.orElse scanZulu (scanOffset (Scan.mark ':'))
  return date

/-- The layout of a timestamp without an offset: numbers may be short and have blanks in front. -/
def scanPlainTimestamp : Scan Date := do
  let date ← Date.scan noGap
  Scan.mark 'T'
  let _ ← TimeOfDay.scan (Scan.number 2) noGap
  return date

/-- The layout of a date alone. -/
def scanPlainDate : Scan Date := Date.scan noGap

/-- The date that a trimmed text means, by the first layout that takes all of it. -/
def hearingDateOfTrimmed? (text : List Char) : Option Date :=
  (Scan.whole? scanOffsetTimestamp text).or
    ((Scan.whole? scanPlainTimestamp text).or (Scan.whole? scanPlainDate text))

/-- The date that a text means as a hearing date, blanks around it left out. -/
def hearingDateOfText (text : String) : Except ReckoningError Date :=
  match hearingDateOfTrimmed? (trimBlanks text.toList) with
  | some date => .ok date
  | none => .error (.invalidHearingDate text)

end Docket.Calendar
