import Docket.Text.Scan
import Docket.Time.Date

/-! A date is written year-month-day. Years of four digits stand bare; all others carry a
sign, so that their length cannot be mistaken. A reader also takes shorter numbers,
and, where it is told to, blanks around the hyphens. -/
namespace Docket.Time
open Docket.Text

/-- The spelling of a year: four digits from 0 to 9999, else a sign and at least four. -/
def yearText (year : Int) : List Char :=
  if 0 ≤ year ∧ year ≤ 9999 then fixedDigits 4 year.toNat
  else (if year < 0 then '-' else '+') :: paddedDigits 4 year.natAbs

/-- The characters of a date's spelling. -/
def Date.chars (date : Date) : List Char :=
  let (month, dayOfMonth) := date.monthAndDay
  yearText date.year ++ '-' :: fixedDigits 2 month ++ '-' :: fixedDigits 2 dayOfMonth

/-- The spelling of a date. -/
def Date.text (date : Date) : String := String.ofList date.chars

/-- Reads a year: any number of digits after a sign, else one to four. -/
def scanYear : Scan Int := do
  Scan.blanks
  Scan.orElse
    (do Scan.mark '-'; return -(ofDigits (← Scan.digits) : Int))
    (Scan.orElse
      (do Scan.mark '+'; return (ofDigits (← Scan.digits) : Int))
      (do return (ofDigits (← Scan.digitsUpTo 4) : Int)))

/-- Refuses numbers that name no representable date. -/
def scanCalendar (year : Int) (month dayOfMonth : Nat) : Scan Date :=
  match Date.ofCalendar? year month dayOfMonth with
  | some date => pure date
  | none => Scan.refuse

/-- Reads a date whose hyphens may have `gap` in front of them. -/
def Date.scan (gap : Scan Unit) : Scan Date := do
  let year ← scanYear
  gap
  Scan.mark '-'
  let month ← Scan.number 2
  gap
  Scan.mark '-'
  let dayOfMonth ← Scan.number 2
  scanCalendar year month dayOfMonth

/-- Reads a date, blanks allowed in front of each part and at the end. -/
def Date.ofText? (text : String) : Option Date :=
  Scan.whole? (do let date ← Date.scan Scan.blanks; Scan.blanks; return date) text.toList

end Docket.Time
