import Docket.Time.DateText
import Docket.Time.Instant

/-! An instant is written as date, time and `Z`, with the shortest of no, three, six or nine
fraction digits that loses nothing. A reader takes any offset from universal time and
moves the clock back to it. -/
namespace Docket.Time
open Docket.Text

/-- Two digits for the hour, the minute and the second each, colons between. -/
def TimeOfDay.clockChars (time : TimeOfDay) : List Char :=
  fixedDigits 2 time.hour ++ ':' :: fixedDigits 2 time.minute ++
    ':' :: fixedDigits 2 time.clockSecond

/-- A point and three, six or nine digits; nothing for a whole second. -/
def fractionChars (nanos : Nat) : List Char :=
  if nanos = 0 then []
  else if nanos % 1000000 = 0 then '.' :: fixedDigits 3 (nanos / 1000000)
  else if nanos % 1000 = 0 then '.' :: fixedDigits 6 (nanos / 1000)
  else '.' :: fixedDigits 9 nanos

/-- The characters of an instant's spelling. -/
def Instant.chars (instant : Instant) : List Char :=
  instant.date.chars ++ 'T' :: instant.time.clockChars ++
    fractionChars instant.time.fraction ++ ['Z']

/-- The spelling of an instant. -/
def Instant.text (instant : Instant) : String := String.ofList instant.chars

/-- The nanoseconds of a run of fraction digits; digits after the ninth say nothing. -/
def nanosOfFraction (run : List Char) : Nat :=
  let kept := run.take 9
  ofDigits kept * Nat.pow 10 (9 - kept.length)

/-- Reads an optional fraction; a point needs at least one digit after it. -/
def scanFraction : Scan Nat := fun text =>
  match text with
  | '.' :: rest => (do return nanosOfFraction (← Scan.digits) : Scan Nat).run rest
  | _ => some (0, text)

/-- Refuses numbers that no clock shows. -/
def scanClock (hour minute second nano : Nat) : Scan TimeOfDay :=
  match TimeOfDay.ofClock? hour minute second nano with
  | some time => pure time
  | none => Scan.refuse

/-- Reads a time of day whose numbers are read by `field` and whose colons may have `gap`
in front of them. -/
def TimeOfDay.scan (field : Scan Nat) (gap : Scan Unit) : Scan TimeOfDay := do
  let hour ← field
  gap
  Scan.mark ':'
  let minute ← field
  gap
  Scan.mark ':'
  let second ← field
  scanClock hour minute second (← scanFraction)

/-- The letter or the blank between a date and a time. -/
def scanSeparator : Scan Unit := do
  let _ ← Scan.one fun c => c == 'T' || c == 't' || c == ' '

/-- The letter that stands for universal time. -/
def scanZulu : Scan Int := do
  let _ ← Scan.one fun c => c == 'Z' || c == 'z'
  return 0

/-- Reads a sign, two digits of hours, `between`, and two digits of minutes, as the minutes
that a clock is ahead. The minus sign may be the hyphen or its own character. -/
def scanOffset (between : Scan Unit) : Scan Int := do
  let sign ← Scan.one fun c => c == '+' || c == '-' || c == '−'
  let hours ← Scan.exactDigits 2
  between
  let minutes ← Scan.exactDigits 2
  Scan.require (hours < 24 && minutes < 60)
  let ahead : Int := hours * 60 + minutes
  return if sign == '+' then ahead else -ahead

/-- Takes any run of colons and blanks. -/
def scanColons : Scan Unit := fun text =>
  some ((), text.dropWhile fun c => c == ':' || isBlank c)

/-- The three letters of universal time, in any case. -/
def scanUniversal : Scan Int := do
  let _ ← Scan.one (·.toUpper == 'U')
  let _ ← Scan.one (·.toUpper == 'T')
  let _ ← Scan.one (·.toUpper == 'C')
  return 0

/-- Reads the offset at the end of an instant. -/
def scanZone : Scan Int :=
  Scan.orElse scanUniversal (Scan.orElse scanZulu (scanOffset scanColons))

/-- Refuses a moment outside the representable dates. -/
def scanBehind (shown : Instant) (minutes : Int) : Scan Instant :=
  match shown.behind? minutes with
  | some instant => pure instant
  | none => Scan.refuse

/-- Reads an instant. -/
def Instant.scan : Scan Instant := do
  let date ← Date.scan Scan.blanks
  scanSeparator
  let time ← TimeOfDay.scan (Scan.number 2) Scan.blanks
  Scan.blanks
  let minutes ← scanZone
  Scan.blanks
  scanBehind ⟨date, time⟩ minutes

/-- Reads an instant that is the whole text. -/
def Instant.ofText? (text : String) : Option Instant := Scan.whole? Instant.scan text.toList

end Docket.Time
