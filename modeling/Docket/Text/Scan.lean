import Docket.Text.Blank
import Docket.Text.Numeral

/-! A scanner takes what it recognises from the front of a text and leaves the rest,
or refuses. Numbers may have blanks in front of them; every other mark has to
follow at once. -/
namespace Docket.Text

/-- A reader of the front of a text. -/
abbrev Scan (α : Type) := StateT (List Char) Option α

namespace Scan
variable {α : Type}

/-- Accepts a text only if the scanner uses all of it. -/
def whole? (scanner : Scan α) (text : List Char) : Option α :=
  match scanner.run text with
  | some (value, []) => some value
  | _ => none

/-- Refuses every text. -/
def refuse : Scan α := fun _ => none

/-- Lets any blanks pass. -/
def blanks : Scan Unit := fun text => some ((), dropBlanks text)

/-- Takes one character that satisfies the test. -/
def one (test : Char → Bool) : Scan Char := fun text =>
  match text with
  | c :: rest => if test c then some (c, rest) else none
  | [] => none

/-- Takes exactly the given character. -/
def mark (c : Char) : Scan Unit := do
  let _ ← one (· == c)

/-- Takes a run of digits, at least one and as many as there are. -/
def digits : Scan (List Char) := fun text =>
  let run := text.takeWhile Char.isDigit
  if run.isEmpty then none else some (run, text.dropWhile Char.isDigit)

/-- Takes a run of one to `width` digits, stopping there even if more follow. -/
def digitsUpTo (width : Nat) : Scan (List Char) := fun text =>
  let run := (text.take width).takeWhile Char.isDigit
  if run.isEmpty then none else some (run, text.drop run.length)

/-- Takes exactly `width` digits. -/
def exactDigits (width : Nat) : Scan Nat := fun text =>
  let run := text.take width
  if run.length = width && run.all Char.isDigit then some (ofDigits run, text.drop width) else none

/-- Takes a number of one to `width` digits, blanks in front allowed. -/
def number (width : Nat) : Scan Nat := do
  blanks
  return ofDigits (← digitsUpTo width)

/-- Refuses unless the condition holds. -/
def require (condition : Bool) : Scan Unit := if condition then pure () else refuse

/-- Takes the first of two scanners that accepts. -/
def orElse (first second : Scan α) : Scan α := fun text =>
  match first text with
  | some result => some result
  | none => second text

end Scan
end Docket.Text
