import Docket.Json.Token
import Docket.Json.Printer

/-! A task is named by a number of 128 bits, written as 32 hexadecimal digits in groups of
8, 4, 4, 4 and 12. A reader also takes the digits without hyphens, and the grouped
form inside braces or after its resource prefix; it trims nothing. -/
namespace Docket
open Docket.Text

/-- The name of a task. -/
structure TaskId where
  bits : BitVec 128
deriving DecidableEq, Hashable

namespace TaskId

/-- The lowest hexadecimal digits of a number, exactly `width` of them. -/
def hexDigits : (width : Nat) → (n : Nat) → List Char
  | 0, _ => []
  | width + 1, n => hexDigits width (n / 16) ++ [Json.hexDigit n]

/-- The digits without hyphens. -/
def digits (id : TaskId) : List Char := hexDigits 32 id.bits.toNat

/-- Puts hyphens between the groups of digits. -/
def grouped (digits : List Char) : List Char :=
  digits.take 8 ++ '-' :: (digits.drop 8).take 4 ++ '-' :: (digits.drop 12).take 4 ++
    '-' :: (digits.drop 16).take 4 ++ '-' :: digits.drop 20

/-- The spelling of a task identifier. -/
def text (id : TaskId) : String := String.ofList (grouped id.digits)

/-- Reads exactly 32 hexadecimal digits. -/
def ofDigits? (digits : List Char) : Option TaskId :=
  if digits.length = 32 then (Json.ofHex? digits).map fun value => ⟨.ofNat 128 value⟩ else none

/-- Reads the grouped form: hyphens at their places and nowhere else. -/
def ofGrouped? (chars : List Char) : Option TaskId :=
  let digits := chars.filter (· != '-')
  if chars = grouped digits then ofDigits? digits else none

/-- The prefix that marks a name as such a number, in lower case. -/
def resourcePrefix : List Char := "urn:uuid:".toList

/-- Reads a task identifier in any of its forms. -/
def ofText? (text : String) : Option TaskId :=
  let chars := text.toList
  match chars.length with
  | 32 => ofDigits? chars
  | 36 => ofGrouped? chars
  | 38 =>
    if chars.head? = some '\x7b' ∧ chars.getLast? = some '\x7d' then
      ofGrouped? (chars.drop 1).dropLast
    else none
  | 45 =>
    if (chars.take 9).map Char.toLower = resourcePrefix then ofGrouped? (chars.drop 9) else none
  | _ => none

end TaskId
end Docket
