import Docket.Json.Basic
import Docket.Text.Numeral

/-! The written form of a document has no white space, keeps the order of members, and
escapes only what has to be escaped: the quote, the backslash and control characters. -/
namespace Docket.Json
open Docket.Text

/-- A hexadecimal digit, in lower case. -/
def hexDigit (n : Nat) : Char :=
  if n % 16 < 10 then digit (n % 16) else Char.ofNat ('a'.toNat + (n % 16 - 10))

/-- The written form of one character of a text. -/
def escape (c : Char) : List Char :=
  match c with
  | '"' => ['\\', '"']
  | '\\' => ['\\', '\\']
  | '\x08' => ['\\', 'b']
  | '\x0c' => ['\\', 'f']
  | '\n' => ['\\', 'n']
  | '\r' => ['\\', 'r']
  | '\t' => ['\\', 't']
  | c =>
    if c.toNat < 0x20 then ['\\', 'u', '0', '0', hexDigit (c.toNat / 16), hexDigit c.toNat] else [c]

/-- A text between quotes. -/
def quotedChars (text : String) : List Char := '"' :: text.toList.flatMap escape ++ ['"']

/-- A number with its exponent written out. -/
def decimalChars (value : Decimal) : List Char :=
  (if value.negative then ['-'] else []) ++ decimalDigits value.significand ++
    'e' :: (if value.exponent < 0 then ['-'] else []) ++ decimalDigits value.exponent.natAbs

mutual

/-- The written form of a document. -/
def chars : Json → List Char
  | .null => "null".toList
  | .bool true => "true".toList
  | .bool false => "false".toList
  | .natural value => decimalDigits value
  | .decimal value => decimalChars value
  | .text value => quotedChars value
  | .array items => '[' :: itemChars items ++ [']']
  | .object members => '\x7b' :: memberChars members ++ ['\x7d']
  | .unreadable => "\"\\ud800\"".toList

/-- Items with commas between them. -/
def itemChars : List Json → List Char
  | [] => []
  | [item] => item.chars
  | item :: items => item.chars ++ ',' :: itemChars items

/-- Members with commas between them. -/
def memberChars : List (String × Json) → List Char
  | [] => []
  | [(key, value)] => quotedChars key ++ ':' :: value.chars
  | (key, value) :: members => quotedChars key ++ ':' :: value.chars ++ ',' :: memberChars members

end

/-- The text of a document. -/
def print (document : Json) : String := String.ofList document.chars

end Docket.Json
